import RSQLite.Regexp.Closed
import RSQLite.Regexp.Meaning

/-!
The two optimizations of a program do not change what it matches. A program that is anchored by
`^` does without the initial `.*`, and the text is searched for the characters that an expression
begins with before the program is run.
-/
namespace RSQLite.Regexp

open Machine

section Anchored

variable {ops : ReProgram}

/-- The anchored program differs from the other one in its first opcode. -/
structure Anchors (ops : ReProgram) : Prop where
  complete : ReComplete ops
  first : ops[0]? = some ⟨.anyStar, 0⟩
  start : ∃ arg, ops[1]? = some ⟨.atStart, arg⟩

theorem anchored_get (anchors : Anchors ops) :
    (anchored ops)[0]? = some ⟨.goto, 1⟩ ∧ ∀ x, 0 < x → (anchored ops)[x]? = ops[x]? := by
  obtain ⟨arg, start⟩ := anchors.start
  rw [anchored, start, if_pos (by rfl)]
  have inside := (List.getElem?_eq_some_iff.mp anchors.first).1
  exact ⟨List.getElem?_set_self inside, fun x behind => List.getElem?_set_ne (by omega)⟩

theorem ccHit_congr {a b : ReProgram} {x c n : Nat} (same : ∀ y, x < y → a[y]? = b[y]?)
    (fuel : Nat) : ∀ j, 0 < j → ccHit a x c n fuel j = ccHit b x c n fuel j := by
  induction fuel with
  | zero => exact fun j _ => rfl
  | succ fuel ih =>
      intro j some_
      rw [ccHit, ccHit, same (x + j) (by omega), same (x + j + 1) (by omega),
        ih (j + 1) (Nat.succ_pos j), ih (j + 2) (by omega)]

theorem anchored_steps (anchors : Anchors ops) {x : Nat} (behind : 0 < x) (g : Nat × Nat) :
    (reMachine (anchored ops)).still g x = (reMachine ops).still g x ∧
      (reMachine (anchored ops)).moves g x = (reMachine ops).moves g x ∧
      (reMachine (anchored ops)).halts x = (reMachine ops).halts x := by
  have same := (anchored_get anchors).2
  have hits (c n : Nat) : ccHit (anchored ops) x c n (n + 1) 1 = ccHit ops x c n (n + 1) 1 :=
    ccHit_congr (fun y later => same y (behind.trans later)) (n + 1) 1 Nat.one_pos
  simp only [reMachine, visit, same x behind, hits]
  exact ⟨trivial, trivial, trivial⟩

theorem anchored_final (anchors : Anchors ops) (x : Nat) :
    (reMachine (anchored ops)).final x = (reMachine ops).final x := by
  obtain ⟨first, same⟩ := anchored_get anchors
  have complete := anchored_complete anchors.complete
  obtain ⟨arg, start⟩ := anchors.start
  have behind (n : Nat) : ∀ x, 0 < x →
      endsAccepted (anchored ops) n x = endsAccepted ops n x := by
    induction n with
    | zero => exact fun x _ => rfl
    | succ n ih =>
        intro x behind
        rw [endsAccepted, endsAccepted, same x behind]
        cases here : ops[x]? with
        | none => rfl
        | some i =>
            obtain ⟨op, arg⟩ := i
            obtain ⟨_, bounds⟩ := anchors.complete.instr here
            simp only
            split
            · next goto =>
                simp only [Instr.InBounds, goto] at bounds
                obtain ⟨t, jumps, _, value⟩ := jump_ok (by omega) bounds.2
                rw [jumps]
                exact ih t (by omega)
            · rfl
  have length : (anchored ops).length = ops.length := by
    rw [anchored]
    split
    · exact List.length_set
    · rfl
  cases x with
  | zero =>
      have one : (anchored ops)[1]? = some ⟨.atStart, arg⟩ := (same 1 Nat.one_pos).trans start
      rw [goto_final complete first (t := 1) rfl, final_of one (by simp),
        final_of anchors.first (by simp)]
      rfl
  | succ x =>
      simp only [reMachine, length]
      rw [behind _ (x + 1) (Nat.succ_pos x)]

theorem start_dead (anchors : Anchors ops) (gs : List (Nat × Nat))
    (later : ∀ g ∈ gs, g.1 ≠ reStart) : ¬ (reMachine ops).Accepts gs 0 := by
  obtain ⟨arg, start⟩ := anchors.start
  induction gs with
  | nil =>
      rw [accepts_nil, final_of anchors.first (by simp)]
      exact Bool.false_ne_true
  | cons g gs ih =>
      have stuck : ¬ (reMachine ops).Accepts (g :: gs) 1 := by
        rw [accepts_cons, goes_of start (by simp), (atStart_steps start g).1,
          (atStart_steps start g).2, if_neg (later g List.mem_cons_self)]
        simp
      rw [accepts_cons, goes_of anchors.first (by simp), (anyStar_steps anchors.first g).1,
        (anyStar_steps anchors.first g).2]
      simpa [stuck] using ih fun g member => later g (List.mem_cons_of_mem _ member)

theorem anchored_accepts (anchors : Anchors ops) {gs : List (Nat × Nat)}
    (later : ∀ g ∈ gs.tail, g.1 ≠ reStart) (x : Nat) :
    (reMachine (anchored ops)).Accepts gs x ↔ (reMachine ops).Accepts gs x := by
  have first := (anchored_get anchors).1
  have zero := anchors.first
  have halts (x : Nat) : (reMachine (anchored ops)).halts x = (reMachine ops).halts x := by
    cases x with
    | zero => rw [goes_of first (by simp), goes_of zero (by simp)]
    | succ x => exact (anchored_steps anchors (Nat.succ_pos x) (0, 0)).2.2
  constructor
  · refine Accepts.simulate (G := fun _ => True) (fun _ _ _ => trivial) ?_ ?_
      (fun x here => (halts x).symm.trans here)
      (fun x here => (anchored_final anchors x).symm.trans here) trivial
    · intro g gs x t _ step _
      cases x with
      | zero =>
          rw [(goto_steps first (t := 1) rfl g).1] at step
          rwa [(anyStar_steps zero g).1]
      | succ x => rwa [(anchored_steps anchors (Nat.succ_pos x) g).1] at step
    · intro g gs x t _ step _
      cases x with
      | zero =>
          rw [(goto_steps first (t := 1) rfl g).2] at step
          exact absurd step List.not_mem_nil
      | succ x => rwa [(anchored_steps anchors (Nat.succ_pos x) g).2.1] at step
  · have tails (g : Nat × Nat) (gs : List (Nat × Nat))
        (later : ∀ g ∈ (g :: gs).tail, g.1 ≠ reStart) :
        ∀ g ∈ gs.tail, g.1 ≠ reStart := fun g' member => later g' (List.mem_of_mem_tail member)
    refine Accepts.simulate (G := fun gs : List (Nat × Nat) => ∀ g ∈ gs.tail, g.1 ≠ reStart)
      tails ?_ ?_
      (fun x here => (halts x).trans here)
      (fun x here => (anchored_final anchors x).trans here) later
    · intro g gs x t _ step _
      cases x with
      | zero =>
          rw [(anyStar_steps zero g).1] at step
          rwa [(goto_steps first (t := 1) rfl g).1]
      | succ x => rwa [(anchored_steps anchors (Nat.succ_pos x) g).1]
    · intro g gs x t later step accepts
      cases x with
      | zero =>
          rw [(anyStar_steps zero g).2, List.mem_singleton] at step
          subst step
          exact absurd accepts (start_dead anchors gs later)
      | succ x => rwa [(anchored_steps anchors (Nat.succ_pos x) g).2.1]

end Anchored

def encoded (cs : List Char) : Bytes := cs.flatMap String.utf8EncodeChar

def seen (noCase : Bool) (c : Char) : Nat := if noCase then lowerCase c.toNat else c.toNat

theorem toNat_ne_zero {c : Char} (some_ : c ≠ '\x00') : c.toNat ≠ 0 :=
  fun zero => some_ (Char.toNat_inj.mp zero)

theorem seen_ne_zero (noCase : Bool) {c : Char} (some_ : c ≠ '\x00') : seen noCase c ≠ 0 := by
  cases noCase with
  | false => exact toNat_ne_zero some_
  | true => exact lowerCase_ne_zero (toNat_ne_zero some_)

theorem nextChar_encode (noCase : Bool) (c : Char) (rest : Bytes) :
    nextChar noCase (String.utf8EncodeChar c ++ rest) = (seen noCase c, rest) := by
  cases noCase with
  | false => exact reNextChar_encode c rest
  | true =>
      rw [nextChar, if_pos rfl, reNextCharNocase, reNextChar_encode]
      rfl

theorem encodeChar_ne_nil (c : Char) : String.utf8EncodeChar c ≠ [] := by
  rw [String.utf8EncodeChar]
  split
  · exact List.cons_ne_nil _ _
  · split
    · exact List.cons_ne_nil _ _
    · split <;> exact List.cons_ne_nil _ _

theorem decoded_encoded (noCase : Bool) (cs : List Char) (noNul : '\x00' ∉ cs) :
    ∀ n, (encoded cs).length ≤ n → decoded noCase n (encoded cs) = cs.map (seen noCase) := by
  induction cs with
  | nil =>
      intro n _
      cases n with
      | zero => rfl
      | succ n =>
          rw [encoded, List.flatMap_nil, decoded, nextChar_nil]
          rfl
  | cons c cs ih =>
      intro n enough
      have some_ : c ≠ '\x00' := fun nul => noNul (nul ▸ List.mem_cons_self)
      have positive := List.length_pos_of_ne_nil (encodeChar_ne_nil c)
      rw [encoded, List.flatMap_cons, List.length_append] at enough
      obtain ⟨n, rfl⟩ : ∃ k, n = k + 1 := ⟨n - 1, by omega⟩
      rw [encoded, List.flatMap_cons, decoded, nextChar_encode]
      simp only [seen_ne_zero noCase some_, ite_false, List.map_cons]
      rw [← encoded] at enough ⊢
      rw [ih (fun found => noNul (List.mem_cons_of_mem c found)) n (by omega)]

theorem textChars_encoded (noCase : Bool) {cs : List Char} (noNul : '\x00' ∉ cs) :
    textChars noCase (encoded cs) = cs.map (seen noCase) :=
  decoded_encoded noCase cs noNul _ le_rfl

theorem encodeChar_continues (c : Char) :
    ∃ b rest, String.utf8EncodeChar c = b :: rest ∧ ∀ d ∈ rest, isContinuation d = true := by
  have low (v : Nat) : isContinuation (UInt8.ofNat (v % 64 + 0x80)) = true :=
    (continuation_bits (Nat.mod_lt v (by decide))).1
  have none_ : ∀ d ∈ ([] : Bytes), isContinuation d = true := fun _ member => nomatch member
  rw [String.utf8EncodeChar]
  generalize c.val.toNat = v
  split
  · exact ⟨_, _, rfl, none_⟩
  · split
    · exact ⟨_, _, rfl, List.forall_mem_cons.mpr ⟨low v, none_⟩⟩
    · split
      · exact ⟨_, _, rfl, List.forall_mem_cons.mpr ⟨low (v / 64),
          List.forall_mem_cons.mpr ⟨low v, none_⟩⟩⟩
      · exact ⟨_, _, rfl, List.forall_mem_cons.mpr ⟨low (v / 4096),
          List.forall_mem_cons.mpr ⟨low (v / 64), List.forall_mem_cons.mpr ⟨low v, none_⟩⟩⟩⟩

/-- Bytes from the first byte of a character on are the text from there on. -/
theorem suffix_encoded {cs : List Char} {b : UInt8} {rest : Bytes} (lead : isContinuation b = false)
    (suffix : b :: rest <:+ encoded cs) : ∃ ds, ds <:+ cs ∧ b :: rest = encoded ds := by
  induction cs with
  | nil =>
      exact absurd (List.suffix_nil.mp suffix) (List.cons_ne_nil _ _)
  | cons c cs ih =>
      obtain ⟨first, more, here, continues⟩ := encodeChar_continues c
      rw [encoded, List.flatMap_cons, here, ← encoded] at suffix
      rw [List.cons_append, List.suffix_cons_iff] at suffix
      rcases suffix with whole | inner
      · refine ⟨c :: cs, List.suffix_rfl, ?_⟩
        rw [encoded, List.flatMap_cons, here]
        exact whole
      · have drop (more : Bytes) (continues : ∀ d ∈ more, isContinuation d = true)
            (inner : b :: rest <:+ more ++ encoded cs) : b :: rest <:+ encoded cs := by
          induction more with
          | nil => exact inner
          | cons d more ih =>
              rw [List.cons_append, List.suffix_cons_iff] at inner
              rcases inner with same | later
              · have other := continues d List.mem_cons_self
                rw [← (List.cons.inj same).1, lead] at other
                exact absurd other Bool.false_ne_true
              · exact ih (fun d member => continues d (List.mem_cons_of_mem _ member)) later
        obtain ⟨ds, within, same⟩ := ih (drop more continues inner)
        exact ⟨ds, within.trans (List.suffix_cons c cs), same⟩

/-- The text is searched for the first place where the bytes stand. -/
theorem searchInit_spec {init : Bytes} (some_ : init ≠ []) (z : Bytes) :
    match searchInit init z with
    | none => ∀ r, r <:+ z → ¬ init <+: r
    | some r => r <:+ z ∧ init <+: r ∧ ∀ r', r' <:+ z → init <+: r' → r' <:+ r := by
  induction z with
  | nil =>
      intro r suffix starts
      obtain rfl := List.suffix_nil.mp suffix
      exact some_ (List.prefix_nil.mp starts)
  | cons b z ih =>
      rw [searchInit]
      by_cases short : init.length ≤ (b :: z).length
      · rw [if_pos short]
        by_cases here : init.isPrefixOf (b :: z) = true
        · rw [if_pos here]
          exact ⟨List.suffix_rfl, List.isPrefixOf_iff_prefix.mp here, fun r suffix _ => suffix⟩
        · rw [if_neg here]
          have not_here : ¬ init <+: b :: z := fun starts =>
            here (List.isPrefixOf_iff_prefix.mpr starts)
          cases found : searchInit init z with
          | none =>
              rw [found] at ih
              intro r suffix starts
              rcases List.suffix_cons_iff.mp suffix with rfl | inner
              · exact not_here starts
              · exact ih r inner starts
          | some r =>
              rw [found] at ih
              obtain ⟨suffix, starts, first⟩ := ih
              refine ⟨suffix.trans (List.suffix_cons b z), starts, fun r' suffix' starts' => ?_⟩
              rcases List.suffix_cons_iff.mp suffix' with rfl | inner
              · exact absurd starts' not_here
              · exact first r' inner starts'
      · rw [if_neg short]
        intro r suffix starts
        exact short (starts.length_le.trans suffix.length_le)

section Initial

theorem or_bits (v : Nat) : (v < 32 → UInt8.ofNat (0xc0 ||| v) = UInt8.ofNat (v + 0xc0)) ∧
    (v < 16 → UInt8.ofNat (0xe0 ||| v) = UInt8.ofNat (v + 0xe0)) ∧
    UInt8.ofNat (0x80 ||| (v &&& 0x3f)) = UInt8.ofNat (v % 0x40 + 0x80) := by
  refine ⟨fun low => ?_, fun low => ?_, ?_⟩
  · have all : ∀ v : Fin 32, UInt8.ofNat (0xc0 ||| v.val) = UInt8.ofNat (v.val + 0xc0) := by
      decide +kernel
    exact all ⟨v, low⟩
  · have all : ∀ v : Fin 16, UInt8.ofNat (0xe0 ||| v.val) = UInt8.ofNat (v.val + 0xe0) := by
      decide +kernel
    exact all ⟨v, low⟩
  · have all : ∀ v : Fin 64, UInt8.ofNat (0x80 ||| v.val) = UInt8.ofNat (v.val + 0x80) := by
      decide +kernel
    have low : v &&& 0x3f = v % 0x40 := Nat.and_two_pow_sub_one_eq_mod v 6
    rw [low]
    exact all ⟨v % 64, Nat.mod_lt v (by decide)⟩

/-- The characters up to U+FFFF are entered as their bytes. -/
theorem initChar_encode {c : Char} {bytes : Bytes} (entered : initChar c.toNat = some bytes) :
    bytes = String.utf8EncodeChar c := by
  change initChar c.val.toNat = some bytes at entered
  rw [String.utf8EncodeChar]
  rw [initChar] at entered
  generalize c.val.toNat = v at entered ⊢
  split at entered
  · next one =>
      rw [if_pos one]
      exact (Option.some.inj entered).symm
  · next more =>
      rw [if_neg more]
      split at entered
      · next two =>
          rw [if_pos two, ← Option.some.inj entered, (or_bits _).2.2, Nat.shiftRight_eq_div_pow,
            (or_bits (v / 2 ^ 6)).1 (by omega), Nat.mod_eq_of_lt (show v / 64 < 0x20 by omega)]
      · next more =>
          rw [if_neg more]
          split at entered
          · next three =>
              rw [if_pos three, ← Option.some.inj entered, (or_bits _).2.2, (or_bits _).2.2,
                Nat.shiftRight_eq_div_pow, Nat.shiftRight_eq_div_pow,
                (or_bits (v / 2 ^ 12)).2.1 (by omega),
                Nat.mod_eq_of_lt (show v / 4096 < 0x10 by omega)]
          · exact nomatch entered

theorem initChar_lead {x : Nat} {bytes : Bytes} (entered : initChar x = some bytes) :
    ∃ b rest, bytes = b :: rest ∧ isContinuation b = false := by
  rw [initChar] at entered
  split at entered
  · next one =>
      obtain rfl := Option.some.inj entered
      have all : ∀ v : Fin 128, isContinuation (UInt8.ofNat v.val) = false := by decide +kernel
      exact ⟨_, _, rfl, all ⟨x, by omega⟩⟩
  · split at entered
    · next two =>
        obtain rfl := Option.some.inj entered
        have all : ∀ v : Fin 32, isContinuation (UInt8.ofNat (0xc0 ||| v.val)) = false := by
          decide +kernel
        have low : x >>> 6 < 32 := by
          rw [Nat.shiftRight_eq_div_pow]
          omega
        exact ⟨_, _, rfl, all ⟨x >>> 6, low⟩⟩
    · split at entered
      · next three =>
          obtain rfl := Option.some.inj entered
          have all : ∀ v : Fin 16, isContinuation (UInt8.ofNat (0xe0 ||| v.val)) = false := by
            decide +kernel
          have low : x >>> 12 < 16 := by
            rw [Nat.shiftRight_eq_div_pow]
            omega
          exact ⟨_, _, rfl, all ⟨x >>> 12, low⟩⟩
      · exact nomatch entered

theorem initLoop_prefix (code : ReProgram) : ∀ z, z <+: initLoop code z := by
  induction code with
  | nil => exact fun z => List.prefix_rfl
  | cons i code ih =>
      intro z
      rw [initLoop]
      split
      · split
        · exact (List.prefix_append z _).trans (ih _)
        · exact List.prefix_rfl
      · exact List.prefix_rfl

/-- A text for the search begins with a character that the program reads first. -/
theorem initText_lead {ops : ReProgram} {noCase : Bool} {b : UInt8} {rest : Bytes}
    (init : initText ops noCase = b :: rest) :
    isContinuation b = false ∧ noCase = false ∧ ∃ arg arg' code,
      ops = ⟨.anyStar, arg⟩ :: ⟨.matchChar, arg'⟩ :: code := by
  unfold initText at init
  split at init
  · next arg code =>
      cases noCase with
      | true => exact nomatch init
      | false =>
          have whole : ∃ more, initLoop code [] = b :: more := by
            simp only [Bool.false_eq_true, ite_false] at init
            split at init
            · next ends =>
                obtain ⟨c, more, cons⟩ : ∃ c more, initLoop code [] = c :: more :=
                  List.exists_cons_of_ne_nil fun none_ => by rw [none_] at init; exact nomatch init
                rw [cons] at init ⊢
                cases more with
                | nil => exact nomatch init
                | cons d more =>
                    rw [List.dropLast_cons_cons] at init
                    exact ⟨_, by rw [(List.cons.inj init).1]⟩
            · exact ⟨rest, init⟩
          obtain ⟨more, whole⟩ := whole
          cases code with
          | nil => exact nomatch whole
          | cons i code =>
              obtain ⟨op, arg'⟩ := i
              rw [initLoop] at whole
              split at whole
              · next goes =>
                  obtain rfl := goes.2
                  split at whole
                  · next bytes entered =>
                      obtain ⟨c, others, rfl, lead⟩ := initChar_lead entered
                      obtain ⟨tail, starts⟩ := initLoop_prefix code ([] ++ c :: others)
                      rw [whole, List.nil_append, List.cons_append] at starts
                      rw [← (List.cons.inj starts).1]
                      exact ⟨lead, rfl, arg, arg', code, rfl⟩
                  · exact nomatch whole
              · exact nomatch whole
  · exact nomatch init

variable {ops : ReProgram}

/-- Where the text is accepted, the characters have been read that are searched for. -/
theorem initLoop_accepts {code : ReProgram} : ∀ {x : Nat} {d : Nat} {cs : List Char} {z : Bytes},
    CodeAt ops x code → '\x00' ∉ cs →
    (reMachine ops).Accepts (rounds d (cs.map (seen false))) x →
    ∃ t, initLoop code z = z ++ t ∧ (t <+: encoded cs ∨ t = encoded cs ++ [0]) := by
  induction code with
  | nil => exact fun _ _ _ => ⟨[], (List.append_nil _).symm, .inl List.nil_prefix⟩
  | cons i code ih =>
      intro x d cs z at_ noNul accepts
      obtain ⟨op, arg⟩ := i
      rw [initLoop]
      split
      · next goes =>
          obtain rfl := goes.2
          split
          · next bytes entered =>
              obtain ⟨g, gs, here⟩ : ∃ g gs, rounds d (cs.map (seen false)) = g :: gs := by
                cases cs <;> exact ⟨_, _, rfl⟩
              obtain ⟨still, moves⟩ := read_steps at_.head (g := g) (b := arg == g.2) rfl
              have next : arg = g.2 ∧ (reMachine ops).Accepts gs (x + 1) := by
                rw [here, accepts_cons, goes_of at_.head (by simp), still, moves] at accepts
                obtain same | other := Decidable.em (arg = g.2)
                · simpa [same] using accepts
                · simp [other] at accepts
              obtain ⟨same, accepts⟩ := next
              cases cs with
              | nil =>
                  obtain ⟨rfl, rfl⟩ := List.cons.inj here
                  simp only [reEof] at same
                  subst same
                  obtain rfl : [0] = bytes := Option.some.inj entered
                  refine ⟨[0], ?_, .inr rfl⟩
                  cases code with
                  | nil => rfl
                  | cons i code =>
                      obtain ⟨op, arg⟩ := i
                      rw [initLoop, if_neg]
                      rintro ⟨_, rfl⟩
                      rw [accepts_nil, final_of at_.tail.head (by simp)] at accepts
                      exact Bool.false_ne_true accepts
              | cons c cs =>
                  obtain ⟨rfl, rfl⟩ := List.cons.inj here
                  have small : (arg % 2 ^ 32).toNat = c.toNat := by
                    have valid : c.toNat < 0x110000 := by
                      have := c.valid
                      change c.val.toNat < _
                      rcases this with low | ⟨_, high⟩ <;> omega
                    simp only [seen, Bool.false_eq_true, ite_false] at same
                    rw [same]
                    omega
                  rw [small] at entered
                  obtain rfl := initChar_encode entered
                  obtain ⟨t, rest, reads⟩ := ih (z := z ++ String.utf8EncodeChar c) at_.tail
                    (fun found => noNul (List.mem_cons_of_mem c found)) accepts
                  refine ⟨String.utf8EncodeChar c ++ t, by rw [rest, List.append_assoc], ?_⟩
                  rw [encoded, List.flatMap_cons, ← encoded]
                  rcases reads with starts | rfl
                  · exact .inl ((List.prefix_append_right_inj _).mpr starts)
                  · exact .inr (List.append_assoc _ _ _).symm
          · exact ⟨[], (List.append_nil _).symm, .inl List.nil_prefix⟩
      · exact ⟨[], (List.append_nil _).symm, .inl List.nil_prefix⟩

theorem encoded_noNul {cs : List Char} (noNul : '\x00' ∉ cs) : (0 : UInt8) ∉ encoded cs := by
  intro found
  obtain ⟨c, member, zero⟩ := List.mem_flatMap.mp found
  have some_ : c ≠ '\x00' := fun nul => noNul (nul ▸ member)
  obtain ⟨b, rest, here, continues⟩ := encodeChar_continues c
  rw [here] at zero
  rcases List.mem_cons.mp zero with rfl | later
  · have read := reNextChar_encode c []
    rw [here, List.cons_append] at read
    exact toNat_ne_zero some_ (congrArg Prod.fst read).symm
  · exact absurd (continues 0 later) (by decide)

theorem initText_accepts (start : ∃ arg code, ops = ⟨.anyStar, arg⟩ :: code) {d : Nat}
    {cs : List Char} (noNul : '\x00' ∉ cs)
    (accepts : (reMachine ops).Accepts (rounds d (cs.map (seen false))) 1) :
    initText ops false <+: encoded cs := by
  obtain ⟨arg, code, rfl⟩ := start
  obtain ⟨t, loop, reads⟩ := initLoop_accepts (z := []) (CodeAt.whole _).tail noNul accepts
  unfold initText
  simp only [Bool.false_eq_true, ite_false, loop, List.nil_append]
  rcases reads with starts | rfl
  · rw [if_neg]
    · exact starts
    · intro ends
      exact encoded_noNul noNul (starts.subset (List.mem_of_getLast? ends))
  · simp only [List.getLast?_concat, ite_true, List.dropLast_concat, List.prefix_rfl]

/-- A program with an initial `.*` accepts where it does behind it. What is in front of a
character that is read there does not matter. -/
theorem accepts_suffix {arg arg' : Int} {code : ReProgram}
    (program : ops = ⟨.anyStar, arg⟩ :: ⟨.matchChar, arg'⟩ :: code) {w : List Nat} (noNul : 0 ∉ w)
    (c : Nat) :
    (reMachine ops).Accepts (rounds c w) 0 ↔
      ∃ w', w' <:+ w ∧ (reMachine ops).Accepts (rounds reStart w') 1 := by
  have at_ : CodeAt ops 0 (⟨.anyStar, arg⟩ :: ⟨.matchChar, arg'⟩ :: code) := by
    rw [← program]
    exact .whole ops
  have one := at_.tail.head
  have prev (w : List Nat) (c d : Nat) : (reMachine ops).Accepts (rounds c w) 1 →
      (reMachine ops).Accepts (rounds d w) 1 := by
    cases w with
    | nil =>
        rw [rounds, rounds, accepts_cons, accepts_cons,
          (read_steps one (g := (c, reEof)) rfl).1, (read_steps one (g := (c, reEof)) rfl).2,
          (read_steps one (g := (d, reEof)) rfl).1, (read_steps one (g := (d, reEof)) rfl).2]
        simp only [List.not_mem_nil, false_and, exists_false]
        exact id
    | cons e w =>
        rw [rounds, rounds, accepts_cons, accepts_cons,
          (read_steps one (g := (c, e)) rfl).1, (read_steps one (g := (c, e)) rfl).2,
          (read_steps one (g := (d, e)) rfl).1, (read_steps one (g := (d, e)) rfl).2]
        simp only [List.not_mem_nil, false_and, exists_false]
        exact id
  have leads := anyStar_leads at_.head
  have behind {p q : Place} (gone : Relation.ReflTransGen (Reads fun _ => True) p q) :
      q.rest <:+ p.rest := by
    induction gone with
    | refl => exact List.suffix_rfl
    | tail _ next ih =>
        obtain ⟨c, _, rest, _⟩ := next
        rw [rest] at ih
        exact (List.suffix_cons c _).trans ih
  have gone : ∀ (w : List Nat) (noNul : 0 ∉ w) (c : Nat) (w' : List Nat), w' <:+ w →
      ∃ q : Place, q.rest = w' ∧ Relation.ReflTransGen (Reads fun _ => True) ⟨c, w, noNul⟩ q := by
    intro w
    induction w with
    | nil =>
        intro noNul c w' suffix
        exact ⟨⟨c, [], noNul⟩, (List.suffix_nil.mp suffix).symm, .refl⟩
    | cons d w ih =>
        intro noNul c w' suffix
        rcases List.suffix_cons_iff.mp suffix with rfl | inner
        · exact ⟨_, rfl, .refl⟩
        · obtain ⟨q, rest, gone⟩ :=
            ih (fun found => noNul (List.mem_cons_of_mem d found)) d w' inner
          exact ⟨q, rest, gone.head ⟨d, trivial, rfl, rfl⟩⟩
  change (reMachine ops).Accepts (view ⟨c, w, noNul⟩) 0 ↔ _
  constructor
  · rintro ⟨n, accepts⟩
    obtain ⟨k, q, _, related, more⟩ := leads.sound accepts
    exact ⟨q.rest, behind related, prev _ _ _ ⟨k, more⟩⟩
  · rintro ⟨w', suffix, accepts⟩
    obtain ⟨q, rfl, related⟩ := gone w noNul c w' suffix
    exact leads.complete related (prev _ _ _ accepts)

/-- Of two places in a text the one is behind the other whose bytes are. -/
theorem suffix_of_encoded {cs ds es : List Char} (first : ds <:+ cs) (second : es <:+ cs)
    (bytes : encoded es <:+ encoded ds) : es <:+ ds := by
  rcases List.suffix_or_suffix_of_suffix second first with le | ge
  · exact le
  · obtain ⟨more, rfl⟩ := ge
    have length := bytes.length_le
    rw [encoded, encoded, List.flatMap_append, List.length_append] at length
    cases more with
    | nil => exact List.suffix_rfl
    | cons c more =>
        have positive := List.length_pos_of_ne_nil (encodeChar_ne_nil c)
        rw [List.flatMap_cons, List.length_append] at length
        omega

end Initial

theorem map_seen_noNul (noCase : Bool) {cs : List Char} (noNul : '\x00' ∉ cs) :
    0 ∉ cs.map (seen noCase) := by
  intro found
  obtain ⟨c, member, zero⟩ := List.mem_map.mp found
  exact seen_ne_zero noCase (fun nul => noNul (nul ▸ member)) zero

theorem seen_lt_start (noCase : Bool) (c : Char) : seen noCase c < reStart := by
  have valid : c.toNat < 0x110000 := by
    have := c.valid
    change c.val.toNat < _
    rcases this with low | ⟨_, high⟩ <;> omega
  rw [reStart]
  cases noCase with
  | false => exact Nat.lt_trans valid (by decide)
  | true =>
      change lowerCase c.toNat < _
      rw [lowerCase]
      split <;> omega

theorem rounds_later (noCase : Bool) (cs : List Char) (d : Nat) :
    ∀ g ∈ (rounds d (cs.map (seen noCase))).tail, g.1 ≠ reStart := by
  induction cs generalizing d with
  | nil => exact fun g member => nomatch member
  | cons c cs ih =>
      intro g member
      have less := seen_lt_start noCase c
      rw [List.map_cons, rounds, List.tail_cons] at member
      cases cs with
      | nil =>
          obtain rfl := List.mem_singleton.mp member
          exact less.ne
      | cons c' cs =>
          rcases List.mem_cons.mp member with rfl | later
          · exact less.ne
          · exact ih (seen noCase c) g later

/-- The same program without the two optimizations. -/
def ReCompiled.plain (p : ReCompiled) : ReCompiled :=
  { p with ops := p.ops.set 0 ⟨.anyStar, 0⟩, zInit := [] }

theorem plain_ops {ops : ReProgram} (first : ops[0]? = some ⟨.anyStar, 0⟩) :
    (anchored ops).set 0 ⟨.anyStar, 0⟩ = ops := by
  have same : ops.set 0 ⟨.anyStar, 0⟩ = ops := by
    cases ops with
    | nil => exact nomatch first
    | cons i ops =>
        obtain rfl := Option.some.inj first
        rfl
  rw [anchored]
  split
  · rw [List.set_set, same]
  · exact same

variable {mxRe : Nat} {noCase : Bool} {p : ReCompiled}

/-- What a compiled expression matches is decided by the program that is not optimized. -/
theorem reMatch_accepts (ready : ReReady mxRe noCase p) (small : mxRe ≤ 2 ^ 16) {cs : List Char}
    (noNul : '\x00' ∉ cs) :
    ∃ b, reMatch p (encoded cs) = .ok b ∧ (b = true ↔
      (reMachine p.plain.ops).Accepts (rounds reStart (cs.map (seen noCase))) 0) := by
  obtain ⟨ops, complete, first, anchors⟩ := ready.plain
  have size := ready.size.trans small
  have plain : p.plain.ops = ops := by
    rw [ReCompiled.plain, anchors]
    exact plain_ops first
  rw [plain, reMatch, ready.noCase]
  by_cases init : p.zInit = []
  · rw [if_pos init]
    have complete' : ReComplete p.ops := by
      rw [anchors]
      exact anchored_complete complete
    obtain ⟨b, loop, decides⟩ := matchLoop_accepts complete' size noCase (c := reStart) (by decide)
      (encoded cs)
    refine ⟨b, loop, decides.trans ?_⟩
    rw [textChars_encoded noCase noNul, anchors]
    by_cases start : ∃ arg, ops[1]? = some ⟨.atStart, arg⟩
    · exact anchored_accepts ⟨complete, first, start⟩ (rounds_later noCase cs reStart) 0
    · rw [anchored, if_neg]
      intro op
      obtain ⟨i, here, same⟩ := Option.map_eq_some_iff.mp op
      obtain ⟨op, arg⟩ := i
      obtain rfl : op = .atStart := same
      exact start ⟨arg, here⟩
  · rw [if_neg init]
    obtain ⟨b, rest, text⟩ := List.exists_cons_of_ne_nil init
    obtain ⟨lead, rfl, arg, arg', code, program⟩ := initText_lead (ready.zInit.symm.trans text)
    have same : ops = p.ops := by
      rw [anchors]
      rw [anchors, anchored] at program
      rw [anchored]
      split at program
      · next start =>
          cases ops with
          | nil => exact absurd first (by simp)
          | cons i ops => exact absurd (List.cons.inj program).1 (by simp)
      · next start => rw [if_neg start]
    have starts {d : Nat} {ds : List Char} (noNul : '\x00' ∉ ds)
        (accepts : (reMachine ops).Accepts (rounds d (ds.map (seen false))) 1) :
        p.zInit <+: encoded ds := by
      rw [ready.zInit, ← same]
      rw [← same] at program
      exact initText_accepts ⟨arg, _, program⟩ noNul accepts
    rw [← same] at program
    have suffixes {ds : List Char} (noNul : '\x00' ∉ ds) (c : Nat) :
        (reMachine ops).Accepts (rounds c (ds.map (seen false))) 0 ↔
          ∃ es, es <:+ ds ∧ (reMachine ops).Accepts (rounds reStart (es.map (seen false))) 1 := by
      rw [accepts_suffix program (map_seen_noNul false noNul) c]
      constructor
      · rintro ⟨w, suffix, accepts⟩
        obtain ⟨more, whole⟩ := suffix
        obtain ⟨es', es, rfl, _, rfl⟩ := List.map_eq_append_iff.mp whole.symm
        exact ⟨es, List.suffix_append _ _, accepts⟩
      · rintro ⟨es, suffix, accepts⟩
        exact ⟨_, suffix.map _, accepts⟩
    have inner {ds : List Char} (suffix : ds <:+ cs) : '\x00' ∉ ds :=
      fun found => noNul (suffix.subset found)
    have search := searchInit_spec init (encoded cs)
    cases found : searchInit p.zInit (encoded cs) with
    | none =>
        rw [found] at search
        refine ⟨false, rfl, iff_of_false Bool.false_ne_true fun accepts => ?_⟩
        obtain ⟨es, suffix, accepted⟩ := (suffixes noNul _).mp accepts
        have there := starts (inner suffix) accepted
        obtain ⟨more, rfl⟩ := suffix
        refine search (encoded es) ⟨encoded more, ?_⟩ there
        exact List.flatMap_append.symm
    | some z =>
        rw [found] at search
        obtain ⟨suffix, here, before⟩ := search
        have shape : ∃ z', z = b :: z' := by
          rw [text] at here
          obtain ⟨more, rfl⟩ := here
          exact ⟨_, List.cons_append⟩
        obtain ⟨z', rfl⟩ := shape
        obtain ⟨ds, within, bytes⟩ := suffix_encoded lead suffix
        rw [bytes] at before ⊢
        have complete' : ReComplete p.ops := same ▸ complete
        obtain ⟨r, loop, decides⟩ := matchLoop_accepts complete' size false (c := reStart - 1)
          (by decide) (encoded ds)
        refine ⟨r, loop, decides.trans ?_⟩
        rw [textChars_encoded false (inner within), ← same, suffixes (inner within),
          suffixes noNul]
        constructor
        · rintro ⟨es, suffix, accepts⟩
          exact ⟨es, suffix.trans within, accepts⟩
        · rintro ⟨es, suffix, accepts⟩
          refine ⟨es, suffix_of_encoded within suffix (before _ ?_ (starts (inner suffix) accepts)),
            accepts⟩
          obtain ⟨more, rfl⟩ := suffix
          exact ⟨encoded more, List.flatMap_append.symm⟩

end RSQLite.Regexp
