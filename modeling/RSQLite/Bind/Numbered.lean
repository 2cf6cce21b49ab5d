import RSQLite.Bind.Reported

/-!
Queries whose wildcards are all numbered. The list is bound by position, so that a
wildcard gets the element of its number exactly if SQLite gives it this number: it
does for `?NNN`, and for the other prefixes as long as they appear in order.
-/
namespace RSQLite

open SqliteResultImpl Parse

/-- All wildcards are numbered, and the numbers are those from 1 to `m`. -/
structure NumberedQuery (ws : List Wildcard) (m : Nat) : Prop where
  numbered : ∀ w ∈ ws, ∃ k, w.number = some k
  range : ∀ k, (∃ w ∈ ws, w.number = some k) ↔ 1 ≤ k ∧ k ≤ m

def largest : List Wildcard → Nat
  | [] => 0
  | w :: seen => max (w.number.getD 0) (largest seen)

/-- A wildcard that is not spelled `?NNN` is a repetition, or has the next number after
the largest one before it. -/
def NextInOrder (seen : List Wildcard) : Wildcard → Prop
  | .named pre name =>
      .named pre name ∈ seen ∨ (Wildcard.named pre name).number = some (largest seen + 1)
  | .anonymous | .question _ => True

/-- The wildcards of a query, after the ones seen before, last first. -/
def InOrder : List Wildcard → List Wildcard → Prop
  | _, [] => True
  | seen, w :: ws => NextInOrder seen w ∧ InOrder (w :: seen) ws

/-- The numbering agrees with the numbers of the wildcards seen. -/
structure Follows (seen : List Wildcard) (p : Parse) : Prop where
  nVar : p.nVar = largest seen
  named : ∀ (pre : Prefix) (name : WildcardName) (x : Nat),
    ((Wildcard.named pre name).text, x) ∈ p.pVList ↔
      .named pre name ∈ seen ∧ (Wildcard.named pre name).number = some x

theorem follows_start : Follows [] start where
  nVar := rfl
  named pre name x := by simp [start]

theorem largest_cons (seen : List Wildcard) (w : Wildcard) (k : Nat)
    (number : w.number = some k) : largest (w :: seen) = max k (largest seen) := by
  rw [largest, number]
  rfl

theorem follows_old (seen : List Wildcard) (p : Parse) (follows : Follows seen p) (w : Wildcard)
    (k : Nat) (number : w.number = some k) (least : k ≤ p.nVar)
    (known : ∀ pre name, w = .named pre name → w ∈ seen) : Follows (w :: seen) p where
  nVar := by
    rw [largest_cons seen w k number, ← follows.nVar, max_eq_right least]
  named pre name x := by
    rw [follows.named pre name x, List.mem_cons]
    constructor
    · exact fun h => ⟨Or.inr h.1, h.2⟩
    · rintro ⟨rfl | h, same⟩
      · exact ⟨known pre name rfl, same⟩
      · exact ⟨h, same⟩

theorem follows_assigned (seen : List Wildcard) (p p' : Parse) (follows : Follows seen p)
    (wf : WellNumbered p) (w : Wildcard) (x k : Nat) (assigned : Assigned p w x p')
    (number : w.number = some k) :
    (x = k ↔ NextInOrder seen w) ∧ (x = k → Follows (w :: seen) p') := by
  cases assigned with
  | anonymous => cases number
  | questionNew digits positive fresh =>
      obtain rfl : digits.value = k := Option.some.inj number
      refine ⟨⟨fun _ => trivial, fun _ => rfl⟩, fun _ => ⟨?_, fun pre name x => ?_⟩⟩
      · rw [largest_cons seen _ _ number, ← follows.nVar, max_comm]
        rfl
      · rw [vListAdd, List.mem_append, List.mem_singleton, follows.named pre name x, List.mem_cons]
        constructor
        · rintro (⟨h, same⟩ | new)
          · exact ⟨Or.inr h, same⟩
          · cases Wildcard.text_named_inj pre name _ (Prod.mk.inj new).1.symm
        · rintro ⟨new | h, same⟩
          · cases new
          · exact Or.inl ⟨h, same⟩
  | questionOld digits entry known same =>
      obtain rfl : digits.value = k := Option.some.inj number
      refine ⟨⟨fun _ => trivial, fun _ => rfl⟩, fun _ => ?_⟩
      exact follows_old seen p follows _ _ number (same ▸ (wf.bounded entry known).2)
        (fun _ _ same => by cases same)
  | namedNew pre name fresh =>
      have unseen : .named pre name ∉ seen := fun h =>
        fresh _ ((follows.named pre name k).mpr ⟨h, number⟩) rfl
      refine ⟨?_, ?_⟩
      · rw [NextInOrder, number, Option.some.injEq, ← follows.nVar]
        constructor
        · exact fun same => Or.inr same.symm
        · rintro (h | same)
          · exact absurd h unseen
          · exact same.symm
      · rintro rfl
        refine ⟨?_, fun pre' name' y => ?_⟩
        · rw [largest_cons seen _ _ number, ← follows.nVar, max_eq_left (Nat.le_succ _)]
          rfl
        · rw [vListAdd, List.mem_append, List.mem_singleton, follows.named pre' name' y,
            List.mem_cons]
          constructor
          · rintro (⟨h, same⟩ | new)
            · exact ⟨Or.inr h, same⟩
            · obtain ⟨text, rfl⟩ := Prod.mk.inj new
              have same := Wildcard.text_named_inj pre name _ text
              rw [same]
              exact ⟨Or.inl rfl, number⟩
          · rintro ⟨new | h, same⟩
            · rw [new] at same
              rw [new, Option.some.inj (same.symm.trans number)]
              exact Or.inr rfl
            · exact Or.inl ⟨h, same⟩
  | namedOld pre name x known =>
      obtain ⟨h, same⟩ := (follows.named pre name x).mp known
      obtain rfl : x = k := Option.some.inj (same.symm.trans number)
      refine ⟨⟨fun _ => Or.inl h, fun _ => rfl⟩, fun _ => ?_⟩
      exact follows_old seen p follows _ _ number (wf.bounded _ known).2 (fun _ _ _ => h)

theorem numbers_iff_inOrder (ws : List Wildcard) :
    ∀ (seen : List Wildcard) (p p' : Parse) (xs : List Nat), AssignedAll p ws xs p' →
      Follows seen p → (∀ w ∈ ws, ∃ k, w.number = some k) →
      ((∀ w x, (w, x) ∈ ws.zip xs → w.number = some x) ↔ InOrder seen ws) := by
  intro seen p p' xs assigned
  induction assigned generalizing seen with
  | nil => simp [InOrder]
  | cons p p' p'' w ws x xs wf first _ ih =>
      intro follows numbered
      obtain ⟨k, number⟩ := numbered w List.mem_cons_self
      obtain ⟨next, follows'⟩ := follows_assigned seen p p' follows wf w x k first number
      have rest := fun same => ih (w :: seen) (follows' same)
        (fun w h => numbered w (List.mem_cons_of_mem _ h))
      rw [InOrder, ← next]
      constructor
      · intro all
        have same : x = k := Option.some.inj
          ((all w x List.mem_cons_self).symm.trans number)
        exact ⟨same, (rest same).mp (fun w x h => all w x (List.mem_cons_of_mem _ h))⟩
      · rintro ⟨same, later⟩ w' x' h
        rw [List.zip_cons_cons] at h
        cases h with
        | head => exact same ▸ number
        | tail _ h => exact (rest same).mpr later w' x' h

section Bound

variable {χ : Type} (enc2utf8 : χ → Bytes)

/-- What must hold of a query with the numbered wildcards `ws` that SQLite numbers with
`xs`: a bind of an unnamed list of length `m` that is accepted stores the k-th element
under the number of every wildcard with the number k. -/
def NumbersBound (ws : List Wildcard) (xs : List Nat) (p : Parse) (m : Nat) : Prop :=
  ∀ (DB : Type) (s s' : SqliteResultImpl DB) (params : ParamList χ) (warnings : List String),
    s.handles.program.parameterNames = p.parameterNames → params.names = none →
    params.values.length = m → (dbBind enc2utf8 false params).run s = .ok warnings s' →
    ∀ w x k, (w, x) ∈ ws.zip xs → w.number = some k →
      s'.params[x - 1]? = (params.values[k - 1]?).map (Parameter.bindable enc2utf8)

theorem number_ne_anonymous (w : Wildcard) (k : Nat) (number : w.number = some k) :
    w ≠ .anonymous := by
  rintro rfl
  cases number

theorem matchParams_unnamed (names : List String) (allow : Bool) (params : ParamList χ)
    (unnamed : params.names = none) (some : names ≠ []) :
    ∃ message, matchParams names allow params = .error message := by
  have missing : names.filter (fun name => params.matchIndex name = none) = names := by
    rw [List.filter_eq_self]
    intro name _
    rw [ParamList.matchIndex, unnamed]
    rfl
  exact ⟨_, by simp only [matchParams, missing, some, ne_eq, not_false_eq_true, ite_true]; rfl⟩

/-- An unnamed list is accepted for numbered wildcards only if SQLite reports plain
numbers for all of them. -/
theorem plain_of_resolved (ws : List Wildcard) (xs : List Nat) (p : Parse) (m : Nat)
    (query : NumberedQuery ws m) (assigned : AssignedAll start ws xs p) (wf : WellNumbered p)
    (params : ParamList χ) (unnamed : params.names = none) (resolved : List String × List (Parameter χ))
    (accepted : resolve p.reported false params = .ok resolved) (w : Wildcard) (x : Nat)
    (h : (w, x) ∈ ws.zip xs) :
    (∀ name ∈ p.reported, isNumber name) ∧ resolved.2 = params.values := by
  obtain ⟨k, number⟩ := query.numbered w (List.of_mem_zip h).1
  obtain ⟨entry, member, _⟩ := assigned.known w x h (number_ne_anonymous w k number)
  have shown := List.mem_of_getElem? (reported_of_entry p wf entry member)
  have nonempty : placeholderName (some entry.1) ≠ "" := by
    obtain old | ⟨w', _, named, same⟩ := assigned.entry entry member
    · cases old
    · rw [same, Wildcard.placeholderName_text w' named]
      exact w'.name_nonempty named
  by_cases plain : ∀ name ∈ p.reported, isNumber name
  · refine ⟨plain, ?_⟩
    have positional := resolve_positional p.reported false params (List.ne_nil_of_mem shown)
      (Or.inr plain)
    rw [accepted, unnamed] at positional
    exact congrArg Prod.snd (Except.ok.inj positional)
  · refine absurd accepted ?_
    push Not at plain
    obtain ⟨other, member', unplain⟩ := plain
    have refused : ∃ message, resolve p.reported false params = .error message := by
      by_cases numbers : ∃ name ∈ p.reported, isNumber name
      · exact resolve_mixed _ _ _ (Or.inr ⟨numbers, other, member', unplain⟩)
      · by_cases blank : ∃ name ∈ p.reported, name = ""
        · exact resolve_mixed _ _ _ (Or.inl ⟨blank, _, shown, nonempty⟩)
        · push Not at numbers blank
          rw [resolve_named p.reported false params
            (fun name h => ⟨blank name h, by simpa using numbers name h⟩)]
          exact matchParams_unnamed _ _ _ unnamed (List.ne_nil_of_mem shown)
    obtain ⟨message, refused⟩ := refused
    rw [refused]
    exact nofun

/-- The list whose elements are told apart by their lengths. -/
def distinctParams (χ : Type) (m : Nat) : ParamList χ where
  entries := (List.range m).map
    (fun i => (none, .vector (.list [.raw (List.replicate i 0)])))
  hasNames := false
  unnamed _ entry h := by
    obtain ⟨i, _, rfl⟩ := List.mem_map.mp h
    rfl

def idleProgram (parameterNames : List (Option String)) : Program Unit where
  columnNames := []
  declTypes := []
  parameterNames := parameterNames
  exec _ _ := { rows := [], database := () }

theorem distinctParams_bindable (m i : Nat) :
    ((distinctParams χ m).values.map (Parameter.bindable enc2utf8))[i]? =
      if i < m then some (.list [.raw (List.replicate i 0)]) else none := by
  rw [ParamList.values, distinctParams, List.map_map, List.map_map, List.getElem?_map]
  split
  · next inside =>
      rw [List.getElem?_range inside]
      rfl
  · next outside =>
      rw [List.getElem?_eq_none (by rw [List.length_range]; omega)]
      rfl

/-- Lists of one raw vector can be bound, to a statement that does nothing. -/
theorem bind_rawLists (names : List (Option String)) (s : SqliteResultImpl Unit)
    (program : s.handles.program = idleProgram names) (params : List RVector)
    (raw : ∀ v ∈ params, ∃ bytes, v = .list [.raw bytes]) (some : 0 < params.length)
    (count : params.length = s.nparams) : ∃ s', (DbResult.bind params).run s = .ok () s' := by
  have one : rowCount params = 1 := by
    obtain ⟨v, rest, rfl⟩ := List.exists_cons_of_length_pos some
    obtain ⟨bytes, rfl⟩ := raw v List.mem_cons_self
    rfl
  have rows : 0 < rowCount params := by omega
  have checked : Checked s params := by
    refine ⟨by omega, count, fun v h => ?_⟩
    obtain ⟨bytes, rfl⟩ := raw v h
    exact one.symm
  obtain ⟨values, row⟩ : ∃ values, paramRow params 0 = .ok values := by
    apply Traverse.mapM_total
    intro v h
    obtain ⟨bytes, rfl⟩ := raw v h
    exact ⟨.blob bytes, rfl⟩
  have nothing : (s.bound params values).upcoming = ([], none) := by
    rw [upcoming_bind s params values rows row, paramRows, one, program]
    simp only [List.range'_one, List.map_singleton, row, rowsFrom]
    rfl
  have supplied : (s.bound params values).params.length = (s.bound params values).nparams := by
    rw [SqliteResultImpl.nparams, SqliteResultImpl.bound, Handles.reset_eq]
    exact count
  have ended := step_end (s.bound params values) supplied
  rw [bind_row_ok s params values checked rows row]
  rw [nothing] at ended
  generalize step.run (s.bound params values) = result at ended
  cases ended
  exact ⟨_, rfl⟩

/-- The list of distinct elements is accepted. -/
theorem distinctParams_accepted (p : Parse) (m : Nat) (count : p.nVar = m) (some : 0 < m)
    (plain : ∀ name ∈ p.reported, isNumber name) :
    ∃ warnings s', (dbBind enc2utf8 false (distinctParams χ m)).run
        (initialState (Handles.prepare (idleProgram p.parameterNames) () 0) false) =
          .ok warnings s' ∧
      s'.params = (distinctParams χ m).values.map (Parameter.bindable enc2utf8) := by
  generalize fresh : initialState (Handles.prepare (idleProgram p.parameterNames) () 0) false = s
  have nparams : s.nparams = m := by
    rw [← fresh, ← count, ← reported_length p]
    rfl
  have length : ((distinctParams χ m).values.map (Parameter.bindable enc2utf8)).length = m := by
    simp only [ParamList.values, distinctParams, List.length_map, List.length_range]
  have raw : ∀ v ∈ (distinctParams χ m).values.map (Parameter.bindable enc2utf8),
      ∃ bytes, v = .list [.raw bytes] := by
    intro v h
    obtain ⟨i, found⟩ := List.mem_iff_getElem?.mp h
    rw [distinctParams_bindable] at found
    split at found
    · exact ⟨_, (Option.some.inj found).symm⟩
    · cases found
  obtain ⟨s', accepted⟩ := bind_rawLists p.parameterNames s (by rw [← fresh]; rfl) _ raw
    (by rw [length]; exact some) (length.trans nparams.symm)
  have nonempty : p.reported ≠ [] := by
    intro none
    have zero := congrArg List.length none
    rw [Parse.reported, List.length_map, reported_length, count] at zero
    exact absurd zero (Nat.ne_of_gt some)
  have resolved : resolve s.getPlaceholderNames false (distinctParams χ m) =
      .ok ([], (distinctParams χ m).values) := by
    rw [← fresh]
    exact resolve_positional p.reported false (distinctParams χ m) nonempty (Or.inr plain)
  have stored := bind_params s _ (checked_of_accepted s s' _ accepted)
  rw [accepted] at stored
  have ran := dbBind_ok enc2utf8 false (distinctParams χ m) s [] _ resolved
  rw [run_bind_ok _ _ _ _ _ accepted] at ran
  exact ⟨_, s', ran, stored⟩

/-- For an unnamed list that is accepted, every numbered wildcard gets the element of
its number exactly if the wildcards that are not spelled `?NNN` appear in order. -/
theorem numbersBound_iff (limit : Nat) (ws : List Wildcard) (m : Nat) (query : NumberedQuery ws m)
    (xs : List Nat) (p : Parse) (numbering : assignAll limit start ws = .ok (xs, p)) :
    NumbersBound enc2utf8 ws xs p m ↔
      (p.nVar = m → (∀ name ∈ p.reported, isNumber name) → InOrder [] ws) := by
  obtain ⟨assigned, wf⟩ := assignedAll_of_ok limit ws start p xs wellNumbered_start numbering
  have order := numbers_iff_inOrder ws [] start p xs assigned follows_start query.numbered
  constructor
  · intro bound count plain
    rw [← order]
    intro w x h
    obtain ⟨k, number⟩ := query.numbered w (List.of_mem_zip h).1
    have range := (query.range k).mp ⟨w, (List.of_mem_zip h).1, number⟩
    obtain ⟨warnings, s', accepted, stored⟩ :=
      distinctParams_accepted enc2utf8 p m count (by omega) plain
    have element := bound Unit _ s' (distinctParams χ m) warnings rfl rfl
      (by simp [ParamList.values, distinctParams]) accepted w x k h number
    obtain ⟨entry, member, same⟩ := assigned.known w x h (number_ne_anonymous w k number)
    have positive := (wf.bounded entry member).1
    rw [stored, ← List.getElem?_map, distinctParams_bindable, distinctParams_bindable,
      if_pos (show k - 1 < m by omega)] at element
    split at element
    · have lengths := congrArg List.length
        (RObject.raw.inj (List.cons.inj (RVector.list.inj (Option.some.inj element))).1)
      rw [List.length_replicate, List.length_replicate] at lengths
      rw [number, Option.some.injEq]
      omega
    · cases element
  · intro inOrder DB s s' params warnings names unnamed length accepted w x k h number
    obtain ⟨_, matched, resolved, checked, stored⟩ :=
      dbBind_accepted enc2utf8 false params s s' warnings accepted
    have reported : s.getPlaceholderNames = p.reported := by
      rw [getPlaceholderNames, names]
      rfl
    rw [reported] at resolved
    obtain ⟨plain, same⟩ := plain_of_resolved ws xs p m query assigned wf params unnamed _ resolved w
      x h
    obtain rfl : matched = params.values := same
    have supplied := checked.supplied
    rw [List.length_map, length, SqliteResultImpl.nparams, Handles.parameterCount, names,
      reported_length] at supplied
    have numbers := order.mpr (inOrder supplied.symm plain) w x h
    obtain rfl : x = k := Option.some.inj (numbers.symm.trans number)
    rw [stored, List.getElem?_map]

end Bound

/-- `SELECT ?2, ?1`. -/
theorem numbersBound_iff_questions :
    NumbersBound (fun bytes : Bytes => bytes)
      [.question ⟨"2", 2, rfl⟩, .question ⟨"1", 1, rfl⟩] [2, 1] ⟨2, [("?2", 2), ("?1", 1)], [1, 2]⟩
      2 := by
  refine (numbersBound_iff (fun bytes : Bytes => bytes) 32766
    [.question ⟨"2", 2, rfl⟩, .question ⟨"1", 1, rfl⟩] 2 ⟨?_, ?_⟩ _ _ rfl).mpr ?_
  · intro w h
    simp only [List.mem_cons, List.not_mem_nil, or_false] at h
    obtain rfl | rfl := h
    · exact ⟨2, rfl⟩
    · exact ⟨1, rfl⟩
  · intro k
    simp only [List.mem_cons, List.not_mem_nil, or_false, exists_eq_or_imp, exists_eq_left,
      Wildcard.number, Option.some.injEq]
    omega
  · intro _ _
    exact ⟨trivial, trivial, trivial⟩

/-- `SELECT $2, $1` with the list of 1 and 2: the first wildcard gets the first element. -/
theorem numbersBound_dollars :
    ∃ p, assignAll 32766 start [.named .dollar ⟨"2", by decide⟩, .named .dollar ⟨"1", by decide⟩] =
        .ok ([1, 2], p) ∧
      ¬ NumbersBound (fun bytes : Bytes => bytes)
        [.named .dollar ⟨"2", by decide⟩, .named .dollar ⟨"1", by decide⟩] [1, 2] p 2 := by
  refine ⟨_, rfl, fun bound => ?_⟩
  have element := bound Unit
    (initialState (Handles.prepare (idleProgram [some "$2", some "$1"]) () 0) false) _
    ⟨[(none, .vector (.int [1])), (none, .vector (.int [2]))], false, fun _ _ h => by
      simp only [List.mem_cons, List.not_mem_nil, or_false] at h
      obtain rfl | rfl := h <;> rfl⟩ _ rfl rfl rfl rfl (.named .dollar ⟨"2", by decide⟩) 1 2
    List.mem_cons_self rfl
  cases element

end RSQLite
