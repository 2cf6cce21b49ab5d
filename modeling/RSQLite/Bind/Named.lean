import RSQLite.Bind.Numbered
import RSQLite.Result.FailedBind

/-!
Queries whose wildcards are all named: the list is matched by name, every element
must be used, and the order of the list does not matter. The other classes are
told by the names that SQLite reports.
-/
namespace RSQLite

open SqliteResultImpl Parse Measured

/-- A named wildcard whose name is not a plain number. -/
def IsNamed : Wildcard → Prop
  | .named _ name => isNumber name.text = false
  | .anonymous | .question _ => False

/-- Some, but not all, of the reported parameters are unnamed, or numbered. -/
def MixedNames (names : List String) : Prop :=
  (∃ name ∈ names, name = "") ∧ (∃ name ∈ names, name ≠ "") ∨
    (∃ name ∈ names, isNumber name) ∧ ∃ name ∈ names, ¬ isNumber name

section Matching

variable {χ : Type}

/-- Some placeholder has no element of its name. -/
def Missing (ws : List Wildcard) (params : ParamList χ) : Prop :=
  ∃ w ∈ ws, ∀ entry ∈ params.entries, entry.1 ≠ some w.name

/-- Some position of the list is not used: its name is no placeholder's, or an earlier
position has it. -/
def Unused (ws : List Wildcard) (params : ParamList χ) : Prop :=
  ∃ (i : Nat) (entry : Option String × Parameter χ), params.entries[i]? = some entry ∧
    ((∀ w ∈ ws, entry.1 ≠ some w.name) ∨
      ∃ (j : Nat) (other : Option String × Parameter χ), j < i ∧
        params.entries[j]? = some other ∧ other.1 = entry.1)

/-- The reported names are those of the wildcards. -/
def Reports (names : List String) (ws : List Wildcard) : Prop :=
  ∀ name, name ∈ names ↔ ∃ w ∈ ws, name = w.name

/-- Each placeholder has its element, and each element its placeholder. -/
structure Complete (ws : List Wildcard) (params : ParamList χ) : Prop where
  given : ∀ w ∈ ws, ∃ entry ∈ params.entries, entry.1 = some w.name
  used : ∀ entry ∈ params.entries, ∃ w ∈ ws, entry.1 = some w.name
  nodup : (params.entries.map Prod.fst).Nodup

theorem complete_iff (ws : List Wildcard) (params : ParamList χ) :
    Complete ws params ↔ ¬ Missing ws params ∧ ¬ Unused ws params := by
  constructor
  · rintro ⟨given, used, nodup⟩
    constructor
    · rintro ⟨w, h, absent⟩
      obtain ⟨entry, member, same⟩ := given w h
      exact absent entry member same
    · rintro ⟨i, entry, at_i, unknown | ⟨j, other, before, at_j, same⟩⟩
      · obtain ⟨w, h, same⟩ := used entry (List.mem_of_getElem? at_i)
        exact unknown w h same
      · exact (Keyed.nodup_iff params.entries).mp nodup i j entry other before at_i at_j same
  · rintro ⟨present, whole⟩
    refine ⟨fun w h => ?_, fun entry member => ?_, ?_⟩
    · by_contra absent
      push Not at absent
      exact present ⟨w, h, absent⟩
    · obtain ⟨i, at_i⟩ := List.mem_iff_getElem?.mp member
      by_contra unknown
      push Not at unknown
      exact whole ⟨i, entry, at_i, Or.inl unknown⟩
    · rw [Keyed.nodup_iff]
      intro i j entry other before at_i at_j same
      exact whole ⟨i, entry, at_i, Or.inr ⟨j, other, before, at_j, same⟩⟩

theorem Complete.perm {ws : List Wildcard} {params params' : ParamList χ}
    (complete : Complete ws params) (perm : params'.entries.Perm params.entries) :
    Complete ws params' where
  given w h := by
    obtain ⟨entry, member, same⟩ := complete.given w h
    exact ⟨entry, perm.mem_iff.mpr member, same⟩
  used entry h := complete.used entry (perm.mem_iff.mp h)
  nodup := (perm.map Prod.fst).nodup_iff.mpr complete.nodup

/-- Every position is matched exactly if the names of the list are distinct and known. -/
theorem unmatchedIndexes_nil (names : List String) (params : ParamList χ) :
    unmatchedIndexes names params = [] ↔
      (∀ entry ∈ params.entries, ∃ name ∈ names, entry.1 = some name) ∧
        (params.entries.map Prod.fst).Nodup := by
  rw [unmatchedIndexes, List.filter_eq_nil_iff, Keyed.nodup_iff]
  constructor
  · intro all
    have matched : ∀ i entry, params.entries[i]? = some entry → ∃ name ∈ names,
        Keyed.position params.entries (some name) = some i := by
      intro i entry at_i
      have inside := all i (List.mem_range.mpr (List.getElem?_eq_some_iff.mp at_i).1)
      rw [decide_not, Bool.not_eq_true', decide_eq_false_iff_not, not_not] at inside
      obtain ⟨name, member, found⟩ := List.mem_map.mp inside
      rw [params.matchIndex_eq] at found
      exact ⟨name, member, found⟩
    constructor
    · intro entry member
      obtain ⟨i, at_i⟩ := List.mem_iff_getElem?.mp member
      obtain ⟨name, member', found⟩ := matched i entry at_i
      obtain ⟨entry', at_i', same, _⟩ := (Keyed.position_eq_some _ _ _).mp found
      obtain rfl := Option.some.inj (at_i.symm.trans at_i')
      exact ⟨name, member', same⟩
    · intro i j entry other before at_i at_j same
      obtain ⟨name, _, found⟩ := matched i entry at_i
      obtain ⟨entry', at_i', named, first⟩ := (Keyed.position_eq_some _ _ _).mp found
      obtain rfl := Option.some.inj (at_i.symm.trans at_i')
      exact first j other before at_j (same.trans named)
  · rintro ⟨known, distinct⟩ i inside
    rw [decide_not, Bool.not_eq_true', decide_eq_false_iff_not, not_not]
    have at_i := List.getElem?_eq_getElem (List.mem_range.mp inside)
    obtain ⟨name, member, same⟩ := known _ (List.mem_of_getElem? at_i)
    refine List.mem_map.mpr ⟨name, member, ?_⟩
    rw [params.matchIndex_eq, Keyed.position_eq_some]
    refine ⟨_, at_i, same, fun j other before at_j found => ?_⟩
    exact distinct i j _ other before at_i at_j (found.trans same.symm)

theorem matchParams_complete (names : List String) (ws : List Wildcard) (params : ParamList χ)
    (reports : Reports names ws) (complete : Complete ws params) :
    matchParams names false params = .ok ([], names.filterMap params.element) := by
  have present : names.filter (fun name => params.matchIndex name = none) = [] := by
    rw [List.filter_eq_nil_iff]
    intro name member absent
    obtain ⟨w, h, rfl⟩ := (reports name).mp member
    obtain ⟨entry, found, same⟩ := complete.given w h
    rw [decide_eq_true_eq, params.matchIndex_eq, Keyed.position_eq_none] at absent
    exact absent entry found same
  have whole : unmatchedIndexes names params = [] := by
    refine (unmatchedIndexes_nil names params).mpr ⟨fun entry h => ?_, complete.nodup⟩
    obtain ⟨w, member, same⟩ := complete.used entry h
    exact ⟨w.name, (reports w.name).mpr ⟨w, member, rfl⟩, same⟩
  simp only [matchParams, present, whole, ne_eq, not_true_eq_false, ite_false, ite_true,
    ParamList.values_matchIndex]

theorem matchParams_incomplete (names : List String) (ws : List Wildcard) (params : ParamList χ)
    (reports : Reports names ws) (incomplete : ¬ Complete ws params) :
    ∃ message, matchParams names false params = .error message := by
  by_cases present : names.filter (fun name => params.matchIndex name = none) = []
  · have partly : unmatchedIndexes names params ≠ [] := by
      intro whole
      obtain ⟨used, nodup⟩ := (unmatchedIndexes_nil names params).mp whole
      refine incomplete ⟨fun w h => ?_, fun entry h => ?_, nodup⟩
      · by_contra absent
        push Not at absent
        have unmatched := (List.filter_eq_nil_iff.mp present) w.name
          ((reports w.name).mpr ⟨w, h, rfl⟩)
        rw [decide_eq_true_eq, params.matchIndex_eq, Keyed.position_eq_none] at unmatched
        exact unmatched absent
      · obtain ⟨name, member, same⟩ := used entry h
        obtain ⟨w, hw, rfl⟩ := (reports name).mp member
        exact ⟨w, hw, same⟩
    simp only [matchParams, present, partly, ne_eq, not_true_eq_false, ite_false,
      Bool.false_eq_true]
    exact ⟨_, rfl⟩
  · simp only [matchParams, present, ne_eq, not_false_eq_true, ite_true]
    exact ⟨_, rfl⟩

end Matching

section Reported

variable {p : Parse} {ws : List Wildcard} {xs : List Nat}

theorem numbers_of_named {p p' : Parse} {ws : List Wildcard} {xs : List Nat}
    (assigned : AssignedAll p ws xs p') (named : ∀ w ∈ ws, IsNamed w)
    (full : ∀ x, 1 ≤ x ∧ x ≤ p.nVar → ∃ entry ∈ p.pVList, entry.2 = x) :
    ∀ x, 1 ≤ x ∧ x ≤ p'.nVar → ∃ entry ∈ p'.pVList, entry.2 = x := by
  induction assigned with
  | nil => exact full
  | cons p p' p'' w ws x xs _ first _ ih =>
      refine ih (fun w h => named w (List.mem_cons_of_mem _ h)) ?_
      cases first with
      | anonymous | questionNew | questionOld => exact (named _ List.mem_cons_self).elim
      | namedOld => exact full
      | namedNew pre name fresh =>
          intro y range
          by_cases last : y = p.nVar + 1
          · exact ⟨_, List.mem_append_right _ (List.mem_singleton_self _), last.symm⟩
          · have more : y ≤ p.nVar + 1 := range.2
            obtain ⟨entry, member, same⟩ := full y ⟨range.1, by omega⟩
            exact ⟨entry, List.mem_append_left _ member, same⟩

/-- What SQLite reports for named wildcards. -/
theorem reports_of_named (assigned : AssignedAll start ws xs p) (wf : WellNumbered p)
    (named : ∀ w ∈ ws, IsNamed w) :
    Reports p.reported ws ∧ ∀ w x, (w, x) ∈ ws.zip xs → p.reported[x - 1]? = some w.name := by
  have shown : ∀ w x, (w, x) ∈ ws.zip xs → p.reported[x - 1]? = some w.name := by
    intro w x h
    cases w with
    | anonymous | question => exact (named _ (List.of_mem_zip h).1).elim
    | named pre name =>
        have entry := reported_of_entry p wf _ (assigned.named pre name x h)
        rwa [Wildcard.placeholderName_text (.named pre name) nofun] at entry
  refine ⟨fun name => ⟨fun h => ?_, ?_⟩, shown⟩
  · obtain ⟨reported, member, rfl⟩ := List.mem_map.mp h
    obtain ⟨x, range, rfl⟩ := List.mem_map.mp member
    rw [List.mem_range'_1] at range
    obtain ⟨entry, known, rfl⟩ := numbers_of_named assigned named
      (fun x range => absurd range.2 (Nat.not_le.mpr range.1)) x ⟨range.1, by omega⟩
    rw [vListNumToName_of_mem p wf.numbers entry known]
    obtain old | ⟨w, hw, wnamed, same⟩ := assigned.entry entry known
    · cases old
    · exact ⟨w, hw, by rw [same, Wildcard.placeholderName_text w wnamed]⟩
  · rintro ⟨w, h, rfl⟩
    obtain ⟨i, at_i⟩ := List.mem_iff_getElem?.mp h
    have inside : i < xs.length := by
      rw [assigned.length]
      exact (List.getElem?_eq_some_iff.mp at_i).1
    refine List.mem_of_getElem? (shown w xs[i] ?_)
    refine List.mem_of_getElem? (i := i) ?_
    rw [List.getElem?_zip_eq_some]
    exact ⟨at_i, List.getElem?_eq_getElem inside⟩

theorem named_names (ws : List Wildcard) (named : ∀ w ∈ ws, IsNamed w) (names : List String)
    (reports : Reports names ws) : ∀ name ∈ names, name ≠ "" ∧ isNumber name = false := by
  intro name h
  obtain ⟨w, member, rfl⟩ := (reports name).mp h
  cases w with
  | anonymous | question => exact (named _ member).elim
  | named pre name => exact ⟨name.nonempty, named _ member⟩

theorem anonymous_assigned {p p' : Parse} {ws : List Wildcard} {xs : List Nat}
    (assigned : AssignedAll p ws xs p') (anonymous : ∀ w ∈ ws, w = .anonymous) :
    xs = List.range' (p.nVar + 1) ws.length ∧ p'.pVList = p.pVList := by
  induction assigned with
  | nil => exact ⟨rfl, rfl⟩
  | cons p p' p'' w ws x xs _ first _ ih =>
      obtain rfl := anonymous w List.mem_cons_self
      obtain ⟨numbers, entries⟩ := ih (fun w h => anonymous w (List.mem_cons_of_mem _ h))
      cases first
      exact ⟨by rw [numbers]; rfl, entries⟩

end Reported

section Bound

variable {χ : Type} (enc2utf8 : χ → Bytes)

/-- Parameters of equal length, whose values can be bound. -/
def Suitable (params : ParamList χ) : Prop :=
  ∃ n, ∀ v ∈ params.values, (v.bindable enc2utf8).length = n ∧
    ∀ g < n, ∃ x, (v.bindable enc2utf8).boundValue g = .ok x

/-- What must hold of a query with the named wildcards `ws` that SQLite numbers with
`xs`: `db_bind()` raises before anything is bound exactly if the list does not match,
and otherwise stores under the number of each wildcard the element of its name,
whatever the order of the list. -/
def BoundByName (ws : List Wildcard) (xs : List Nat) (p : Parse) : Prop :=
  ∀ (DB : Type) (s : SqliteResultImpl DB) (params : ParamList χ),
    s.handles.program.parameterNames = p.parameterNames → Suitable enc2utf8 params →
    (Missing ws params ∨ Unused ws params →
      ∃ message, (dbBind enc2utf8 false params).run s = .error (.stop message) s) ∧
    (¬ (Missing ws params ∨ Unused ws params) →
      (∀ f s', (dbBind enc2utf8 false params).run s = .error f s' →
        s'.handles.executed ≠ s.handles.executed) ∧
      (∀ w x, (w, x) ∈ ws.zip xs → ∃ v, params.element w.name = some v ∧
        (endState ((dbBind enc2utf8 false params).run s)).params[x - 1]? =
          some (v.bindable enc2utf8)) ∧
      ∀ params' : ParamList χ, params'.entries.Perm params.entries →
        (dbBind enc2utf8 false params').run s = (dbBind enc2utf8 false params).run s)

/-- A query whose reported names are mixed is refused, whatever the list. -/
def MixedRefused (p : Parse) : Prop :=
  ∀ (DB : Type) (s : SqliteResultImpl DB) (params : ParamList χ),
    s.handles.program.parameterNames = p.parameterNames →
    ∃ message, (dbBind enc2utf8 false params).run s = .error (.stop message) s

/-- Each of the anonymous wildcards that SQLite numbers with `xs` gets the element at its
own position. -/
def BoundByPosition (xs : List Nat) (p : Parse) : Prop :=
  ∀ (DB : Type) (s s' : SqliteResultImpl DB) (params : ParamList χ) (warnings : List String),
    s.handles.program.parameterNames = p.parameterNames →
    (dbBind enc2utf8 false params).run s = .ok warnings s' →
    ∀ i x : Nat, xs[i]? = some x →
      s'.params[x - 1]? = (params.values[i]?).map (Parameter.bindable enc2utf8)

theorem endState_bind_pure {DB α β : Type} (x : Method DB α) (f : α → β)
    (s : SqliteResultImpl DB) :
    endState ((x >>= fun a => pure (f a)).run s) = endState (x.run s) := by
  rw [EStateM.run_bind]
  cases x.run s <;> rfl

theorem element_of_complete {ws : List Wildcard} {params : ParamList χ}
    (complete : Complete ws params) (w : Wildcard) (h : w ∈ ws) :
    ∃ v, params.element w.name = some v ∧ v ∈ params.values := by
  obtain ⟨entry, found, same⟩ := complete.given w h
  cases element : params.element w.name with
  | none => exact absurd same ((Keyed.lookup_eq_none _ _).mp element entry found)
  | some v => exact ⟨v, rfl, List.mem_map.mpr ⟨_, Keyed.mem_of_lookup _ _ _ element, rfl⟩⟩

/-- The list that is passed on for a complete list. -/
def passed (names : List String) (params : ParamList χ) : List RVector :=
  (names.filterMap params.element).map (Parameter.bindable enc2utf8)

theorem passed_eq (names : List String) (ws : List Wildcard) (params : ParamList χ)
    (reports : Reports names ws) (complete : Complete ws params) :
    ∃ element : String → Parameter χ, passed enc2utf8 names params =
        names.map (fun name => (element name).bindable enc2utf8) ∧
      ∀ name ∈ names, params.element name = some (element name) ∧ element name ∈ params.values := by
  have chosen : ∀ name ∈ names, params.element name =
        some ((params.element name).getD (.vector (.lgl []))) ∧
      (params.element name).getD (.vector (.lgl [])) ∈ params.values := by
    intro name h
    obtain ⟨w, member, rfl⟩ := (reports name).mp h
    obtain ⟨v, element, inside⟩ := element_of_complete complete w member
    rw [element]
    exact ⟨rfl, inside⟩
  refine ⟨fun name => (params.element name).getD (.vector (.lgl [])), ?_, chosen⟩
  rw [passed, List.filterMap_eq_map_iff_forall_eq_some.mpr (fun name h => (chosen name h).1),
    List.map_map]
  rfl

/-- Parameters of equal length pass the checks if there are as many as placeholders, and
their first row can be bound. -/
theorem checked_of_suitable {DB : Type} (s : SqliteResultImpl DB) (list : List RVector) (n : Nat)
    (some : s.nparams ≠ 0) (count : list.length = s.nparams)
    (suitable : ∀ v ∈ list, v.length = n ∧ ∀ g < n, ∃ x, v.boundValue g = .ok x) :
    Checked s list ∧ ∀ f, 0 < rowCount list → paramRow list 0 ≠ .error f := by
  have rows : rowCount list = n := by
    obtain ⟨v, rest, rfl⟩ := List.exists_cons_of_length_pos (count ▸ Nat.pos_of_ne_zero some)
    exact (suitable v List.mem_cons_self).1
  refine ⟨⟨some, count, fun v h => (suitable v h).1.trans rows.symm⟩, fun f positive failed => ?_⟩
  obtain ⟨values, row⟩ := Traverse.mapM_total (fun v : RVector => v.boundValue 0) list
    (fun v h => (suitable v h).2 0 (rows ▸ positive))
  cases failed.symm.trans row

theorem dbBind_complete {DB : Type} (s : SqliteResultImpl DB) (names : List String)
    (ws : List Wildcard) (params : ParamList χ) (reports : Reports names ws)
    (byName : resolve s.getPlaceholderNames false params = matchParams names false params)
    (complete : Complete ws params) :
    (dbBind enc2utf8 false params).run s =
      (DbResult.bind (passed enc2utf8 names params) >>= fun _ => pure ([] ++
        if (names.filterMap params.element).any Parameter.isFactor then [factorsConverted]
        else [])).run s :=
  dbBind_ok enc2utf8 false params s [] _
    (byName.trans (matchParams_complete names ws params reports complete))

theorem boundByName (ws : List Wildcard) (xs : List Nat) (p : Parse) (some : ws ≠ [])
    (assigned : AssignedAll start ws xs p) (wf : WellNumbered p) (named : ∀ w ∈ ws, IsNamed w) :
    BoundByName enc2utf8 ws xs p := by
  intro DB s params names ⟨n, suitable⟩
  obtain ⟨reports, shown⟩ := reports_of_named assigned wf named
  have byName : ∀ params : ParamList χ,
      resolve s.getPlaceholderNames false params = matchParams p.reported false params := by
    intro params
    rw [getPlaceholderNames, names]
    exact resolve_named p.reported _ _ (named_names ws named _ reports)
  rw [not_or, ← complete_iff]
  constructor
  · intro refused
    obtain ⟨message, unmatched⟩ := matchParams_incomplete p.reported ws params reports
      (by rwa [complete_iff, ← not_or, not_not])
    exact ⟨message, dbBind_error enc2utf8 false params s message ((byName params).trans unmatched)⟩
  · intro complete
    have run := dbBind_complete enc2utf8 s p.reported ws params reports (byName params) complete
    obtain ⟨element, same, elements⟩ := passed_eq enc2utf8 p.reported ws params reports complete
    obtain ⟨w, h⟩ := List.exists_mem_of_ne_nil ws some
    have nparams : p.reported.length = s.nparams := by
      rw [reported, List.length_map, SqliteResultImpl.nparams, Handles.parameterCount, names]
    have positive : s.nparams ≠ 0 := by
      rw [← nparams]
      exact Nat.ne_of_gt (List.length_pos_of_mem ((reports w.name).mpr ⟨w, h, rfl⟩))
    obtain ⟨checked, bindable⟩ := checked_of_suitable s (passed enc2utf8 p.reported params) n positive
      (by rw [same, List.length_map, nparams]) (by
        rw [same]
        intro v hv
        obtain ⟨name, hname, rfl⟩ := List.mem_map.mp hv
        exact suitable _ (elements name hname).2)
    refine ⟨fun f s' failed unstepped => ?_, fun w x h => ?_, fun params' perm => ?_⟩
    · rw [run, EStateM.run_bind] at failed
      cases bound : (DbResult.bind (passed enc2utf8 p.reported params)).run s with
      | ok _ s'' =>
          rw [bound] at failed
          cases failed
      | error e s'' =>
          rw [bound] at failed
          cases failed
          obtain ⟨unchecked, _⟩ | ⟨_, rows, row, _⟩ := failed_bind s _ _ _ bound unstepped
          · exact unchecked checked
          · exact bindable f rows row
    · have member := (reports w.name).mpr ⟨w, (List.of_mem_zip h).1, rfl⟩
      refine ⟨element w.name, (elements w.name member).1, ?_⟩
      rw [run, endState_bind_pure, bind_params s _ checked, same, List.getElem?_map, shown w x h]
      rfl
    · have lookup : params'.element = params.element := by
        funext name
        exact congrFun (Keyed.lookup_perm params.entries params'.entries perm complete.nodup)
          (Option.some name)
      rw [run, dbBind_complete enc2utf8 s p.reported ws params' reports (byName params')
        (complete.perm perm), passed, passed, lookup]

theorem boundByPosition (ws : List Wildcard) (xs : List Nat) (p : Parse)
    (assigned : AssignedAll start ws xs p) (anonymous : ∀ w ∈ ws, w = .anonymous) :
    BoundByPosition enc2utf8 xs p := by
  intro DB s s' params warnings names accepted i x at_i
  obtain ⟨numbers, entries⟩ := anonymous_assigned assigned anonymous
  obtain ⟨_, matched, resolved, checked, stored⟩ :=
    dbBind_accepted enc2utf8 false params s s' warnings accepted
  have blank : ∀ name ∈ s.getPlaceholderNames, name = "" := by
    intro name h
    rw [getPlaceholderNames, names] at h
    obtain blank | ⟨entry, member, _⟩ := mem_reported p name h
    · exact blank
    · rw [entries] at member
      cases member
  have nonempty : s.getPlaceholderNames ≠ [] := by
    intro none
    refine checked.required ?_
    rw [getPlaceholderNames, List.map_eq_nil_iff] at none
    rw [SqliteResultImpl.nparams, Handles.parameterCount, none, List.length_nil]
  have positional := resolve_positional s.getPlaceholderNames false params nonempty (Or.inl blank)
  rw [resolved] at positional
  obtain rfl : matched = params.values := by
    split at positional
    · cases positional
    · exact congrArg Prod.snd (Except.ok.inj positional)
  obtain ⟨inside, rfl⟩ := List.getElem?_eq_some_iff.mp at_i
  have number : xs[i] = i + 1 := by
    simp only [numbers, List.getElem_range', start]
    omega
  rw [stored, number, List.getElem?_map]
  rfl

/-- Binding by the class of the wildcards that SQLite reports. -/
theorem dbBind_classes (limit : Nat) (ws : List Wildcard) (xs : List Nat) (p : Parse)
    (numbering : assignAll limit start ws = .ok (xs, p)) :
    (ws ≠ [] → (∀ w ∈ ws, IsNamed w) → BoundByName enc2utf8 ws xs p) ∧
      (MixedNames p.reported → MixedRefused enc2utf8 p) ∧
      ((∀ w ∈ ws, w = .anonymous) → BoundByPosition enc2utf8 xs p) := by
  obtain ⟨assigned, wf⟩ := assignedAll_of_ok limit ws start p xs wellNumbered_start numbering
  refine ⟨fun some named => boundByName enc2utf8 ws xs p some assigned wf named, ?_,
    fun anonymous => boundByPosition enc2utf8 ws xs p assigned anonymous⟩
  intro mixed DB s params names
  obtain ⟨message, refused⟩ := resolve_mixed p.reported false params mixed
  refine ⟨message, dbBind_error enc2utf8 false params s message ?_⟩
  rw [getPlaceholderNames, names]
  exact refused

end Bound

/-- `SELECT :a, $b, @a`. -/
theorem dbBind_classes_named :
    ∃ p, assignAll 32766 start [.named .colon ⟨"a", by decide⟩, .named .dollar ⟨"b", by decide⟩,
        .named .atSign ⟨"a", by decide⟩] = .ok ([1, 2, 3], p) ∧
      BoundByName (fun bytes : Bytes => bytes) [.named .colon ⟨"a", by decide⟩,
        .named .dollar ⟨"b", by decide⟩, .named .atSign ⟨"a", by decide⟩] [1, 2, 3] p := by
  refine ⟨_, rfl, (dbBind_classes (fun bytes : Bytes => bytes) 32766 _ _ _ rfl).1 nofun ?_⟩
  intro w h
  simp only [List.mem_cons, List.not_mem_nil, or_false] at h
  obtain rfl | rfl | rfl := h <;> rfl

/-- `SELECT ?, ?1` and `SELECT :a, ?1` mix two classes, and are accepted with one element:
SQLite reports a single parameter. -/
theorem dbBind_classes_merged :
    (∃ p warnings s', assignAll 32766 start [.anonymous, .question ⟨"1", 1, rfl⟩] =
        .ok ([1, 1], p) ∧
      (dbBind (fun bytes : Bytes => bytes) false
        ⟨[(none, .vector (.int [7]))], false, by simp⟩).run
        (initialState (Handles.prepare (idleProgram p.parameterNames) () 0) false) =
          .ok warnings s') ∧
    ∃ p warnings s', assignAll 32766 start [.named .colon ⟨"a", by decide⟩,
        .question ⟨"1", 1, rfl⟩] = .ok ([1, 1], p) ∧
      (dbBind (fun bytes : Bytes => bytes) false
        ⟨[(some "a", .vector (.int [7]))], true, by simp⟩).run
        (initialState (Handles.prepare (idleProgram p.parameterNames) () 0) false) =
          .ok warnings s' :=
  ⟨⟨_, _, _, rfl, rfl⟩, ⟨_, _, _, rfl, rfl⟩⟩

end RSQLite
