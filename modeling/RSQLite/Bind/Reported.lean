import RSQLite.Bind.DbBind
import RSQLite.Library.Grows

/-!
The names that SQLite reports for the wildcards of a query, and the parameters
that a bind stores in the result.
-/
namespace RSQLite

open SqliteResultImpl Measured

namespace Wildcard

/-- The text after the prefix. -/
def name : Wildcard → String
  | anonymous => ""
  | question digits => digits.text
  | named _ name => name.text

theorem name_nonempty (w : Wildcard) (h : w ≠ .anonymous) : w.name ≠ "" := by
  cases w with
  | anonymous => exact absurd rfl h
  | question digits => exact digitsValue?_ne_empty _ _ digits.valid
  | named pre name => exact name.nonempty

theorem placeholderName_text (w : Wildcard) (h : w ≠ .anonymous) :
    placeholderName (some w.text) = w.name := by
  cases w with
  | anonymous => exact absurd rfl h
  | question digits => simp [placeholderName, text, name]
  | named pre name => simp [placeholderName, text, Wildcard.name]

end Wildcard

namespace Parse

def reported (p : Parse) : List String := p.parameterNames.map placeholderName

theorem reported_length (p : Parse) : p.parameterNames.length = p.nVar := by
  rw [parameterNames, List.length_map, List.length_range']

theorem reported_getElem? (p : Parse) (x : Nat) (range : 1 ≤ x ∧ x ≤ p.nVar) :
    p.reported[x - 1]? = some (placeholderName (p.vListNumToName x)) := by
  have inside : x - 1 < p.nVar := by omega
  have back : 1 + (x - 1) = x := by omega
  rw [reported, parameterNames, List.map_map, List.getElem?_map, List.getElem?_range' inside,
    Nat.one_mul, back]
  rfl

theorem mem_reported (p : Parse) (name : String) (h : name ∈ p.reported) :
    name = "" ∨ ∃ entry ∈ p.pVList, name = placeholderName (some entry.1) := by
  obtain ⟨reported, member, rfl⟩ := List.mem_map.mp h
  obtain ⟨x, _, rfl⟩ := List.mem_map.mp member
  cases found : p.vListNumToName x with
  | none => exact Or.inl rfl
  | some name =>
      obtain ⟨entry, first, rfl⟩ := Option.map_eq_some_iff.mp found
      exact Or.inr ⟨entry, List.mem_of_find?_eq_some first, rfl⟩

theorem reported_of_entry (p : Parse) (wf : WellNumbered p) (entry : String × Nat)
    (h : entry ∈ p.pVList) : p.reported[entry.2 - 1]? = some (placeholderName (some entry.1)) := by
  rw [reported_getElem? p entry.2 (wf.bounded entry h), vListNumToName_of_mem p wf.numbers entry h]

theorem AssignedAll.assigned {p p' : Parse} {ws : List Wildcard} {xs : List Nat}
    (assigned : AssignedAll p ws xs p') (w : Wildcard) (x : Nat) (h : (w, x) ∈ ws.zip xs) :
    ∃ q q', Assigned q w x q' ∧ ∀ entry ∈ q'.pVList, entry ∈ p'.pVList := by
  induction assigned with
  | nil => cases h
  | cons p p' p'' w' ws x' xs _ first rest ih =>
      rw [List.zip_cons_cons] at h
      cases h with
      | head => exact ⟨p, p', first, rest.mem⟩
      | tail _ h => exact ih h

theorem AssignedAll.known {p p' : Parse} {ws : List Wildcard} {xs : List Nat}
    (assigned : AssignedAll p ws xs p') (w : Wildcard) (x : Nat) (h : (w, x) ∈ ws.zip xs)
    (named : w ≠ .anonymous) : ∃ entry ∈ p'.pVList, entry.2 = x := by
  obtain ⟨_, _, one, stays⟩ := assigned.assigned w x h
  obtain ⟨entry, member, same⟩ := one.known named
  exact ⟨entry, stays entry member, same⟩

theorem AssignedAll.named {p p' : Parse} {ws : List Wildcard} {xs : List Nat}
    (assigned : AssignedAll p ws xs p') (pre : Prefix) (name : WildcardName) (x : Nat)
    (h : (.named pre name, x) ∈ ws.zip xs) :
    ((Wildcard.named pre name).text, x) ∈ p'.pVList := by
  obtain ⟨_, _, one, stays⟩ := assigned.assigned _ x h
  exact stays _ one.named

theorem AssignedAll.length {p p' : Parse} {ws : List Wildcard} {xs : List Nat}
    (assigned : AssignedAll p ws xs p') : xs.length = ws.length := by
  induction assigned with
  | nil => rfl
  | cons p p' p'' w ws x xs _ _ _ ih => rw [List.length_cons, List.length_cons, ih]

end Parse

variable {DB χ : Type}

theorem bind_params (s : SqliteResultImpl DB) (params : List RVector)
    (checked : Checked s params) :
    (endState ((DbResult.bind params).run s)).params = params := by
  have runs := bind_runs s params
  generalize (DbResult.bind params).run s = result at runs ⊢
  cases runs with
  | refused message unchecked => exact absurd checked unchecked
  | empty _ _ | unbindable _ _ _ _ _ => rfl
  | stepped values _ rows row =>
      have ended := step_end (s.bound params values) (bound_count s params values checked)
      generalize step.run (s.bound params values) = result at ended
      generalize (s.bound params values).upcoming = stream at ended
      cases ended <;> rfl

theorem checked_of_accepted (s s' : SqliteResultImpl DB) (params : List RVector)
    (accepted : (DbResult.bind params).run s = .ok () s') : Checked s params := by
  have runs := bind_runs s params
  generalize (DbResult.bind params).run s = result at accepted runs
  cases runs with
  | refused message _ => cases accepted
  | empty checked _ => exact checked
  | unbindable f bindings checked _ _ => exact checked
  | stepped values checked _ _ => exact checked

theorem dbBind_accepted (enc2utf8 : χ → Bytes) (allow : Bool) (params : ParamList χ)
    (s s' : SqliteResultImpl DB) (warnings : List String)
    (accepted : (dbBind enc2utf8 allow params).run s = .ok warnings s') :
    ∃ warnings matched, resolve s.getPlaceholderNames allow params = .ok (warnings, matched) ∧
      Checked s (matched.map (Parameter.bindable enc2utf8)) ∧
      s'.params = matched.map (Parameter.bindable enc2utf8) := by
  cases resolved : resolve s.getPlaceholderNames allow params with
  | error message =>
      rw [dbBind_error enc2utf8 allow params s message resolved] at accepted
      cases accepted
  | ok result =>
      obtain ⟨warnings', matched⟩ := result
      rw [dbBind_ok enc2utf8 allow params s warnings' matched resolved, EStateM.run_bind] at accepted
      have stored := bind_params s (matched.map (Parameter.bindable enc2utf8))
      cases bound : (DbResult.bind (matched.map (Parameter.bindable enc2utf8))).run s with
      | error f s'' =>
          rw [bound] at accepted
          cases accepted
      | ok _ s'' =>
          have checked := checked_of_accepted s s'' _ bound
          rw [bound] at accepted
          cases accepted
          rw [bound] at stored
          exact ⟨warnings', matched, rfl, checked, stored checked⟩

end RSQLite
