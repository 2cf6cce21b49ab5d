import Mathlib.Data.List.Dedup
import Mathlib.Data.List.Perm.Basic

/-!
A cache of bounded size as a list, the most recent element first. What is inserted pushes
the rest back, and what is pushed over the end is evicted.
-/
namespace Recent

variable {α : Type}

def insert (cap : Nat) (x : α) (l : List α) : List α := (x :: l).take cap

/-- The element at an index becomes the first one. -/
def touch (i : Nat) (x : α) (l : List α) : List α := x :: l.eraseIdx i

def insertAll (cap : Nat) : List α → List α → List α
  | [], l => l
  | x :: xs, l => insertAll cap xs (insert cap x l)

theorem insert_of_room (cap : Nat) (x : α) (l : List α) (room : l.length < cap) :
    insert cap x l = x :: l := List.take_of_length_le room

theorem insert_of_full (cap : Nat) (x last : α) (l : List α) (full : l.length + 1 = cap) :
    insert cap x (l ++ [last]) = x :: l := by
  rw [insert, ← full, List.take_succ_cons, List.take_left]

theorem insert_length (cap : Nat) (x : α) (l : List α) : (insert cap x l).length ≤ cap := by
  rw [insert, List.length_take]
  exact Nat.min_le_left _ _

theorem touch_perm (i : Nat) (l : List α) (h : i < l.length) : (touch i l[i] l).Perm l :=
  List.getElem_cons_eraseIdx_perm h

theorem insertAll_eq (cap : Nat) (xs l : List α) (bounded : l.length ≤ cap) :
    insertAll cap xs l = (xs.reverse ++ l).take cap := by
  induction xs generalizing l with
  | nil => exact (List.take_of_length_le bounded).symm
  | cons x xs ih =>
      rw [insertAll, ih _ (insert_length cap x l), insert, List.reverse_cons, List.append_assoc,
        List.singleton_append, List.take_append, List.take_append, List.take_take,
        Nat.min_eq_left (Nat.sub_le cap xs.reverse.length)]

/-- An element survives if fewer elements than there is room for are inserted after it. -/
theorem mem_insertAll_iff (cap : Nat) (x : α) (xs l : List α)
    (bounded : (x :: l).length ≤ cap) (new : x ∉ xs) :
    x ∈ insertAll cap xs (x :: l) ↔ xs.length < cap := by
  rw [insertAll_eq cap xs (x :: l) bounded, List.take_append, List.mem_append, List.length_reverse]
  constructor
  · intro member
    rcases member with early | late
    · exact absurd (List.mem_reverse.mp (List.mem_of_mem_take early)) new
    · by_contra full
      rw [Nat.sub_eq_zero_of_le (Nat.le_of_not_lt full)] at late
      cases late
  · intro fewer
    refine .inr ?_
    obtain ⟨room, more⟩ : ∃ room, cap - xs.length = room + 1 :=
      ⟨cap - xs.length - 1, by omega⟩
    rw [more, List.take_succ_cons]
    exact List.mem_cons_self

section Requests

variable [DecidableEq α]

/-- The most recent elements of a history, the last one first. -/
def recent (cap : Nat) (history : List α) : List α := history.dedup.reverse.take cap

/-- What one more element makes of them. -/
def request (cap : Nat) (x : α) (l : List α) : List α := (x :: l.erase x).take cap

theorem dedup_concat (l : List α) (x : α) : (l ++ [x]).dedup = l.dedup.erase x ++ [x] := by
  induction l with
  | nil => simp
  | cons y l ih =>
      rw [List.cons_append]
      by_cases again : y ∈ l
      · rw [List.dedup_cons_of_mem (List.mem_append_left _ again), ih,
          List.dedup_cons_of_mem again]
      · rw [List.dedup_cons_of_notMem again]
        by_cases same : y = x
        · subst same
          rw [List.dedup_cons_of_mem (by simp), ih, List.erase_cons_head,
            List.erase_of_not_mem (fun old => again (List.mem_dedup.mp old))]
        · rw [List.dedup_cons_of_notMem (by simp [again, same]), ih,
            List.erase_cons_tail (by simpa using same), List.cons_append]

/-- An element that is far back does not matter to those before it. -/
theorem take_erase (x : α) (l : List α) (k : Nat) :
    (l.erase x).take k = ((l.take (k + 1)).erase x).take k := by
  induction l generalizing k with
  | nil => simp
  | cons y l ih =>
      rw [List.take_succ_cons]
      by_cases same : y = x
      · subst same
        simp [List.take_take]
      · rw [List.erase_cons_tail (by simpa using same), List.erase_cons_tail (by simpa using same)]
        cases k with
        | zero => simp
        | succ k => rw [List.take_succ_cons, List.take_succ_cons, ih k]

theorem recent_concat (cap : Nat) (history : List α) (x : α) :
    recent cap (history ++ [x]) = request cap x (recent cap history) := by
  have erased : (history.dedup.erase x).reverse = history.dedup.reverse.erase x := by
    have nodup := List.nodup_dedup history
    rw [nodup.erase_eq_filter, (List.nodup_reverse.mpr nodup).erase_eq_filter, List.filter_reverse]
  rw [recent, recent, request, dedup_concat, List.reverse_append, List.reverse_singleton,
    List.singleton_append, erased]
  cases cap with
  | zero => rfl
  | succ k => rw [List.take_succ_cons, List.take_succ_cons, take_erase]

theorem recent_length (cap : Nat) (history : List α) :
    (recent cap history).length = min cap history.dedup.length := by simp [recent]

/-- Moving an element to the front answers a request for one that is there. -/
theorem touch_request (cap i : Nat) (x : α) (l : List α) (nodup : l.Nodup)
    (bounded : l.length ≤ cap) (inside : i < l.length) (found : l[i] = x) :
    touch i x l = request cap x l := by
  have erased : l.eraseIdx i = l.erase x := by rw [← found, nodup.erase_getElem]
  have length : (x :: l.erase x).length ≤ cap := by
    rw [List.length_cons, ← erased, List.length_eraseIdx_of_lt inside]
    omega
  rw [touch, request, erased, List.take_of_length_le length]

/-- An insertion answers a request for an element that is not there. -/
theorem insert_request (cap : Nat) (x : α) (l : List α) (absent : x ∉ l) :
    insert cap x l = request cap x l := by
  rw [insert, request, List.erase_of_not_mem absent]

end Requests

variable {β : Type} (f : α → β)

theorem map_touch (i : Nat) (x : α) (l : List α) :
    (touch i x l).map f = touch i (f x) (l.map f) := by
  simp [touch, List.eraseIdx_map]

theorem map_insert (cap : Nat) (x : α) (l : List α) :
    (insert cap x l).map f = insert cap (f x) (l.map f) := by
  simp [insert, List.map_take]

end Recent
