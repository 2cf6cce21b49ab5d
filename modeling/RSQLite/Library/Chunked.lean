import Mathlib.Data.List.Basic

/-!
Taking a finite list in pieces. A request is a number of elements, and a negative
one asks for everything that is left.
-/
namespace Chunked

variable {α : Type}

/-- How many of `remaining` elements the request takes. -/
def amount (request : Int) (remaining : Nat) : Nat :=
  if request < 0 then remaining else min request.toNat remaining

def piece (request : Int) (xs : List α) : List α := xs.take (amount request xs.length)

def rest (request : Int) (xs : List α) : List α := xs.drop (amount request xs.length)

def pieces : List Int → List α → List (List α)
  | [], _ => []
  | request :: requests, xs => piece request xs :: pieces requests (rest request xs)

def restAll (requests : List Int) (xs : List α) : List α :=
  requests.foldl (fun xs request => rest request xs) xs

theorem amount_le (request : Int) (remaining : Nat) : amount request remaining ≤ remaining := by
  simp only [amount]
  split <;> omega

@[simp] theorem amount_zero (remaining : Nat) : amount 0 remaining = 0 := by
  simp [amount]

theorem amount_of_none (request : Int) : amount request 0 = 0 :=
  Nat.le_zero.mp (amount_le request 0)

@[simp] theorem piece_length (request : Int) (xs : List α) :
    (piece request xs).length = amount request xs.length := by
  have bound := amount_le request xs.length
  simp only [piece, List.length_take]
  omega

theorem piece_append_rest (request : Int) (xs : List α) :
    piece request xs ++ rest request xs = xs := List.take_append_drop _ _

theorem piece_none (request : Int) (xs : List α) (none : amount request xs.length = 0) :
    piece request xs = [] := by
  rw [piece, none, List.take_zero]

theorem rest_length_le (request : Int) (xs : List α) : (rest request xs).length ≤ xs.length := by
  rw [rest, List.length_drop]
  exact Nat.sub_le _ _

theorem rest_none (request : Int) (xs : List α) (none : amount request xs.length = 0) :
    rest request xs = xs := by
  rw [rest, none, List.drop_zero]

theorem amount_cons_negative (request : Int) (n : Nat) (h : request < 0) :
    amount request (n + 1) = amount request n + 1 := by
  simp [amount, h]

theorem amount_cons_positive (request : Int) (n : Nat) (h : 0 < request) :
    amount request (n + 1) = amount (request - 1) n + 1 := by
  have nonneg : ¬ request < 0 := by omega
  have less : ¬ request - 1 < 0 := by omega
  simp only [amount, nonneg, less, ite_false]
  omega

/-- A request that is not empty starts with the first element. -/
theorem piece_cons (request next : Int) (x : α) (xs : List α)
    (h : amount request (xs.length + 1) = amount next xs.length + 1) :
    piece request (x :: xs) = x :: piece next xs ∧ rest request (x :: xs) = rest next xs := by
  simp only [piece, rest, List.length_cons, h, List.take_succ_cons, List.drop_succ_cons, and_self]

theorem pieces_flatten (requests : List Int) (xs : List α) :
    (pieces requests xs).flatten ++ restAll requests xs = xs := by
  induction requests generalizing xs with
  | nil => rfl
  | cons request requests ih =>
      rw [pieces, List.flatten_cons, restAll, List.foldl_cons, List.append_assoc]
      change piece request xs ++ ((pieces requests _).flatten ++ restAll requests _) = xs
      rw [ih, piece_append_rest]

end Chunked
