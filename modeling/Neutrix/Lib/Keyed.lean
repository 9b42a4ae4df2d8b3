import Mathlib.Data.List.Basic

/-!
# Lists of keyed records

A list of records is searched for the first one with a given key, and a fresh
record is appended when there is none. `lookup` and `upsert` say what such a
search finds and what a write back leaves; `locate` is the search by index
that programs do, and the `locate_*` rules reduce it to the two.
-/

namespace Neutrix.Lib

section Keyed

variable {α κ : Type*} [DecidableEq κ] (key : α → κ) (k : κ)

/-- The first record with key `k`, or `fresh`. -/
def lookup (fresh : α) : List α → α
  | [] => fresh
  | x :: xs => if key x = k then x else lookup fresh xs

/-- The list with `v` in place of the first record with key `k`. -/
def upsert (v : α) : List α → List α
  | [] => [v]
  | x :: xs => if key x = k then v :: xs else x :: upsert v xs

/-- Index of the first record with key `k`, with `fresh` appended if there is none. -/
def locate (fresh : α) (xs : List α) : Nat × List α :=
  match xs.findIdx? (fun x => key x = k) with
  | some i => (i, xs)
  | none => (xs.length, xs ++ [fresh])

variable {key k} {fresh v w : α} {xs : List α}

theorem lookup_mem : lookup key k fresh xs = fresh ∨ lookup key k fresh xs ∈ xs := by
  induction xs with
  | nil => exact Or.inl rfl
  | cons x xs ih =>
    rw [lookup]
    split
    · exact Or.inr List.mem_cons_self
    · exact ih.imp_right (List.mem_cons_of_mem x)

theorem key_lookup (hFresh : key fresh = k) : key (lookup key k fresh xs) = k := by
  induction xs with
  | nil => exact hFresh
  | cons x xs ih =>
    rw [lookup]
    split
    · assumption
    · exact ih

theorem lookup_upsert (hKey : key v = k) : lookup key k fresh (upsert key k v xs) = v := by
  induction xs with
  | nil => rw [upsert, lookup, if_pos hKey]
  | cons x xs ih =>
    rw [upsert]
    split
    · rw [lookup, if_pos hKey]
    · rename_i hx
      rw [lookup, if_neg hx, ih]

theorem upsert_upsert (hKey : key v = k) :
    upsert key k w (upsert key k v xs) = upsert key k w xs := by
  induction xs with
  | nil => simp [upsert, hKey]
  | cons x xs ih =>
    by_cases hx : key x = k
    · rw [upsert, if_pos hx, upsert, if_pos hKey, upsert, if_pos hx]
    · rw [upsert, if_neg hx, upsert, if_neg hx, ih, upsert, if_neg hx]

theorem mem_upsert_self : v ∈ upsert key k v xs := by
  induction xs with
  | nil => exact List.mem_singleton_self v
  | cons x xs ih =>
    rw [upsert]
    split
    · exact List.mem_cons_self
    · exact List.mem_cons_of_mem x ih

theorem mem_of_mem_upsert {x : α} (h : x ∈ upsert key k v xs) : x = v ∨ x ∈ xs := by
  induction xs with
  | nil => exact Or.inl (List.mem_singleton.mp h)
  | cons y ys ih =>
    rw [upsert] at h
    split at h
    · rcases List.mem_cons.mp h with rfl | hy
      · exact Or.inl rfl
      · exact Or.inr (List.mem_cons_of_mem y hy)
    · rcases List.mem_cons.mp h with rfl | hy
      · exact Or.inr List.mem_cons_self
      · exact (ih hy).imp_right (List.mem_cons_of_mem y)

-- ---------------------------------------------------------------------------
-- Search by index
-- ---------------------------------------------------------------------------

private theorem locate_of_eq {x : α} (hx : key x = k) :
    locate key k fresh (x :: xs) = (0, x :: xs) := by
  simp [locate, List.findIdx?_cons, hx]

private theorem locate_of_ne {x : α} (hx : key x ≠ k) :
    locate key k fresh (x :: xs) =
      ((locate key k fresh xs).1 + 1, x :: (locate key k fresh xs).2) := by
  simp only [locate, List.findIdx?_cons, decide_eq_true_eq, if_neg hx]
  cases xs.findIdx? (fun x => decide (key x = k)) <;> rfl

variable (key k fresh xs)

theorem locate_get :
    (locate key k fresh xs).2[(locate key k fresh xs).1]? = some (lookup key k fresh xs) := by
  induction xs with
  | nil => rfl
  | cons x xs ih =>
    by_cases hx : key x = k
    · simp [locate_of_eq hx, lookup, hx]
    · simpa [locate_of_ne hx, lookup, hx] using ih

/-- Taking the record out and inserting `v` at its place. -/
theorem locate_replace :
    ((locate key k fresh xs).2.eraseIdx (locate key k fresh xs).1).insertIdx
      (locate key k fresh xs).1 v = upsert key k v xs := by
  induction xs with
  | nil => rfl
  | cons x xs ih =>
    by_cases hx : key x = k
    · simp [locate_of_eq hx, upsert, hx]
    · simpa [locate_of_ne hx, upsert, hx] using ih

theorem locate_modify (f : α → α) :
    (locate key k fresh xs).2.modify (locate key k fresh xs).1 f =
      upsert key k (f (lookup key k fresh xs)) xs := by
  induction xs with
  | nil => rfl
  | cons x xs ih =>
    by_cases hx : key x = k
    · simp [locate_of_eq hx, upsert, lookup, hx]
    · simpa [locate_of_ne hx, upsert, lookup, hx] using ih

end Keyed

end Neutrix.Lib
