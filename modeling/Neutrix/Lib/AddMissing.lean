import Mathlib.Data.List.Nodup

/-!
# Adding what is missing

Items are added to the end of a list, one after the other, each only if its
key is not in the list yet; the list that is searched grows on the way.
`completed_foldl` says what comes out, and `foldl_addMissing_fixed` that a
list that has all the keys stays as it is.
-/

namespace Neutrix.Lib

variable {α κ : Type*} [DecidableEq κ] {key : α → κ}

def addMissing (key : α → κ) (xs : List α) (x : α) : List α :=
  if key x ∈ xs.map key then xs else xs ++ [x]

/-- `new` is `old` and an added part of `given`: every key of `given` is there, and
what was added has keys that are new and different from each other. -/
def Completed (key : α → κ) (old given new : List α) : Prop :=
  ∃ added, new = old ++ added ∧ (∀ x ∈ added, x ∈ given) ∧
    (∀ x ∈ added, key x ∉ old.map key) ∧ (added.map key).Nodup ∧
    ∀ y ∈ given, key y ∈ new.map key

theorem addMissing_of_mem {xs : List α} {x : α} (h : key x ∈ xs.map key) :
    addMissing key xs x = xs := by
  rw [addMissing, if_pos h]

theorem addMissing_of_notMem {xs : List α} {x : α} (h : key x ∉ xs.map key) :
    addMissing key xs x = xs ++ [x] := by
  rw [addMissing, if_neg h]

theorem completed_foldl (key : α → κ) (old given : List α) :
    Completed key old given (given.foldl (addMissing key) old) := by
  induction given generalizing old with
  | nil => exact ⟨[], (List.append_nil _).symm, by simp, by simp, List.nodup_nil, by simp⟩
  | cons y given ih =>
    rw [List.foldl_cons]
    by_cases hKey : key y ∈ old.map key
    · rw [addMissing_of_mem hKey]
      obtain ⟨added, hNew, hFrom, hFresh, hNodup, hAll⟩ := ih old
      refine ⟨added, hNew, fun x hx => List.mem_cons_of_mem y (hFrom x hx), hFresh, hNodup, ?_⟩
      intro z hz
      rcases List.mem_cons.mp hz with rfl | hRest
      · rw [hNew, List.map_append]
        exact List.mem_append_left _ hKey
      · exact hAll z hRest
    · rw [addMissing_of_notMem hKey]
      obtain ⟨added, hNew, hFrom, hFresh, hNodup, hAll⟩ := ih (old ++ [y])
      rw [List.append_assoc, List.singleton_append] at hNew
      -- what follows has keys apart from the old ones and from `y`
      have hApart : ∀ x ∈ added, key x ∉ old.map key ∧ key x ≠ key y := by
        intro x hx
        have hNot := hFresh x hx
        rw [List.map_append, List.mem_append, not_or] at hNot
        exact ⟨hNot.1, fun hEq => hNot.2 (by simp [hEq])⟩
      refine ⟨y :: added, hNew, ?_, ?_, ?_, ?_⟩
      · intro x hx
        rcases List.mem_cons.mp hx with rfl | hIn
        · exact List.mem_cons_self
        · exact List.mem_cons_of_mem y (hFrom x hIn)
      · intro x hx
        rcases List.mem_cons.mp hx with rfl | hIn
        · exact hKey
        · exact (hApart x hIn).1
      · rw [List.map_cons, List.nodup_cons]
        refine ⟨fun hIn => ?_, hNodup⟩
        obtain ⟨x, hx, hEq⟩ := List.mem_map.mp hIn
        exact (hApart x hx).2 hEq
      · intro z hz
        rcases List.mem_cons.mp hz with rfl | hRest
        · rw [hNew]
          exact List.mem_map_of_mem (List.mem_append_right _ List.mem_cons_self)
        · exact hAll z hRest

theorem foldl_addMissing_fixed {xs ys : List α} (h : ∀ y ∈ ys, key y ∈ xs.map key) :
    ys.foldl (addMissing key) xs = xs := by
  induction ys with
  | nil => rfl
  | cons y ys ih =>
    rw [List.foldl_cons, addMissing_of_mem (h y List.mem_cons_self)]
    exact ih fun z hz => h z (List.mem_cons_of_mem y hz)

end Neutrix.Lib
