import Mathlib.Data.List.Flatten
import Mathlib.Data.List.TakeWhile
import Mathlib.Logic.Function.Basic

/-!
# First come, first served

Ranges of keys are entered into a partial map one after the other, each up
to the first key that is taken already. Later all keys of all ranges are
erased. `erase_fillAll_iff` says when that leaves no trace and everything
was entered in between: no key was taken to begin with, and the ranges
together are covered by their own leading parts.
-/

namespace Neutrix.Lib

variable {κ ν : Type*} [DecidableEq κ]

/-- Enter `value k` for the keys `k` of the list, up to the first key that is
taken. -/
def fill (value : κ → ν) : List κ → (κ → Option ν) → κ → Option ν
  | [], M => M
  | k :: ks, M =>
    match M k with
    | some _ => M
    | none => fill value ks (Function.update M k (some (value k)))

def fillAll (value : κ → ν) (ranges : List (List κ)) (M : κ → Option ν) : κ → Option ν :=
  ranges.foldl (fun M ks => fill value ks M) M

def eraseAll (ks : List κ) (M : κ → Option ν) : κ → Option ν :=
  ks.foldl (fun M k => Function.update M k none) M

/-- The keys that the ranges claim in an empty map: of each range the part before
its first key claimed by an earlier range. -/
def covered (ranges : List (List κ)) : List κ :=
  ranges.foldl (fun done ks => done ++ ks.takeWhile fun k => k ∉ done) []

-- ---------------------------------------------------------------------------
-- One range
-- ---------------------------------------------------------------------------

omit [DecidableEq κ] in
theorem takeWhile_congr_mem {p q : κ → Bool} {ks : List κ} (h : ∀ k ∈ ks, p k = q k) :
    ks.takeWhile p = ks.takeWhile q := by
  induction ks with
  | nil => rfl
  | cons k ks ih =>
    rw [List.takeWhile_cons, List.takeWhile_cons, h k (List.mem_cons_self ..),
      ih fun k' hk' => h k' (List.mem_cons_of_mem _ hk')]

theorem fill_of_notMem {value : κ → ν} {ks : List κ} {M : κ → Option ν} {k : κ} (h : k ∉ ks) :
    fill value ks M k = M k := by
  induction ks generalizing M with
  | nil => rfl
  | cons k' ks ih =>
    rw [List.mem_cons, not_or] at h
    rw [fill]
    cases M k' with
    | some v => rfl
    | none => exact (ih h.2).trans (Function.update_of_ne h.1 ..)

theorem fill_apply (value : κ → ν) {ks : List κ} (hNodup : ks.Nodup) (M : κ → Option ν) (k : κ) :
    fill value ks M k =
      if k ∈ ks.takeWhile (fun k => (M k).isNone) then some (value k) else M k := by
  induction ks generalizing M with
  | nil => rfl
  | cons k' ks ih =>
    obtain ⟨hHead, hTail⟩ := List.nodup_cons.mp hNodup
    rw [fill, List.takeWhile_cons]
    cases hM : M k' with
    | some v => simp
    | none =>
      -- the keys that follow are not affected by the first one
      have hSame : ks.takeWhile (fun k => (Function.update M k' (some (value k')) k).isNone) =
          ks.takeWhile (fun k => (M k).isNone) := by
        refine takeWhile_congr_mem fun k hk => ?_
        have hNe : k ≠ k' := fun hEq => hHead (hEq ▸ hk)
        rw [Function.update_of_ne hNe]
      simp only [ih hTail, hSame, Option.isNone_none, if_true, List.mem_cons]
      by_cases hk : k = k'
      · subst hk
        simp
      · rw [Function.update_of_ne hk]
        simp [hk]

-- ---------------------------------------------------------------------------
-- All ranges
-- ---------------------------------------------------------------------------

theorem fillAll_of_notMem {value : κ → ν} {ranges : List (List κ)} {M : κ → Option ν} {k : κ}
    (h : k ∉ ranges.flatten) : fillAll value ranges M k = M k := by
  induction ranges generalizing M with
  | nil => rfl
  | cons ks ranges ih =>
    rw [List.flatten_cons, List.mem_append, not_or] at h
    exact (ih h.2).trans (fill_of_notMem h.1)

/-- In a map where the ranges are free they claim what they cover. -/
theorem fillAll_apply (value : κ → ν) {ranges : List (List κ)} (hNodup : ∀ ks ∈ ranges, ks.Nodup)
    {M : κ → Option ν} (hFree : ∀ k ∈ ranges.flatten, M k = none) (k : κ) :
    fillAll value ranges M k = if k ∈ covered ranges then some (value k) else M k := by
  -- the induction carries the keys claimed so far
  suffices hRun : ∀ (done : List κ) (M' : κ → Option ν),
      (∀ k, M' k = if k ∈ done then some (value k) else M k) →
      fillAll value ranges M' k =
        if k ∈ ranges.foldl (fun done ks => done ++ ks.takeWhile fun k => k ∉ done) done
        then some (value k) else M k by
    exact hRun [] M fun k => by simp
  induction ranges with
  | nil => exact fun done M' hM' => hM' k
  | cons ks ranges ih =>
    intro done M' hM'
    rw [List.flatten_cons] at hFree
    refine ih (fun ks' h => hNodup ks' (List.mem_cons_of_mem _ h))
      (fun k h => hFree k (List.mem_append_right _ h)) _ _ fun k' => ?_
    have hFreeHead : ks.takeWhile (fun k => (M' k).isNone) =
        ks.takeWhile (fun k => decide (k ∉ done)) := by
      refine takeWhile_congr_mem fun k hk => ?_
      rw [hM' k, hFree k (List.mem_append_left _ hk)]
      by_cases hDone : k ∈ done <;> simp [hDone]
    show fill value ks M' k' =
      if k' ∈ done ++ ks.takeWhile (fun k => decide (k ∉ done)) then some (value k') else M k'
    rw [fill_apply value (hNodup ks (List.mem_cons_self ..)), hFreeHead, hM' k']
    generalize ks.takeWhile (fun k => decide (k ∉ done)) = new
    by_cases hNew : k' ∈ new <;> by_cases hDone : k' ∈ done <;> simp [hNew, hDone]

theorem eraseAll_apply (ks : List κ) (M : κ → Option ν) (k : κ) :
    eraseAll ks M k = if k ∈ ks then none else M k := by
  induction ks generalizing M with
  | nil => rfl
  | cons k' ks ih =>
    rw [eraseAll, List.foldl_cons, ← eraseAll, ih]
    by_cases hk : k = k'
    · subst hk
      simp
    · simp [hk]

/-- Erasing gives the old map back exactly if the ranges were free. -/
theorem erase_fillAll {value : κ → ν} {ranges : List (List κ)} {M : κ → Option ν} :
    eraseAll ranges.flatten (fillAll value ranges M) = M ↔ ∀ k ∈ ranges.flatten, M k = none := by
  constructor
  · intro h k hk
    rw [← h, eraseAll_apply, if_pos hk]
  · intro hFree
    funext k
    rw [eraseAll_apply]
    split_ifs with hk
    · exact (hFree k hk).symm
    · exact fillAll_of_notMem hk

/-- **First come, first served.** -/
theorem erase_fillAll_iff (value : κ → ν) {ranges : List (List κ)}
    (hNodup : ∀ ks ∈ ranges, ks.Nodup) {M : κ → Option ν} :
    (eraseAll ranges.flatten (fillAll value ranges M) = M ∧
        ∀ k ∈ ranges.flatten, fillAll value ranges M k = some (value k)) ↔
      ∀ k ∈ ranges.flatten, M k = none ∧ k ∈ covered ranges := by
  rw [erase_fillAll]
  constructor
  · rintro ⟨hFree, hFilled⟩ k hk
    refine ⟨hFree k hk, ?_⟩
    by_contra hNot
    have hNone := fillAll_apply value hNodup hFree k
    rw [if_neg hNot, hFree k hk, hFilled k hk] at hNone
    cases hNone
  · intro h
    refine ⟨fun k hk => (h k hk).1, fun k hk => ?_⟩
    rw [fillAll_apply value hNodup (fun k hk => (h k hk).1), if_pos (h k hk).2]

end Neutrix.Lib
