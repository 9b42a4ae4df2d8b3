import Mathlib.Data.Finset.Card
import Mathlib.Data.Finset.Dedup

/-!
# Resource pools

An allocator of interchangeable resources is, from the outside, a finite
set of free resources: a call either takes some member out of the set or
fails, and it fails only when the set is empty. Which member it takes is
the implementation's business. `Pool` states this contract for an
arbitrary implementation; `allocMany_exhausts` counts: as many successive
calls succeed as there are free resources, they return exactly these, and
the next call fails.
-/

namespace Neutrix.Lib

/-- The results of `n` successive calls, and the state after them. -/
def allocMany {S F : Type*} (alloc : S → Option F × S) : Nat → S → List (Option F) × S
  | 0, s => ([], s)
  | n + 1, s =>
    let (results, s') := allocMany alloc n (alloc s).2
    ((alloc s).1 :: results, s')

/-- An implementation `alloc` over states `S` of a pool of resources `F`,
with the set of free resources of each state that satisfies `Inv`. -/
structure Pool (S F : Type*) [DecidableEq F] where
  Inv   : S → Prop
  free  : S → Finset F
  alloc : S → Option F × S
  alloc_none : ∀ s, Inv s → ((alloc s).1 = none ↔ free s = ∅)
  alloc_some : ∀ s f, Inv s → (alloc s).1 = some f →
    f ∈ free s ∧ free (alloc s).2 = (free s).erase f ∧ Inv (alloc s).2

namespace Pool

variable {S F : Type*} [DecidableEq F] (P : Pool S F)

/-- A call on a pool with a free resource succeeds. -/
theorem exists_alloc_some {s : S} (hInv : P.Inv s) (h : (P.free s).Nonempty) :
    ∃ f, (P.alloc s).1 = some f := by
  cases hr : (P.alloc s).1 with
  | none =>
    rw [(P.alloc_none s hInv).mp hr] at h
    exact absurd h Finset.not_nonempty_empty
  | some f => exact ⟨f, rfl⟩

/-- **Exhaustion.** With `k` free resources the next `k` calls succeed and
return exactly the free ones, each once; the call after them fails. -/
theorem allocMany_exhausts {k : Nat} {s : S} (hInv : P.Inv s) (hk : (P.free s).card = k) :
    ∃ fs : List F, (allocMany P.alloc k s).1 = fs.map some ∧ fs.Nodup ∧
      fs.toFinset = P.free s ∧ (P.alloc (allocMany P.alloc k s).2).1 = none := by
  induction k generalizing s with
  | zero =>
    have hEmpty : P.free s = ∅ := Finset.card_eq_zero.mp hk
    exact ⟨[], rfl, List.nodup_nil, hEmpty.symm, (P.alloc_none s hInv).mpr hEmpty⟩
  | succ k ih =>
    have hNonempty : (P.free s).Nonempty := Finset.card_pos.mp (by omega)
    obtain ⟨f, hf⟩ := P.exists_alloc_some hInv hNonempty
    obtain ⟨hMem, hFree, hInv'⟩ := P.alloc_some s f hInv hf
    -- the rest of the pool is drained by the remaining `k` calls
    have hCard : (P.free (P.alloc s).2).card = k := by
      rw [hFree, Finset.card_erase_of_mem hMem]
      omega
    obtain ⟨fs, hMap, hNodup, hSet, hNone⟩ := ih hInv' hCard
    have hNotMem : f ∉ fs := by
      intro hIn
      have : f ∈ fs.toFinset := List.mem_toFinset.mpr hIn
      rw [hSet, hFree] at this
      exact Finset.notMem_erase f _ this
    refine ⟨f :: fs, ?_, List.nodup_cons.mpr ⟨hNotMem, hNodup⟩, ?_, hNone⟩
    · simp [allocMany, hf, hMap]
    · rw [List.toFinset_cons, hSet, hFree, Finset.insert_erase hMem]

end Pool

end Neutrix.Lib
