import Mathlib.Tactic.Common

/-!
# Painting

A painter gives the points of an area one colour and leaves the others
alone. Painters that follow each other, all with the same colour, paint the
union of their areas.
-/

namespace Neutrix.Lib

variable {M P C ι : Type*} {view : M → P → C} {c : C}

/-- `f` paints `area` in colour `c`. -/
def Paints (view : M → P → C) (area : P → Prop) (c : C) (f : M → M) : Prop :=
  ∀ m p, (area p → view (f m) p = c) ∧ (¬ area p → view (f m) p = view m p)

namespace Paints

theorem congr {area area' : P → Prop} {f : M → M} (h : Paints view area c f)
    (hArea : ∀ p, area p ↔ area' p) : Paints view area' c f :=
  fun m p => ⟨fun hp => (h m p).1 ((hArea p).mpr hp), fun hp => (h m p).2 fun h' => hp ((hArea p).mp h')⟩

theorem nothing {area : P → Prop} (hArea : ∀ p, ¬ area p) : Paints view area c fun m => m :=
  fun _ p => ⟨fun hp => absurd hp (hArea p), fun _ => rfl⟩

/-- One painter after the other. -/
theorem foldl {step : M → ι → M} {area : ι → P → Prop} {is : List ι}
    (h : ∀ i ∈ is, Paints view (area i) c fun m => step m i) :
    Paints view (fun p => ∃ i ∈ is, area i p) c fun m => is.foldl step m := by
  induction is with
  | nil => exact nothing (by simp)
  | cons i is ih =>
    intro m p
    have hHead := h i (List.mem_cons_self ..) m p
    have hTail := ih (fun j hj => h j (List.mem_cons_of_mem _ hj)) (step m i) p
    constructor
    · rintro ⟨j, hj, hp⟩
      by_cases hLater : ∃ k ∈ is, area k p
      · exact hTail.1 hLater
      · -- the first painter was the last to touch the point
        rcases List.mem_cons.mp hj with rfl | hj
        · exact (hTail.2 hLater).trans (hHead.1 hp)
        · exact absurd ⟨j, hj, hp⟩ hLater
    · intro hp
      have hNot : ¬ ∃ k ∈ is, area k p := fun ⟨k, hk, hp'⟩ => hp ⟨k, List.mem_cons_of_mem _ hk, hp'⟩
      exact (hTail.2 hNot).trans (hHead.2 fun hp' => hp ⟨i, List.mem_cons_self .., hp'⟩)

end Paints

end Neutrix.Lib
