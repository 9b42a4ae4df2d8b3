import Mathlib.Data.List.Basic

/-!
# Filtered lists, element by element

A list from which some elements are dropped does not say which. If two
functions keep the same elements the results can be compared element by
element, and if one keeps more its result is longer.
-/

namespace Neutrix.Lib

/-- Two filters that keep the same elements give the same list only if they give the
same for each element. -/
theorem filterMap_eq_iff {α β : Type} {f g : α → Option β} {xs : List α}
    (h : ∀ x ∈ xs, (f x).isSome = (g x).isSome) :
    xs.filterMap f = xs.filterMap g ↔ ∀ x ∈ xs, f x = g x := by
  refine ⟨fun hEq => ?_, List.filterMap_congr⟩
  induction xs with
  | nil => simp
  | cons x xs ih =>
    have hKept := h x List.mem_cons_self
    have hRest : ∀ y ∈ xs, (f y).isSome = (g y).isSome :=
      fun y hy => h y (List.mem_cons_of_mem x hy)
    cases hf : f x with
    | none =>
      have hg : g x = none := by
        rwa [hf, Option.isSome_none, Eq.comm, Option.isSome_eq_false_iff, Option.isNone_iff_eq_none]
          at hKept
      rw [List.filterMap_cons_none hf, List.filterMap_cons_none hg] at hEq
      exact List.forall_mem_cons.mpr ⟨hf.trans hg.symm, ih hRest hEq⟩
    | some b =>
      obtain ⟨c, hg⟩ := Option.isSome_iff_exists.mp (hKept.symm.trans (by rw [hf]; rfl))
      rw [List.filterMap_cons_some hf, List.filterMap_cons_some hg, List.cons.injEq] at hEq
      exact List.forall_mem_cons.mpr ⟨by rw [hf, hg, hEq.1], ih hRest hEq.2⟩

/-- A filter that keeps more gives a longer list. -/
theorem length_filterMap_lt {α β : Type} {f g : α → Option β} {xs : List α}
    (h : ∀ y ∈ xs, (f y).isSome → (g y).isSome) {x : α} (hx : x ∈ xs) (hf : f x = none)
    (hg : (g x).isSome) : (xs.filterMap f).length < (xs.filterMap g).length := by
  obtain ⟨before, after, rfl⟩ := List.append_of_mem hx
  have hMore : ∀ ys : List α, (∀ y ∈ ys, y ∈ before ++ x :: after) →
      (ys.filterMap f).length ≤ (ys.filterMap g).length := by
    intro ys hys
    rw [List.length_filterMap_eq_countP, List.length_filterMap_eq_countP]
    exact List.countP_mono_left fun y hy => h y (hys y hy)
  have hBefore := hMore before fun y hy => List.mem_append_left _ hy
  have hAfter := hMore after fun y hy =>
    List.mem_append_right _ (List.mem_cons_of_mem x hy)
  obtain ⟨b, hg⟩ := Option.isSome_iff_exists.mp hg
  rw [List.filterMap_append, List.filterMap_append, List.filterMap_cons_none hf,
    List.filterMap_cons_some hg, List.length_append, List.length_append, List.length_cons]
  omega

end Neutrix.Lib
