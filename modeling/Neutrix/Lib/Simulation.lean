import Neutrix.Lib.Run

/-!
# Forward simulation between two systems

A step of the concrete system either carries out one action of the abstract
system or none: `commit s a` says which. `committed` lists the actions of a
run, in the order in which the concrete steps that carry them out are taken.
A relation between the states that every step keeps (`Simulation`) is kept
by every run, and the committed actions are then a run of the abstract system
(`Simulation.run`).
-/

namespace Neutrix.Lib

variable {σ τ α β : Type*}

/-- The abstract actions a run carries out, in order. -/
def committed (step : σ → α → Option σ) (commit : σ → α → Option β) : σ → List α → List β
  | _, [] => []
  | s, a :: as =>
    match step s a with
    | some s' => (commit s a).toList ++ committed step commit s' as
    | none => []

theorem committed_cons {step : σ → α → Option σ} {commit : σ → α → Option β} {s s' : σ} {a : α}
    (h : step s a = some s') (as : List α) :
    committed step commit s (a :: as) = (commit s a).toList ++ committed step commit s' as := by
  rw [committed, h]

/-- Every concrete step from a related state keeps the relation, together with the
abstract step it commits, if it commits one. -/
structure Simulation (step : σ → α → Option σ) (astep : τ → β → Option τ)
    (commit : σ → α → Option β) (R : σ → τ → Prop) : Prop where
  stutters : ∀ {s s' t a}, R s t → step s a = some s' → commit s a = none → R s' t
  commits  : ∀ {s s' t a b}, R s t → step s a = some s' → commit s a = some b →
    ∃ t', astep t b = some t' ∧ R s' t'

/-- **Simulation rule.** The committed actions of a run are a run of the abstract
system, to a related state. -/
theorem Simulation.run {step : σ → α → Option σ} {astep : τ → β → Option τ}
    {commit : σ → α → Option β} {R : σ → τ → Prop} (hSim : Simulation step astep commit R)
    {s s' : σ} {t : τ} {as : List α} (hR : R s t) (h : run step s as = some s') :
    ∃ t', Lib.run astep t (committed step commit s as) = some t' ∧ R s' t' := by
  induction as generalizing s t with
  | nil =>
    rw [run_nil, Option.some.injEq] at h
    exact ⟨t, rfl, h ▸ hR⟩
  | cons a as ih =>
    obtain ⟨u, hu, hRest⟩ := (run_cons step).mp h
    rw [committed_cons hu]
    cases hc : commit s a with
    | none => exact ih (hSim.stutters hR hu hc) hRest
    | some b =>
      obtain ⟨v, hv, hRel⟩ := hSim.commits hR hu hc
      obtain ⟨t', ht', hEnd⟩ := ih hRel hRest
      exact ⟨t', (run_cons astep).mpr ⟨v, hv, ht'⟩, hEnd⟩

end Neutrix.Lib
