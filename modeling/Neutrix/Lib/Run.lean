import Mathlib.Data.List.Induction

/-!
# Runs of a partial step function

A system is a function `step : σ → α → Option σ`: the label says which
action is taken, `none` says the action is not enabled in that state. A
`run` takes a list of labels. A run splits at any point (`run_append`), so a
fact about the state after each prefix is a fact about every state the run
visits. Three rules carry facts along runs:

* `run_invariant` — what every enabled step preserves holds at the end of
  every run;
* `run_prefixes_iff` — when a step from a state that satisfies the invariant
  is good exactly under a condition on the state before it, all steps of a
  run are good exactly when all of them meet the condition;
* `prefixes_iff` — the same for a property of the labels taken so far.

`LoopRuns` is the run of a loop with a condition: it counts the rounds and
ends where the condition fails, so that a run shows that the loop stops.
-/

namespace Neutrix.Lib

section Run

variable {σ α : Type*} (step : σ → α → Option σ)

/-- Take the labels in order; `none` as soon as one is not enabled. -/
def run : σ → List α → Option σ
  | s, [] => some s
  | s, a :: as =>
    match step s a with
    | some s' => run s' as
    | none => none

@[simp] theorem run_nil (s : σ) : run step s [] = some s := rfl

theorem run_cons_eq (s : σ) (a : α) (as : List α) :
    run step s (a :: as) = (step s a).bind fun s' => run step s' as := by
  rw [run]
  cases step s a <;> rfl

theorem run_singleton (s : σ) (a : α) : run step s [a] = step s a := by
  rw [run_cons_eq]
  cases step s a <;> rfl

theorem run_append_eq (s : σ) (as bs : List α) :
    run step s (as ++ bs) = (run step s as).bind fun u => run step u bs := by
  induction as generalizing s with
  | nil => rfl
  | cons a as ih =>
    rw [List.cons_append, run_cons_eq, run_cons_eq, Option.bind_assoc]
    congr 1
    funext s'
    exact ih s'

theorem run_cons {s : σ} {a : α} {as : List α} {t : σ} :
    run step s (a :: as) = some t ↔
      ∃ s', step s a = some s' ∧ run step s' as = some t := by
  rw [run_cons_eq, Option.bind_eq_some_iff]

theorem run_append {s t : σ} {as bs : List α} :
    run step s (as ++ bs) = some t ↔
      ∃ u, run step s as = some u ∧ run step u bs = some t := by
  rw [run_append_eq, Option.bind_eq_some_iff]

/-- One more label. -/
theorem run_snoc {s t : σ} {as : List α} (h : run step s as = some t) (a : α) :
    run step s (as ++ [a]) = step t a := by
  rw [run_append_eq, h, Option.bind_some, run_singleton]

/-- **Invariant rule.** A predicate that every enabled step preserves holds
at the end of every run from a state where it holds. -/
theorem run_invariant {P : σ → Prop}
    (hStep : ∀ s a s', P s → step s a = some s' → P s')
    {s t : σ} {as : List α} (hInit : P s) (h : run step s as = some t) :
    P t := by
  induction as generalizing s with
  | nil =>
    rw [run_nil, Option.some.injEq] at h
    exact h ▸ hInit
  | cons a as ih =>
    obtain ⟨s', hs', hrest⟩ := (run_cons step).mp h
    exact ih (hStep s a s' hInit hs') hrest

/-- **Prefix rule.** From a state with the invariant, a step is good iff it
meets the condition, and then keeps the invariant; a step that does not meet
it is enabled. -/
theorem run_prefixes_iff {Inv Good : σ → Prop} {Cond : σ → α → Prop} {s : σ} {as : List α}
    (hInit : Inv s)
    (hGood : ∀ s, Inv s → ∀ a ∈ as, ∀ t, step s a = some t → (Good t ↔ Cond s a))
    (hNext : ∀ s, Inv s → ∀ a ∈ as, ∀ t, step s a = some t → Cond s a → Inv t)
    (hEnabled : ∀ s, Inv s → ∀ a, ¬ Cond s a → ∃ t, step s a = some t) :
    (∀ before a t, before ++ [a] <+: as → run step s (before ++ [a]) = some t → Good t) ↔
      ∀ before a t, before ++ [a] <+: as → run step s before = some t → Cond t a := by
  have hMem : ∀ {before a}, before ++ [a] <+: as → a ∈ as := fun hPre => hPre.subset (by simp)
  have hLast : ∀ {before a t}, run step s (before ++ [a]) = some t ↔
      ∃ u, run step s before = some u ∧ step u a = some t := by
    intro before a t
    simp only [run_append, run_singleton]
  -- the invariant holds along the prefixes as long as the condition does
  have hAlong : (∀ before a t, before ++ [a] <+: as → run step s before = some t → Inv t →
      (∃ u, step t a = some u) → Cond t a) →
      ∀ before t, before <+: as → run step s before = some t → Inv t := by
    intro hCond before
    induction before using List.reverseRecOn with
    | nil =>
      intro t _ hRun
      cases hRun
      exact hInit
    | append_singleton before a ih =>
      intro t hPre hRun
      obtain ⟨u, hu, hStep⟩ := hLast.mp hRun
      have hInv := ih u ((List.prefix_append _ _).trans hPre) hu
      exact hNext u hInv a (hMem hPre) t hStep (hCond before a u hPre hu hInv ⟨t, hStep⟩)
  constructor
  · intro hAll before a t hPre hRun
    have hInv := hAlong (fun b a' u hb hu hInv ⟨v, hv⟩ =>
      (hGood u hInv a' (hMem hb) v hv).mp (hAll b a' v hb (hLast.mpr ⟨u, hu, hv⟩)))
      before t ((List.prefix_append _ _).trans hPre) hRun
    by_contra hNot
    obtain ⟨u, hu⟩ := hEnabled t hInv a hNot
    exact hNot ((hGood t hInv a (hMem hPre) u hu).mp (hAll before a u hPre (hLast.mpr ⟨t, hRun, hu⟩)))
  · intro hAll before a t hPre hRun
    obtain ⟨u, hu, hStep⟩ := hLast.mp hRun
    have hInv := hAlong (fun b a' v hb hv _ _ => hAll b a' v hb hv) before u
      ((List.prefix_append _ _).trans hPre) hu
    exact (hGood u hInv a (hMem hPre) t hStep).mpr (hAll before a u hPre hu)

/-- **Prefix rule, by the labels.** When a property of the labels taken so far
is kept by the next label exactly under a condition, all prefixes have it
exactly when every label meets the condition. -/
theorem prefixes_iff {P : List α → Prop} {Q : List α → α → Prop} {as : List α} (hNil : P [])
    (hStep : ∀ before a, before ++ [a] <+: as → P before → (P (before ++ [a]) ↔ Q before a)) :
    (∀ before, before <+: as → P before) ↔ ∀ before a, before ++ [a] <+: as → Q before a := by
  constructor
  · intro hAll before a hPre
    have hBefore := hAll before ((List.prefix_append _ _).trans hPre)
    exact (hStep before a hPre hBefore).mp (hAll (before ++ [a]) hPre)
  · intro hAll before
    induction before using List.reverseRecOn with
    | nil => exact fun _ => hNil
    | append_singleton before a ih =>
      intro hPre
      have hBefore := ih ((List.prefix_append _ _).trans hPre)
      exact (hStep before a hPre hBefore).mpr (hAll before a hPre)

/-- A monadic fold in `Option` is a run. -/
theorem foldlM_eq_run (s : σ) (as : List α) : as.foldlM step s = run step s as := by
  induction as generalizing s with
  | nil => rfl
  | cons a as ih =>
    rw [List.foldlM_cons, run_cons_eq]
    exact congrArg _ (funext ih)

/-- A monadic fold that is the fold `f` of total steps as long as `P` holds. -/
theorem foldlM_eq_some {P : σ → Prop} {f : σ → α → σ} {s : σ} {as : List α} (hStart : P s)
    (hStep : ∀ s, P s → ∀ a ∈ as, step s a = some (f s a) ∧ P (f s a)) :
    as.foldlM step s = some (as.foldl f s) := by
  induction as generalizing s with
  | nil => rfl
  | cons a as ih =>
    obtain ⟨hSome, hNext⟩ := hStep s hStart a List.mem_cons_self
    rw [List.foldlM_cons, hSome, List.foldl_cons]
    exact ih hNext fun t ht b hb => hStep t ht b (List.mem_cons_of_mem a hb)

end Run

/-- `while cond do body` gets from `s` to `t` in `n` rounds and ends there. -/
inductive LoopRuns {σ : Type*} (cond : σ → Prop) (body : σ → σ) : Nat → σ → σ → Prop
  | done {s : σ} : ¬ cond s → LoopRuns cond body 0 s s
  | round {n : Nat} {s t : σ} : cond s → LoopRuns cond body n (body s) t →
      LoopRuns cond body (n + 1) s t

/-- A run of steps that are always enabled. -/
theorem run_total {σ α : Type*} (f : σ → α → σ) (s : σ) (as : List α) :
    run (fun s a => some (f s a)) s as = some (as.foldl f s) := by
  induction as generalizing s with
  | nil => rfl
  | cons a as ih => exact ih (f s a)

end Neutrix.Lib
