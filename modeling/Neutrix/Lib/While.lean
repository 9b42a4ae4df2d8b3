import Mathlib.Logic.Function.Iterate

/-!
# While loops

`loop cond body fuel` runs `while cond do body` and has `fuel` rounds to
spend. `none` says that they were not enough, so a result shows that the
loop ends.

* `loop_total` — a loop with an invariant and a measure that every round
  lowers ends, with the invariant and without the condition;
* `loop_ends_iff` — a loop ends exactly when the condition fails after some
  number of rounds;
* `loop_counter_ends_iff` — the same for a loop whose condition reads a
  counter of the rounds.
-/

namespace Neutrix.Lib

section While

variable {σ : Type*} {cond : σ → Prop} [DecidablePred cond] {body : σ → σ}

def loop (cond : σ → Prop) [DecidablePred cond] (body : σ → σ) : Nat → σ → Option σ
  | 0, s => if cond s then none else some s
  | fuel + 1, s => if cond s then loop cond body fuel (body s) else some s

theorem loop_of_not {s : σ} (h : ¬ cond s) (fuel : Nat) : loop cond body fuel s = some s := by
  cases fuel <;> rw [loop, if_neg h]

theorem loop_succ {s : σ} (h : cond s) (fuel : Nat) :
    loop cond body (fuel + 1) s = loop cond body fuel (body s) := by
  rw [loop, if_pos h]

/-- **Total correctness.** -/
theorem loop_total {P : σ → Prop} (measure : σ → Nat)
    (hKeeps : ∀ s, P s → cond s → P (body s))
    (hLess : ∀ s, P s → cond s → measure (body s) < measure s)
    {fuel : Nat} {s : σ} (hStart : P s) (hFuel : measure s ≤ fuel) :
    ∃ t, loop cond body fuel s = some t ∧ P t ∧ ¬ cond t := by
  induction fuel generalizing s with
  | zero =>
    have hEnd : ¬ cond s := by
      intro hCond
      have hLower := hLess s hStart hCond
      omega
    exact ⟨s, loop_of_not hEnd 0, hStart, hEnd⟩
  | succ fuel ih =>
    by_cases hCond : cond s
    · have hLower := hLess s hStart hCond
      obtain ⟨t, hLoop, hInv, hEnd⟩ := ih (hKeeps s hStart hCond) (by omega)
      exact ⟨t, by rw [loop_succ hCond, hLoop], hInv, hEnd⟩
    · exact ⟨s, loop_of_not hCond _, hStart, hCond⟩

/-- **Ending.** -/
theorem loop_ends_iff {s : σ} :
    (∃ fuel t, loop cond body fuel s = some t) ↔ ∃ k, ¬ cond (body^[k] s) := by
  constructor
  · rintro ⟨fuel, t, hLoop⟩
    induction fuel generalizing s with
    | zero =>
      refine ⟨0, fun hCond : cond s => ?_⟩
      rw [loop, if_pos hCond] at hLoop
      cases hLoop
    | succ fuel ih =>
      by_cases hCond : cond s
      · rw [loop_succ hCond] at hLoop
        obtain ⟨k, hk⟩ := ih hLoop
        exact ⟨k + 1, hk⟩
      · exact ⟨0, hCond⟩
  · rintro ⟨k, hk⟩
    refine ⟨k, ?_⟩
    induction k generalizing s with
    | zero => exact ⟨s, loop_of_not hk 0⟩
    | succ k ih =>
      by_cases hCond : cond s
      · obtain ⟨t, ht⟩ := ih hk
        exact ⟨t, by rw [loop_succ hCond, ht]⟩
      · exact ⟨s, loop_of_not hCond _⟩

/-- A loop that counts its rounds and looks at nothing else in its condition. -/
theorem loop_counter_ends_iff (count : σ → Nat) {more : Nat → Prop}
    (hCond : ∀ s, cond s ↔ more (count s)) (hBody : ∀ s, count (body s) = count s + 1) {s : σ} :
    (∃ fuel t, loop cond body fuel s = some t) ↔ ∃ j, count s ≤ j ∧ ¬ more j := by
  have hAt : ∀ k, count (body^[k] s) = count s + k := by
    intro k
    induction k with
    | zero => rfl
    | succ k ih => rw [Function.iterate_succ_apply', hBody, ih, Nat.add_assoc]
  simp only [loop_ends_iff, hCond, hAt]
  constructor
  · rintro ⟨k, hk⟩
    exact ⟨count s + k, Nat.le_add_right _ _, hk⟩
  · rintro ⟨j, hj, hEnd⟩
    refine ⟨j - count s, ?_⟩
    rwa [Nat.add_sub_cancel' hj]

end While

end Neutrix.Lib
