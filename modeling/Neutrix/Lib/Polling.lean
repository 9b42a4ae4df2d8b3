import Mathlib.Tactic.Common

/-!
# Polling a device

A device is a state behind a bus: a read gives a word and may move the
device on, a write moves it on. A driver that waits for a device polls a
register a limited number of times.

* `poll_eq_of_measure` — when every read that does not end the poll brings
  the device closer to the state where it ends, the poll ends there, if it
  is long enough;
* `poll_of_stuck` — a device that reads do not change keeps the poll waiting
  to the limit;
* `poll_counter_le`, `poll_counter_end_iff` — when the reads are counted, a
  poll makes no more of them than it may, and ends behind the first that is
  `ok` or at the limit.
-/

namespace Neutrix.Lib

/-- A device with state `σ` as a program sees it. -/
structure Bus (σ Port Word : Type*) where
  read  : σ → Port → Word × σ
  write : σ → Port → Word → σ

section Poll

variable {σ Word : Type*} {read : σ → Word × σ} {ok : Word → Prop} [DecidablePred ok]

/-- At most so many reads, up to the first word that is `ok`. Says if there was one. -/
def poll (read : σ → Word × σ) (ok : Word → Prop) [DecidablePred ok] : Nat → σ → Bool × σ
  | 0, s => (false, s)
  | maxLoops + 1, s =>
    let (w, s) := read s
    if ok w then (true, s) else poll read ok maxLoops s

theorem poll_of_ok {s : σ} (h : ok (read s).1) (maxLoops : Nat) :
    poll read ok (maxLoops + 1) s = (true, (read s).2) :=
  if_pos h

theorem poll_of_not {s : σ} (h : ¬ ok (read s).1) (maxLoops : Nat) :
    poll read ok (maxLoops + 1) s = poll read ok maxLoops (read s).2 :=
  if_neg h

/-- **A poll that ends.** `res` is the state where it ends, `measure` bounds the reads. -/
theorem poll_eq_of_measure (P : σ → Prop) (res : σ → σ) (measure : σ → Nat)
    (hOk : ∀ s, P s → ok (read s).1 → (read s).2 = res s)
    (hMore : ∀ s, P s → ¬ ok (read s).1 →
      P (read s).2 ∧ measure (read s).2 < measure s ∧ res (read s).2 = res s)
    {maxLoops : Nat} {s : σ} (hStart : P s) (hMax : measure s < maxLoops) :
    poll read ok maxLoops s = (true, res s) := by
  induction maxLoops generalizing s with
  | zero => exact absurd hMax (Nat.not_lt_zero _)
  | succ n ih =>
    by_cases hNow : ok (read s).1
    · rw [poll_of_ok hNow, hOk s hStart hNow]
    · obtain ⟨hNext, hLess, hRes⟩ := hMore s hStart hNow
      rw [poll_of_not hNow, ih hNext (Nat.lt_of_lt_of_le hLess (Nat.le_of_lt_succ hMax)), hRes]

/-- **A poll that gives up.** -/
theorem poll_of_stuck {s : σ} (hSame : (read s).2 = s) (hNot : ¬ ok (read s).1) (maxLoops : Nat) :
    poll read ok maxLoops s = (false, s) := by
  induction maxLoops with
  | zero => rfl
  | succ n ih => rw [poll_of_not hNot, hSame, ih]

section Counter

variable (count : σ → Nat) (hRead : ∀ s, count (read s).2 = count s + 1)

include hRead

theorem poll_counter_le (maxLoops : Nat) (s : σ) :
    count s ≤ count (poll read ok maxLoops s).2 ∧
      count (poll read ok maxLoops s).2 ≤ count s + maxLoops := by
  induction maxLoops generalizing s with
  | zero => exact ⟨Nat.le_refl _, Nat.le_refl _⟩
  | succ n ih =>
    have hNext := hRead s
    by_cases hNow : ok (read s).1
    · rw [poll_of_ok hNow]
      dsimp only
      omega
    · rw [poll_of_not hNow]
      have hRest := ih (read s).2
      omega

/-- **Where a poll ends**, if the count says which words are `ok`. -/
theorem poll_counter_end_iff {ends : Nat → Prop} (hOk : ∀ s, ok (read s).1 ↔ ends (count s))
    (maxLoops : Nat) (s : σ) {j : Nat} (hj : count s ≤ j) :
    count (poll read ok maxLoops s).2 ≤ j ↔
      count s + maxLoops ≤ j ∨ ∃ i, count s ≤ i ∧ i < j ∧ ends i := by
  induction maxLoops generalizing s with
  | zero => exact iff_of_true hj (.inl hj)
  | succ n ih =>
    have hNext := hRead s
    by_cases hNow : ok (read s).1
    · rw [poll_of_ok hNow]
      dsimp only
      constructor
      · intro hEnd
        exact .inr ⟨count s, Nat.le_refl _, by omega, (hOk s).mp hNow⟩
      · rintro (hFar | ⟨i, hLow, hHigh, -⟩)
        · omega
        · omega
    · rw [poll_of_not hNow]
      have hEnd : count (read s).2 ≤ count (poll read ok n (read s).2).2 :=
        (poll_counter_le count hRead n (read s).2).1
      rcases Nat.eq_or_lt_of_le hj with rfl | hLt
      · -- the first read is made in any case
        refine iff_of_false (by omega) ?_
        rintro (hFar | ⟨i, hLow, hHigh, -⟩)
        · omega
        · omega
      · rw [ih (read s).2 (by omega), hNext, Nat.add_assoc, Nat.add_comm 1]
        refine or_congr Iff.rfl ⟨fun ⟨i, hLow, hHigh, hi⟩ => ⟨i, by omega, hHigh, hi⟩, ?_⟩
        rintro ⟨i, hLow, hHigh, hi⟩
        refine ⟨i, Nat.lt_of_le_of_ne hLow ?_, hHigh, hi⟩
        rintro rfl
        exact hNow ((hOk s).mpr hi)

end Counter

end Poll

end Neutrix.Lib
