import Neutrix.Arch.TscTimer
import Neutrix.Drivers.Ps2Controller

/-!
# Neutrix — the polling loops at boot

The helpers of the mouse driver poll the PS/2 controller a limited number of
times, so they end whatever the controller answers. Two loops have no limit:
the flush, which reads bytes until the status shows an empty output buffer,
and the sampling loop of the timer, which waits for the HPET. Where no
controller answers, all status reads return 0xFF, and the flush never ends.

* `bootPolling_ends_iff` — the sequences of values on which all loops end.
-/

namespace Neutrix.Drivers.Ps2

open Neutrix.Lib

section Helpers

variable (status data : Nat → UInt8)

-- ---------------------------------------------------------------------------
-- Helpers with a limit
-- ---------------------------------------------------------------------------

/-- `q` comes after `p` with at most `n` more status reads. -/
def Polls (n : Nat) (p q : Ports) : Prop :=
  p.statusReads ≤ q.statusReads ∧ q.statusReads ≤ p.statusReads + n

theorem Polls.trans {m n : Nat} {p q r : Ports} (h : Polls m p q) (h' : Polls n q r) :
    Polls (m + n) p r :=
  ⟨Nat.le_trans h.1 h'.1, by have := h.2; have := h'.2; omega⟩

theorem Polls.mono {m n : Nat} {p q : Ports} (h : Polls m p q) (hLe : m ≤ n) : Polls n p q :=
  ⟨h.1, Nat.le_trans h.2 (Nat.add_le_add_left hLe _)⟩

theorem poll_polls (ok : UInt8 → Prop) [DecidablePred ok] (maxLoops : Nat) (p : Ports) :
    Polls maxLoops p (poll (readStatus (sequences status data)) ok maxLoops p).2 :=
  poll_counter_le Ports.statusReads (fun _ => rfl) maxLoops p

theorem waitInputClear_polls (maxLoops : Nat) (p : Ports) :
    Polls maxLoops p (waitInputClear (sequences status data) maxLoops p).2 :=
  poll_polls status data _ maxLoops p

theorem waitForData_polls (maxLoops : Nat) (p : Ports) :
    Polls maxLoops p (waitForData (sequences status data) maxLoops p).2 := by
  have hPoll := poll_polls status data (fun status => status &&& 0x01 ≠ 0) maxLoops p
  unfold waitForData
  generalize poll (readStatus (sequences status data)) (fun status => status &&& 0x01 ≠ 0)
    maxLoops p = polled at hPoll ⊢
  -- the read of the data port is not a status read
  obtain ⟨_ | _, q⟩ := polled <;> exact hPoll

theorem writeControllerCmd_polls (cmd : UInt8) (p : Ports) :
    Polls 10000 p (writeControllerCmd (sequences status data) cmd p).2 := by
  have hWait := waitInputClear_polls status data 10000 p
  unfold writeControllerCmd
  generalize waitInputClear (sequences status data) 10000 p = waited at hWait ⊢
  obtain ⟨_ | _, q⟩ := waited <;> exact hWait

theorem writeMouseData_polls (value : UInt8) (p : Ports) :
    Polls 20000 p (writeMouseData (sequences status data) value p).2 := by
  have hCmd := writeControllerCmd_polls status data 0xD4 p
  unfold writeMouseData
  generalize writeControllerCmd (sequences status data) 0xD4 p = sent at hCmd ⊢
  obtain ⟨_ | _, q⟩ := sent
  · exact hCmd.mono (show 10000 ≤ 20000 by decide)
  · have hWait := waitInputClear_polls status data 10000 q
    dsimp only at hCmd ⊢
    generalize waitInputClear (sequences status data) 10000 q = waited at hWait ⊢
    obtain ⟨_ | _, r⟩ := waited <;> exact hCmd.trans hWait

/-- Each attempt makes three waits. -/
theorem sendMouseCmdWithAck_polls (cmd : UInt8) (retries : Nat) (p : Ports) :
    Polls (retries * 30000) p (sendMouseCmdWithAck (sequences status data) cmd retries p).2 := by
  induction retries generalizing p with
  | zero => exact ⟨Nat.le_refl _, Nat.le_refl _⟩
  | succ left ih =>
    have hSend := writeMouseData_polls status data cmd p
    rw [sendMouseCmdWithAck, Nat.succ_mul, Nat.add_comm]
    generalize writeMouseData (sequences status data) cmd p = sent at hSend ⊢
    obtain ⟨_ | _, q⟩ := sent
    · exact (hSend.mono (show 20000 ≤ 30000 by decide)).trans (ih q)
    · have hWait := waitForData_polls status data 10000 q
      dsimp only at hSend ⊢
      generalize waitForData (sequences status data) 10000 q = waited at hWait ⊢
      have hAttempt : Polls 30000 p waited.2 := hSend.trans hWait
      obtain ⟨_ | resp, r⟩ := waited
      · exact hAttempt.trans (ih r)
      · dsimp only
        split_ifs
        · exact hAttempt.mono (Nat.le_add_right _ _)
        · exact hAttempt.mono (Nat.le_add_right _ _)
        · exact hAttempt.trans (ih r)
        · exact hAttempt.trans (ih r)

end Helpers

variable {status data : Nat → UInt8}

/-- Where the reads of a wait end: behind the first status with bit 1 clear, or at the
limit. -/
theorem waitInputClear_end_le_iff (maxLoops : Nat) (p : Ports) {j : Nat} (hj : p.statusReads ≤ j) :
    (waitInputClear (sequences status data) maxLoops p).2.statusReads ≤ j ↔
      p.statusReads + maxLoops ≤ j ∨ ∃ i, p.statusReads ≤ i ∧ i < j ∧ status i &&& 0x02 = 0 :=
  poll_counter_end_iff Ports.statusReads (fun _ => rfl) (fun _ => Iff.rfl) maxLoops p hj

-- ---------------------------------------------------------------------------
-- The flush
-- ---------------------------------------------------------------------------

theorem flush_ends_iff {p : Ports} :
    (∃ fuel q, flush (sequences status data) fuel p = some q) ↔
      ∃ j, p.statusReads ≤ j ∧ status j &&& 0x01 = 0 := by
  -- round `k` reads status `k` of the flush
  have hLoop : (∃ fuel t, loop (fun p => (readStatus (sequences status data) p).1 &&& 0x01 ≠ 0)
      (flushRound (sequences status data)) fuel p = some t) ↔
      ∃ j, p.statusReads ≤ j ∧ ¬ (status j &&& 0x01 ≠ 0) := by
    refine loop_counter_ends_iff Ports.statusReads (fun q => ?_) (fun q => ?_)
    · exact Iff.rfl
    · rfl
  simp only [← Option.isSome_iff_exists, not_not] at hLoop
  simp only [flush, ← Option.isSome_iff_exists, Option.isSome_map]
  exact hLoop

/-- **The set-up ends** exactly when the status shows an empty output buffer some
time after the wait of the first command. -/
theorem setUp_ends_iff :
    (∃ fuel q, setUp (sequences status data) fuel Ports.initial = some q) ↔
      ∃ j, status j &&& 0x01 = 0 ∧ (10000 ≤ j ∨ ∃ i < j, status i &&& 0x02 = 0) := by
  have hReads : (writeControllerCmd (sequences status data) 0xA8 Ports.initial).2.statusReads =
      (waitInputClear (sequences status data) 10000 Ports.initial).2.statusReads := by
    unfold writeControllerCmd
    rcases waitInputClear (sequences status data) 10000 Ports.initial with ⟨_ | _, q⟩ <;> rfl
  have hFlush : (∃ fuel q, setUp (sequences status data) fuel Ports.initial = some q) ↔
      ∃ fuel q, flush (sequences status data) fuel
        (writeControllerCmd (sequences status data) 0xA8 Ports.initial).2 = some q := by
    simp only [setUp, ← Option.isSome_iff_exists, Option.isSome_map]
  rw [hFlush, flush_ends_iff, hReads]
  refine exists_congr fun j => ?_
  rw [waitInputClear_end_le_iff 10000 Ports.initial (Nat.zero_le j), and_comm]
  simp [Ports.initial]

-- ---------------------------------------------------------------------------
-- All loops
-- ---------------------------------------------------------------------------

/-- **Polling at boot.** The helpers make a limited number of status reads on every
sequence of values. The set-up of the mouse and of the timer end exactly when
the status shows an empty output buffer at some point of the flush, and the
HPET gets 1000 ticks ahead of the first sample, if it is sampled. -/
theorem bootPolling_ends_iff (status data : Nat → UInt8) (env : TscTimer.Env) (desiredMs : UInt64)
    (s : TscTimer.State) :
    ((∀ maxLoops p, Polls maxLoops p (waitInputClear (sequences status data) maxLoops p).2) ∧
      (∀ maxLoops p, Polls maxLoops p (waitForData (sequences status data) maxLoops p).2) ∧
      ∀ cmd retries p,
        Polls (retries * 30000) p (sendMouseCmdWithAck (sequences status data) cmd retries p).2) ∧
    (((∃ fuel q, setUp (sequences status data) fuel Ports.initial = some q) ∧
        ∃ fuel, TscTimer.init env desiredMs fuel s ≠ .error .outOfFuel) ↔
      (∃ j, status j &&& 0x01 = 0 ∧ (10000 ≤ j ∨ ∃ i < j, status i &&& 0x02 = 0)) ∧
        (TscTimer.Samples env s →
          ∃ i, s.hpetReads < i ∧ 1000 ≤ (env.hpet i - env.hpet s.hpetReads).toNat)) := by
  refine ⟨⟨waitInputClear_polls status data, waitForData_polls status data,
    sendMouseCmdWithAck_polls status data⟩, ?_⟩
  rw [setUp_ends_iff, TscTimer.init_ends_iff]

/-- A machine with an HPET that stands still. -/
def stoppedHpet : TscTimer.Env where
  features   := ⟨true, true, true⟩
  hpetBase   := some 0xFED00000
  periodFs   := 10000000
  physOffset := 0x18000000000
  hpet       := fun _ => 0
  tsc        := fun _ => 0
  mapFails   := fun _ => false

/-- Without a controller the status reads return 0xFF and the flush goes on for ever;
so does the sampling of an HPET that stands still. -/
theorem bootPolling_runs_on :
    (∀ fuel, setUp (sequences (fun _ => 0xFF) fun _ => 0xFF) fuel Ports.initial = none) ∧
    ∀ fuel, TscTimer.init stoppedHpet 10 fuel (.boot fun _ => some 0) = .error .outOfFuel := by
  constructor
  · intro fuel
    by_contra hSome
    obtain ⟨q, hq⟩ := Option.ne_none_iff_exists'.mp hSome
    obtain ⟨j, hClear, -⟩ := setUp_ends_iff.mp ⟨fuel, q, hq⟩
    exact absurd hClear (by decide)
  · intro fuel
    by_contra hEnds
    obtain ⟨i, -, hFar⟩ := TscTimer.init_ends_iff.mp ⟨fuel, hEnds⟩
      ⟨⟨rfl, rfl, rfl⟩, 0xFED00000, _, rfl, by decide, rfl, by decide⟩
    have hStill : (stoppedHpet.hpet i - stoppedHpet.hpet 0).toNat = 0 := by
      show ((0 : UInt64) - 0).toNat = 0
      decide
    exact absurd (Nat.le_trans hFar (Nat.le_of_eq hStill)) (by decide)

end Neutrix.Drivers.Ps2
