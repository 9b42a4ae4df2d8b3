import Mathlib.Algebra.Group.Nat.Defs
import Neutrix.Drivers.Attachable
import Neutrix.Lib.While

/-!
# Neutrix — the TSC-deadline timer

Model of `src/arch/tsc_timer.rs`. `init` maps the page of the HPET main
counter, measures how far the TSC gets while the HPET advances, derives the
timer's period from it and arms the first deadline. What the two counters
show is one sequence of values each, as the reads return them: the counters
may run, stand still or jump. `u128` values are naturals, with the bounds of
the saturating and the wrapping multiplication written out.

* `calibrate_exact_iff` — the derived period is the exact one exactly when
  the exact one is below 2⁶⁴;
* `init_ends_iff` — when the sampling loop ends;
* `armed_after_interrupts` — after `init` and any number of timer interrupts
  the deadline is one period, the one `init` left, after the last TSC read.
-/

namespace Neutrix.TscTimer

open Neutrix.Lib
open Neutrix.Drivers (PageMap canonical pageOf mapTo)

-- ---------------------------------------------------------------------------
-- Calibration
-- ---------------------------------------------------------------------------

/-- `u128::saturating_mul`. -/
def saturatingMul (a b : Nat) : Nat := min (a * b) (2 ^ 128 - 1)

/-- `PERIOD_CYCLES` after the samples were taken; it was `periodCycles` before. -/
def calibrate (t1 t2 h1 h2 periodFs desiredMs periodCycles : UInt64) : UInt64 :=
  let hdelta := (h2 - h1).toNat
  let tdelta := (t2 - t1).toNat
  if hdelta ≠ 0 then
    let num := saturatingMul tdelta 1000000000000000
    let den := saturatingMul hdelta periodFs.toNat
    if den ≠ 0 then
      let tscHz := num / den
      let cycles := tscHz * desiredMs.toNat % 2 ^ 128 / 1000
      if cycles > 0 then cycles.toUInt64 else periodCycles
    else periodCycles
  else periodCycles

-- ---------------------------------------------------------------------------
-- Initialisation
-- ---------------------------------------------------------------------------

structure CpuFeatures where
  msr         : Bool
  tscDeadline : Bool
  tsc         : Bool
deriving DecidableEq, Repr

/-- What `init` finds. -/
structure Env where
  features   : CpuFeatures
  hpetBase   : Option UInt64
  periodFs   : UInt64
  physOffset : UInt64
  -- what the reads of the HPET main counter and of the TSC return, in order
  hpet       : Nat → UInt64
  tsc        : Nat → UInt64
  -- pages for which `map_to` returns an error
  mapFails   : UInt64 → Bool

structure State where
  periodCycles : UInt64
  pages        : PageMap
  hpetReads    : Nat
  tscReads     : Nat
  -- the handler of the timer vector is registered
  handler      : Bool
  -- what was last written to `IA32_TSC_DEADLINE`
  deadline     : Option UInt64

/-- The statics as they are linked. -/
def State.boot (pages : PageMap) : State where
  periodCycles := 10000000
  pages        := pages
  hpetReads    := 0
  tscReads     := 0
  handler      := false
  deadline     := none

inductive Stop where
  | panicked  -- `VirtAddr::new` on an address that is not canonical
  | outOfFuel -- the sampling loop is still running
deriving DecidableEq, Repr

/-- The page loop from page `i` on; `false` if a page cannot be mapped. -/
def mapPages (env : Env) (pageStart : UInt64) : Nat → Nat → PageMap → Except Stop (Bool × PageMap)
  | 0, _, pages => .ok (true, pages)
  | left + 1, i, pages =>
    let physPage := pageStart + i.toUInt64 * 0x1000
    let virtPage := env.physOffset + physPage
    if !canonical virtPage then .error .panicked
    else if (pages (pageOf virtPage)).isSome then mapPages env pageStart left (i + 1) pages
    else if env.mapFails (pageOf virtPage) then .ok (false, pages)
    else
      match mapTo pages (pageOf virtPage) (pageOf physPage) with
      | some pages => mapPages env pageStart left (i + 1) pages
      | none => .ok (false, pages)

def hpetMainCounterOffset : UInt64 := 0xF0

/-- Maps the pages of the main counter's eight bytes. -/
def mapHpet (env : Env) (hpetBase : UInt64) (pages : PageMap) : Except Stop (Bool × PageMap) :=
  let mainPhys := hpetBase + hpetMainCounterOffset
  let pageStart := mainPhys &&& ~~~ 0xFFF
  let offsetInPage := (mainPhys &&& 0xFFF).toNat
  mapPages env pageStart ((offsetInPage + 8 + 0xFFF) / 0x1000) 0 pages

/-- Takes the samples. The loop's condition reads the counter in every round. -/
def sample (env : Env) (desiredMs : UInt64) (fuel : Nat) (s : State) : Except Stop State :=
  let h1 := env.hpet s.hpetReads
  let t1 := env.tsc s.tscReads
  match loop (fun i => env.hpet i - h1 < 1000) (fun i => i + 1) fuel (s.hpetReads + 1) with
  | none => .error .outOfFuel
  | some i =>
    let h2 := env.hpet (i + 1)
    let t2 := env.tsc (s.tscReads + 1)
    .ok { s with
      hpetReads := i + 2
      tscReads := s.tscReads + 2
      periodCycles := calibrate t1 t2 h1 h2 env.periodFs desiredMs s.periodCycles }

/-- The deadline is one period from now. -/
def arm (env : Env) (s : State) : State :=
  { s with
    tscReads := s.tscReads + 1
    deadline := some (env.tsc s.tscReads + s.periodCycles) }

/-- The timer interrupt re-arms the deadline; its EOI is not modelled. -/
def tscTimerHandler (env : Env) (s : State) : State := arm env s

/-- The calibration, if there is an HPET in reach; `false` if it cannot be mapped. -/
def calibrateHpet (env : Env) (desiredMs : UInt64) (fuel : Nat) (s : State) :
    Except Stop (Bool × State) :=
  match env.hpetBase with
  | none => .ok (true, s)
  | some hpetBase =>
    if hpetBase < 0x100000000 then
      match mapHpet env hpetBase s.pages with
      | .error e => .error e
      | .ok (false, pages) => .ok (false, { s with pages := pages })
      | .ok (true, pages) =>
        let s := { s with pages := pages }
        if env.periodFs ≠ 0 then (sample env desiredMs fuel s).map fun s => (true, s)
        else .ok (true, s)
    else .ok (true, s)

def init (env : Env) (desiredMs : UInt64) (fuel : Nat) (s : State) : Except Stop (Bool × State) :=
  if !env.features.msr || !env.features.tscDeadline || !env.features.tsc then .ok (false, s)
  else
    match calibrateHpet env desiredMs fuel s with
    | .error e => .error e
    | .ok (false, s) => .ok (false, s)
    | .ok (true, s) => .ok (true, arm env { s with handler := true })

-- ---------------------------------------------------------------------------
-- The derived period
-- ---------------------------------------------------------------------------

/-- The timer's period in TSC cycles. -/
def exactCycles (t1 t2 h1 h2 : UInt64) (periodFs : UInt32) (desiredMs : UInt64) : Nat :=
  (t2 - t1).toNat * 10 ^ 15 / ((h2 - h1).toNat * periodFs.toNat) * desiredMs.toNat / 1000

/-- The calibration overflows nowhere and leaves the exact period behind, or the old
one if the exact period is 0. -/
structure Calibrated (t1 t2 h1 h2 : UInt64) (periodFs : UInt32) (desiredMs old : UInt64) :
    Prop where
  num     : (t2 - t1).toNat * 10 ^ 15 < 2 ^ 128
  den     : (h2 - h1).toNat * periodFs.toNat < 2 ^ 128
  product : (t2 - t1).toNat * 10 ^ 15 / ((h2 - h1).toNat * periodFs.toNat) * desiredMs.toNat <
    2 ^ 128
  kept    : exactCycles t1 t2 h1 h2 periodFs desiredMs = 0 →
    calibrate t1 t2 h1 h2 periodFs.toUInt64 desiredMs old = old
  stored  : exactCycles t1 t2 h1 h2 periodFs desiredMs ≠ 0 →
    (calibrate t1 t2 h1 h2 periodFs.toUInt64 desiredMs old).toNat =
      exactCycles t1 t2 h1 h2 periodFs desiredMs
  nonzero : old ≠ 0 → calibrate t1 t2 h1 h2 periodFs.toUInt64 desiredMs old ≠ 0

section Calibrate

variable {t1 t2 h1 h2 desiredMs old : UInt64} {periodFs : UInt32}

theorem saturatingMul_eq {a b : Nat} (h : a * b < 2 ^ 128) : saturatingMul a b = a * b :=
  Nat.min_eq_left (Nat.le_sub_one_of_lt h)

theorem num_lt (t1 t2 : UInt64) : (t2 - t1).toNat * 10 ^ 15 < 2 ^ 128 := by
  have hLt := (t2 - t1).toNat_lt
  omega

theorem den_lt (h1 h2 : UInt64) (periodFs : UInt32) :
    (h2 - h1).toNat * periodFs.toNat < 2 ^ 128 := by
  have hDelta := (h2 - h1).toNat_lt
  have hPeriod := periodFs.toNat_lt
  calc (h2 - h1).toNat * periodFs.toNat
      ≤ 2 ^ 64 * 2 ^ 32 := Nat.mul_le_mul (Nat.le_of_lt hDelta) (Nat.le_of_lt hPeriod)
    _ < 2 ^ 128 := by decide

/-- The first two products never saturate; the third one wraps, and its thousandth
is cut to 64 bits. -/
theorem calibrate_eq (t1 t2 desiredMs old : UInt64) (hDelta : 0 < (h2 - h1).toNat)
    (hPeriod : 0 < periodFs.toNat) :
    calibrate t1 t2 h1 h2 periodFs.toUInt64 desiredMs old =
      let cycles := (t2 - t1).toNat * 10 ^ 15 / ((h2 - h1).toNat * periodFs.toNat) *
        desiredMs.toNat % 2 ^ 128 / 1000
      if cycles > 0 then cycles.toUInt64 else old := by
  have hNum : saturatingMul (t2 - t1).toNat 1000000000000000 = (t2 - t1).toNat * 10 ^ 15 :=
    saturatingMul_eq (num_lt t1 t2)
  have hDen : saturatingMul (h2 - h1).toNat periodFs.toUInt64.toNat =
      (h2 - h1).toNat * periodFs.toNat := saturatingMul_eq (den_lt h1 h2 periodFs)
  have hDenPos : (h2 - h1).toNat * periodFs.toNat ≠ 0 :=
    Nat.ne_of_gt (Nat.mul_pos hDelta hPeriod)
  unfold calibrate
  dsimp only
  rw [if_pos (Nat.ne_of_gt hDelta), hNum, hDen, if_pos hDenPos]

/-- The calibration is exact exactly when the exact period fits into 64 bits. -/
theorem calibrated_iff_lt (hDelta : 0 < (h2 - h1).toNat) (hPeriod : 0 < periodFs.toNat) :
    Calibrated t1 t2 h1 h2 periodFs desiredMs old ↔
      (t2 - t1).toNat * 10 ^ 15 / ((h2 - h1).toNat * periodFs.toNat) * desiredMs.toNat <
        1000 * 2 ^ 64 := by
  have hEq := calibrate_eq t1 t2 desiredMs old hDelta hPeriod
  have hExact : exactCycles t1 t2 h1 h2 periodFs desiredMs =
      (t2 - t1).toNat * 10 ^ 15 / ((h2 - h1).toNat * periodFs.toNat) * desiredMs.toNat / 1000 := rfl
  generalize hProduct : (t2 - t1).toNat * 10 ^ 15 / ((h2 - h1).toNat * periodFs.toNat) *
    desiredMs.toNat = product at hEq hExact ⊢
  dsimp only at hEq
  constructor
  · intro h
    have hLt := h.product
    rw [hProduct] at hLt
    have hStored := h.stored
    rw [hExact] at hStored
    have hWord := (calibrate t1 t2 h1 h2 periodFs.toUInt64 desiredMs old).toNat_lt
    omega
  · intro hFits
    rw [Nat.mod_eq_of_lt (by omega)] at hEq
    refine ⟨num_lt t1 t2, den_lt h1 h2 periodFs, by rw [hProduct]; omega, ?_, ?_, ?_⟩
    · intro hZero
      rw [hEq, if_neg (by omega)]
    · intro hSome
      rw [hEq, if_pos (by omega), Nat.toUInt64, UInt64.toNat_ofNat', hExact]
      omega
    · intro hOld
      rw [hEq]
      split_ifs with hPos
      · intro hZero
        have hNat := congrArg UInt64.toNat hZero
        rw [Nat.toUInt64, UInt64.toNat_ofNat'] at hNat
        change product / 1000 % 2 ^ 64 = 0 at hNat
        omega
      · exact hOld

/-- **The calibration** neither overflows nor truncates exactly when the TSC got
through few enough cycles for the period to be below 2⁶⁴. -/
theorem calibrate_exact_iff (t1 t2 h1 h2 : UInt64) (periodFs : UInt32) (desiredMs old : UInt64)
    (hSampled : 1000 ≤ (h2 - h1).toNat) (hPeriod : periodFs ≠ 0) :
    Calibrated t1 t2 h1 h2 periodFs desiredMs old ↔
      desiredMs = 0 ∨ (t2 - t1).toNat * 10 ^ 15 <
        ((1000 * 2 ^ 64 - 1) / desiredMs.toNat + 1) * ((h2 - h1).toNat * periodFs.toNat) := by
  have hPeriodPos : 0 < periodFs.toNat :=
    Nat.pos_of_ne_zero fun h => hPeriod (UInt32.toNat_inj.mp h)
  have hDenPos : 0 < (h2 - h1).toNat * periodFs.toNat := Nat.mul_pos (by omega) hPeriodPos
  rw [calibrated_iff_lt (by omega) hPeriodPos]
  by_cases hZero : desiredMs = 0
  · subst hZero
    simp
  · have hMs : 0 < desiredMs.toNat := Nat.pos_of_ne_zero fun h => hZero (UInt64.toNat_inj.mp h)
    rw [or_iff_right hZero, ← Nat.div_lt_iff_lt_mul hDenPos, Nat.lt_succ_iff,
      Nat.le_div_iff_mul_le hMs]
    omega

/-- Ten milliseconds at 1 GHz, measured with an HPET of 10 MHz. -/
theorem calibrate_exact_gigahertz :
    Calibrated 0 100000 0 1000 100000000 10 10000000 :=
  (calibrate_exact_iff 0 100000 0 1000 100000000 10 10000000 (by decide) (by decide)).mpr
    (.inr (by decide))

/-- The period is tested before it is cut to 64 bits, and what is left can be 0: here
after 2⁵⁵ cycles of the TSC. -/
theorem calibrate_truncates :
    exactCycles 0 0x80000000000000 0 1000 1 1 = 5 ^ 9 * 2 ^ 64 ∧
      calibrate 0 0x80000000000000 0 1000 1 1 10000000 = 0 ∧
      ¬ Calibrated 0 0x80000000000000 0 1000 1 1 10000000 := by
  refine ⟨by decide, by decide, fun h => ?_⟩
  exact absurd (h.nonzero (by decide)) (by decide)

end Calibrate

-- ---------------------------------------------------------------------------
-- The sampling loop
-- ---------------------------------------------------------------------------

/-- `init` gets to the samples. -/
def Samples (env : Env) (s : State) : Prop :=
  (env.features.msr = true ∧ env.features.tscDeadline = true ∧ env.features.tsc = true) ∧
    ∃ hpetBase pages, env.hpetBase = some hpetBase ∧ hpetBase < 0x100000000 ∧
      mapHpet env hpetBase s.pages = .ok (true, pages) ∧ env.periodFs ≠ 0

section Loop

variable {env : Env} {desiredMs : UInt64} {s : State}

/-- The sampling loop, from the first sample on. -/
def sampling (env : Env) (first fuel : Nat) : Option Nat :=
  loop (fun i => env.hpet i - env.hpet first < 1000) (fun i => i + 1) fuel (first + 1)

theorem sampling_ends_iff {first : Nat} :
    (∃ fuel i, sampling env first fuel = some i) ↔
      ∃ i, first < i ∧ 1000 ≤ (env.hpet i - env.hpet first).toNat := by
  refine (loop_counter_ends_iff id (fun _ => Iff.rfl) (fun _ => rfl)).trans ?_
  refine exists_congr fun i => and_congr Iff.rfl ?_
  rw [UInt64.lt_iff_toNat_lt, Nat.not_lt]
  rfl

theorem sample_outOfFuel_iff {fuel : Nat} :
    sample env desiredMs fuel s = .error .outOfFuel ↔ sampling env s.hpetReads fuel = none := by
  unfold sample sampling
  dsimp only
  cases loop (fun i => env.hpet i - env.hpet s.hpetReads < 1000) (fun i => i + 1) fuel
    (s.hpetReads + 1) <;> simp

theorem mapPages_error {pageStart : UInt64} {left i : Nat} {pages : PageMap} {e : Stop}
    (h : mapPages env pageStart left i pages = .error e) : e = .panicked := by
  induction left generalizing i pages with
  | zero => cases h
  | succ left ih =>
    rw [mapPages] at h
    split_ifs at h
    · cases h
      rfl
    · exact ih h
    · split at h
      · exact ih h
      · cases h

theorem mapHpet_error {hpetBase : UInt64} {pages : PageMap} {e : Stop}
    (h : mapHpet env hpetBase pages = .error e) : e = .panicked := by
  unfold mapHpet at h
  exact mapPages_error h

/-- Only the sampling loop can be left running. -/
theorem calibrateHpet_outOfFuel_iff (desiredMs : UInt64) {fuel : Nat} :
    calibrateHpet env desiredMs fuel s = .error .outOfFuel ↔
      (∃ hpetBase pages, env.hpetBase = some hpetBase ∧ hpetBase < 0x100000000 ∧
        mapHpet env hpetBase s.pages = .ok (true, pages) ∧ env.periodFs ≠ 0) ∧
      sampling env s.hpetReads fuel = none := by
  have hSample : ∀ pages, sample env desiredMs fuel { s with pages := pages } =
      .error .outOfFuel ↔ sampling env s.hpetReads fuel = none := fun _ => sample_outOfFuel_iff
  have hMapped : ∀ {r : Except Stop State},
      (r.map fun s => (true, s)) = .error .outOfFuel → r = .error .outOfFuel := by
    intro r hr
    cases r with
    | error e =>
      cases hr
      rfl
    | ok t => cases hr
  constructor
  · intro h
    unfold calibrateHpet at h
    cases hBase : env.hpetBase with
    | none =>
      rw [hBase] at h
      cases h
    | some hpetBase =>
      rcases hMap : mapHpet env hpetBase s.pages with e | ⟨_ | _, pages⟩
      · simp only [hBase, hMap, mapHpet_error hMap] at h
        split_ifs at h
        cases h
      · simp only [hBase, hMap] at h
        split_ifs at h
      · simp only [hBase, hMap] at h
        split_ifs at h with hLow hPeriod
        exact ⟨⟨hpetBase, pages, rfl, hLow, hMap, hPeriod⟩, (hSample pages).mp (hMapped h)⟩
  · rintro ⟨⟨hpetBase, pages, hBase, hLow, hMap, hPeriod⟩, hNone⟩
    simp only [calibrateHpet, hBase, if_pos hLow, hMap, if_pos hPeriod, (hSample pages).mpr hNone]
    rfl

theorem init_outOfFuel_iff {fuel : Nat} :
    init env desiredMs fuel s = .error .outOfFuel ↔
      Samples env s ∧ sampling env s.hpetReads fuel = none := by
  unfold init Samples
  rw [and_assoc, ← calibrateHpet_outOfFuel_iff desiredMs]
  by_cases hFeatures : env.features.msr = true ∧ env.features.tscDeadline = true ∧
      env.features.tsc = true
  · obtain ⟨hMsr, hDeadline, hTsc⟩ := hFeatures
    simp only [hMsr, hDeadline, hTsc, Bool.not_true, Bool.or_self, Bool.false_eq_true, if_false,
      and_self, true_and]
    rcases calibrateHpet env desiredMs fuel s with e | ⟨_ | _, t⟩ <;> simp
  · have hMissing :
        (!env.features.msr || !env.features.tscDeadline || !env.features.tsc) = true := by
      simp only [Bool.or_eq_true, Bool.not_eq_true', ← Bool.not_eq_true]
      tauto
    simp [hMissing, hFeatures]

/-- **`init` ends** exactly when it does not sample or the HPET shows, some time
after the first sample, 1000 ticks more. -/
theorem init_ends_iff :
    (∃ fuel, init env desiredMs fuel s ≠ .error .outOfFuel) ↔
      (Samples env s →
        ∃ i, s.hpetReads < i ∧ 1000 ≤ (env.hpet i - env.hpet s.hpetReads).toNat) := by
  simp only [ne_eq, init_outOfFuel_iff, not_and, ← sampling_ends_iff, Option.ne_none_iff_exists']
  constructor
  · rintro ⟨fuel, hEnds⟩ hSamples
    exact ⟨fuel, hEnds hSamples⟩
  · intro hEnds
    by_cases hSamples : Samples env s
    · obtain ⟨fuel, hSome⟩ := hEnds hSamples
      exact ⟨fuel, fun _ => hSome⟩
    · exact ⟨0, fun h => absurd h hSamples⟩

end Loop

-- ---------------------------------------------------------------------------
-- The timer runs
-- ---------------------------------------------------------------------------

/-- The handler is in place, and the deadline is `period` cycles after the TSC value
that was read last. -/
structure Armed (env : Env) (period : UInt64) (s : State) : Prop where
  handler  : s.handler = true
  cycles   : s.periodCycles = period
  deadline : ∃ last, s.tscReads = last + 1 ∧ s.deadline = some (env.tsc last + period)

section Run

variable {env : Env} {desiredMs : UInt64} {s t : State}

theorem arm_armed (s : State) (hHandler : s.handler = true) :
    Armed env s.periodCycles (arm env s) :=
  ⟨hHandler, rfl, s.tscReads, rfl, rfl⟩

theorem init_armed {fuel : Nat} (h : init env desiredMs fuel s = .ok (true, t)) :
    Armed env t.periodCycles t := by
  unfold init at h
  split_ifs at h
  · cases h
  · rcases hCal : calibrateHpet env desiredMs fuel s with e | ⟨_ | _, u⟩
    · simp only [hCal] at h
      cases h
    · simp only [hCal] at h
      cases h
    · simp only [hCal] at h
      cases h
      exact arm_armed { u with handler := true } rfl

theorem Armed.interrupt {period : UInt64} (h : Armed env period s) :
    Armed env period (tscTimerHandler env s) := by
  rw [← h.cycles]
  exact arm_armed s h.handler

/-- **The timer keeps its period**: every interrupt arms the next one. -/
theorem armed_after_interrupts {fuel : Nat} (h : init env desiredMs fuel s = .ok (true, t))
    (n : Nat) : Armed env t.periodCycles ((tscTimerHandler env)^[n] t) := by
  induction n with
  | zero => exact init_armed h
  | succ n ih =>
    rw [Function.iterate_succ_apply']
    exact ih.interrupt

end Run

end Neutrix.TscTimer
