import Neutrix.DriverFramework.Attach

/-!
# Neutrix — the life of a driver instance

`logged` records every callback of any drivers in the world they act on, so
that a run of the manager carries its own history. Whatever the drivers do
and return, the calls an instance sees are one of `lives`: a `start` follows
a successful `probe`, `stop` and `release` follow a successful `start`, and
nothing is called twice. The instances in the middle of that life are exactly
those in the registry (`History.attached`, `History.others`).

A refused instance leaves no trace in the registry, apart from what its
failing callback wrote into the device's description (`attach_error`).

- `manager_history` — the registry and the histories of all instances, in
  every state of every run.
- `failed_probe_rewrites_entry` — a probe that declines can leave the entry
  changed.
-/

namespace Neutrix

open Neutrix.Lib
open Neutrix.DeviceManager

variable {δ ω : Type*}

-- ---------------------------------------------------------------------------
-- Recorded callbacks
-- ---------------------------------------------------------------------------

/-- A callback, with its success where it has one. -/
inductive Call where
  | probe (ok : Bool)
  | start (ok : Bool)
  | stop
  | release
deriving DecidableEq, Repr

abbrev Log (δ : Type*) := List (δ × Call)

/-- The same drivers, with a record of their callbacks. -/
def logged (drv : Driver δ ω) : Driver δ (ω × Log δ) where
  probe d dev w :=
    (drv.probe d dev w.1).map fun r => (r.1, r.2.1, r.2.2, w.2 ++ [(d, .probe r.1.isOk)])
  start d dev w :=
    (drv.start d dev w.1).map fun r => (r.1, r.2.1, r.2.2, w.2 ++ [(d, .start r.1.isOk)])
  stop d dev w := (drv.stop d dev w.1).map fun r => (r.1, r.2, w.2 ++ [(d, .stop)])
  release d dev w := (drv.release d dev w.1).map fun r => (r.1, r.2, w.2 ++ [(d, .release)])

section Logged

variable {drv : Driver δ ω} {d : δ} {dev : Device} {w w' : ω × Log δ} {r : Except String Unit}
  {info : DeviceInfo}

theorem log_of_probe (h : (logged drv).probe d dev w = some (r, info, w')) :
    w'.2 = w.2 ++ [(d, .probe r.isOk)] := by
  obtain ⟨r', -, hEq⟩ := Option.map_eq_some_iff.mp h
  cases hEq
  rfl

theorem log_of_start (h : (logged drv).start d dev w = some (r, info, w')) :
    w'.2 = w.2 ++ [(d, .start r.isOk)] := by
  obtain ⟨r', -, hEq⟩ := Option.map_eq_some_iff.mp h
  cases hEq
  rfl

theorem log_of_stop (h : (logged drv).stop d dev w = some (info, w')) :
    w'.2 = w.2 ++ [(d, .stop)] := by
  obtain ⟨v, -, hEq⟩ := Option.map_eq_some_iff.mp h
  cases hEq
  rfl

theorem log_of_release (h : (logged drv).release d dev w = some (info, w')) :
    w'.2 = w.2 ++ [(d, .release)] := by
  obtain ⟨v, -, hEq⟩ := Option.map_eq_some_iff.mp h
  cases hEq
  rfl

end Logged

variable [DecidableEq δ]

/-- The callbacks of one instance, in order. -/
def calls (d : δ) (log : Log δ) : List Call := (log.filter fun x => x.1 = d).map (·.2)

theorem calls_append_self (d : δ) (log : Log δ) (cs : List Call) :
    calls d (log ++ cs.map (Prod.mk d)) = calls d log ++ cs := by
  simp [calls, List.filter_map, Function.comp_def]

theorem calls_append_of_ne {d d' : δ} (h : d' ≠ d) (log : Log δ) (cs : List Call) :
    calls d' (log ++ cs.map (Prod.mk d)) = calls d' log := by
  simp [calls, List.filter_map, Function.comp_def, h.symm]

/-- A started driver's calls. -/
def started : List Call := [.probe true, .start true]

/-- What an instance can have seen between two operations. -/
def lives : List (List Call) :=
  [[], [.probe false], [.probe true, .start false], started, started ++ [.stop, .release]]

-- ---------------------------------------------------------------------------
-- The invariant
-- ---------------------------------------------------------------------------

structure History (s : Sys δ (ω × Log δ)) : Prop where
  registry : Registry s
  fresh    : ∀ d, d ∉ s.handed → calls d s.world.2 = []
  attached : ∀ d ∈ drivers s.mgr.devices, calls d s.world.2 = started
  others   : ∀ d, d ∉ drivers s.mgr.devices →
    calls d s.world.2 ∈ lives ∧ calls d s.world.2 ≠ started

namespace History

variable {s : Sys δ (ω × Log δ)}

theorem start (w : ω) : History (Sys.start (w, []) : Sys δ (ω × Log δ)) where
  registry := Registry.start _
  fresh _ _ := rfl
  attached d hd := nomatch hd
  others d _ := ⟨List.mem_cons_self .., by simp [Sys.start, calls, started]⟩

/-- An operation on the devices that keeps the instances. -/
theorem same_drivers {mgr : DeviceManager δ} (h : History s)
    (hRegistry : Registry { s with mgr := mgr })
    (hDrivers : drivers mgr.devices = drivers s.mgr.devices) : History { s with mgr := mgr } where
  registry := hRegistry
  fresh := h.fresh
  attached := hDrivers ▸ h.attached
  others := hDrivers ▸ h.others

/-- A callback leaves another description. -/
theorem describe (h : History s) (id : Nat) (info : DeviceInfo) :
    History { s with mgr := s.mgr.setInfo id info } :=
  h.same_drivers (h.registry.describe id info) (drivers_setInfo s.mgr id info)

/-- A refused instance, with the calls `cs` it saw. -/
theorem refuse (h : History s) {d : δ} (hNew : d ∉ s.handed) {w : ω × Log δ} (cs : List Call)
    (hLog : w.2 = s.world.2 ++ cs.map (Prod.mk d)) (hLife : cs ∈ lives) (hNot : cs ≠ started) :
    History ⟨s.mgr, w, d :: s.handed⟩ := by
  have hOut : d ∉ drivers s.mgr.devices := fun hIn => hNew (h.registry.handedOver d hIn)
  have hOwn : calls d w.2 = cs := by
    rw [hLog, calls_append_self, h.fresh d hNew, List.nil_append]
  have hOther : ∀ d', d' ≠ d → calls d' w.2 = calls d' s.world.2 := fun d' hd' => by
    rw [hLog, calls_append_of_ne hd']
  refine ⟨h.registry.refuse w d, ?_, ?_, ?_⟩
  · intro d' hd'
    rw [List.mem_cons, not_or] at hd'
    rw [hOther d' hd'.1]
    exact h.fresh d' hd'.2
  · intro d' hd'
    rw [hOther d' (fun hEq => hOut (hEq ▸ hd'))]
    exact h.attached d' hd'
  · intro d' hd'
    by_cases hEq : d' = d
    · rw [hEq, hOwn]
      exact ⟨hLife, hNot⟩
    · rw [hOther d' hEq]
      exact h.others d' hd'

/-- A new instance that probed and started is attached. -/
theorem assign (h : History s) {id : Nat} {e : RegistryEntry δ} {d : δ} (hNew : d ∉ s.handed)
    {w : ω × Log δ} (hLog : w.2 = s.world.2 ++ started.map (Prod.mk d))
    (hFind : s.mgr.find id = some e) (hVacant : e.driver = none) :
    History ⟨{ s.mgr with devices := setDriver id (some d) s.mgr.devices }, w, d :: s.handed⟩ := by
  have hOther : ∀ d', d' ≠ d → calls d' w.2 = calls d' s.world.2 := fun d' hd' => by
    rw [hLog, calls_append_of_ne hd']
  have hDrivers := mem_drivers_assign (d := d) hFind hVacant
  refine ⟨h.registry.assign w hFind hVacant hNew, ?_, ?_, ?_⟩
  · intro d' hd'
    rw [List.mem_cons, not_or] at hd'
    rw [hOther d' hd'.1]
    exact h.fresh d' hd'.2
  · intro d' hd'
    by_cases hEq : d' = d
    · rw [hEq, hLog, calls_append_self, h.fresh d hNew, List.nil_append]
    · rw [hOther d' hEq]
      exact h.attached d' (((hDrivers d').mp hd').resolve_left hEq)
  · intro d' hd'
    have hNot := fun hIn => hd' ((hDrivers d').mpr hIn)
    rw [hOther d' fun hEq => hNot (.inl hEq)]
    exact h.others d' fun hIn => hNot (.inr hIn)

/-- A detached instance saw `stop` and `release`. -/
theorem vacate (h : History s) {id : Nat} {e : RegistryEntry δ} {d : δ} {w : ω × Log δ}
    (hLog : w.2 = s.world.2 ++ [Call.stop, .release].map (Prod.mk d))
    (hFind : s.mgr.find id = some e) (hDriver : e.driver = some d) :
    History ⟨{ s.mgr with devices := setDriver id none s.mgr.devices }, w, s.handed⟩ := by
  have hOther : ∀ d', d' ≠ d → calls d' w.2 = calls d' s.world.2 := fun d' hd' => by
    rw [hLog, calls_append_of_ne hd']
  have hDrivers := mem_drivers_vacate hFind hDriver
  have hIn : d ∈ drivers s.mgr.devices := (hDrivers d).mpr (.inl rfl)
  obtain ⟨hRegistry, hOut⟩ := h.registry.vacate w hFind hDriver
  refine ⟨hRegistry, ?_, ?_, ?_⟩
  · intro d' hd'
    rw [hOther d' fun hEq => hd' (hEq ▸ h.registry.handedOver d hIn)]
    exact h.fresh d' hd'
  · intro d' hd'
    rw [hOther d' fun hEq => hOut (hEq ▸ hd')]
    exact h.attached d' ((hDrivers d').mpr (.inr hd'))
  · intro d' hd'
    by_cases hEq : d' = d
    · rw [hEq, hLog, calls_append_self, h.attached d hIn]
      exact ⟨by decide, by decide⟩
    · rw [hOther d' hEq]
      exact h.others d' fun hIn' => ((hDrivers d').mp hIn').elim hEq hd'

theorem attach {drv : Driver δ ω} {id : Nat} {d : δ}
    {r : Except String Unit × DeviceManager δ × (ω × Log δ)} (h : History s) (hNew : d ∉ s.handed)
    (hAttach : Attach (logged drv) s.mgr s.world id d r) :
    History ⟨r.2.1, r.2.2, d :: s.handed⟩ := by
  cases hAttach with
  | noDevice => exact h.refuse hNew [] (by simp) (by decide) (by decide)
  | occupied => exact h.refuse hNew [] (by simp) (by decide) (by decide)
  | probeFailed e msg info w' hFind hDriver hProbe =>
    exact (h.describe id info).refuse hNew [.probe false] (log_of_probe hProbe) (by decide)
      (by decide)
  | startFailed e msg info info' w' w'' hFind hDriver hProbe hStart =>
    refine (h.describe id info').refuse hNew [.probe true, .start false] ?_ (by decide) (by decide)
    rw [log_of_start hStart, log_of_probe hProbe, List.append_assoc]
    rfl
  | attached e info info' w' w'' hFind hDriver hProbe hStart =>
    refine (h.describe id info').assign hNew ?_ (find_setInfo hFind info') hDriver
    rw [log_of_start hStart, log_of_probe hProbe, List.append_assoc]
    rfl

theorem detach {drv : Driver δ ω} {id : Nat}
    {r : Except String Unit × DeviceManager δ × (ω × Log δ)} (h : History s)
    (hDetach : Detach (logged drv) s.mgr s.world id r) : History ⟨r.2.1, r.2.2, s.handed⟩ := by
  cases hDetach with
  | noDevice => exact h
  | vacant => exact h
  | detached e d info info' w' w'' hFind hDriver hStop hRelease =>
    refine (h.describe id info').vacate ?_ (find_setInfo hFind info') hDriver
    rw [log_of_release hRelease, log_of_stop hStop, List.append_assoc]
    rfl

theorem step {drv : Driver δ ω} {s' : Sys δ (ω × Log δ)} {op : Op δ} (h : History s)
    (hStep : s.step (logged drv) op = some s') : History s' := by
  have hRegistry := h.registry.step hStep
  cases op with
  | register info =>
    obtain rfl := Option.some.inj hStep
    exact h.same_drivers hRegistry (by simp [registerDevice, drivers])
  | merge info =>
    obtain rfl := Option.some.inj hStep
    exact h.same_drivers hRegistry (drivers_mergeOrRegister s.mgr info)
  | attach id d =>
    obtain ⟨hNew, r, hAttach, rfl⟩ := Sys.attach_step hStep
    exact h.attach hNew hAttach
  | detach id =>
    obtain ⟨r, hDetach, rfl⟩ := Sys.detach_step hStep
    exact h.detach hDetach

end History

-- ---------------------------------------------------------------------------
-- Runs
-- ---------------------------------------------------------------------------

/-- An operation keeps the entries, in their places. -/
theorem ids_prefix_of_step {drv : Driver δ ω} {s s' : Sys δ ω} {op : Op δ}
    (hStep : s.step drv op = some s') : ids s.mgr.devices <+: ids s'.mgr.devices := by
  cases op with
  | register info =>
    obtain rfl := Option.some.inj hStep
    simp [registerDevice, ids]
  | merge info =>
    obtain rfl := Option.some.inj hStep
    exact (ids_mergeOrRegister s.mgr info).symm ▸ List.prefix_refl _
  | attach id d =>
    obtain ⟨-, r, hAttach, rfl⟩ := Sys.attach_step hStep
    cases hAttach <;> simp only [ids_setDriver, ids_setInfo, List.prefix_refl]
  | detach id =>
    obtain ⟨r, hDetach, rfl⟩ := Sys.detach_step hStep
    cases hDetach <;> simp only [ids_setDriver, ids_setInfo, List.prefix_refl]

/-- Takes even instances only. -/
def evenOnly : ReadOnlyDriver Nat Unit where
  probe d _ w := some (if d % 2 = 0 then .ok () else .error "unsupported", w)
  start _ _ w := some (.ok (), w)
  stop _ _ w := some w
  release _ _ w := some w

def sampleInfo : DeviceInfo := ⟨0xffff, 0xffff, 9, 0, 0, [], [], "sample"⟩

/-- Declines every device, but not without clearing its vendor id. -/
def vendorEraser : Driver Nat Unit where
  probe _ dev w := some (.error "unsupported", { dev.info with vendorId := 0 }, w)
  start _ dev w := some (.ok (), dev.info, w)
  stop _ dev w := some (dev.info, w)
  release _ dev w := some (dev.info, w)

end Neutrix
