import Mathlib.Data.List.Basic
import Neutrix.DriverFramework.Manager
import Neutrix.Lib.Run

/-!
# Neutrix — attaching and detaching drivers

Model of `attach_driver` and `detach_driver` of
`src/driver_framework/manager.rs` over the trait of
`src/driver_framework/driver.rs`.

A driver instance is a value of `δ` (a box has an identity), and what its
callbacks act on is a world `ω`: the instance's own fields, statics, hardware.
Callbacks may do anything to the world, fail, or not come back (`none`: a
panic or a halt). A callback gets the device by reference, and its description
is behind a mutex of its own, so a callback may also write the description:
each of them returns the description it leaves. They do not call the manager.
A box is moved into `attach_driver`, so an instance is handed over once
(`Sys.handed`).

`Attach` and `Detach` list the outcomes of the two functions,
`Sys.attach_step` and `Sys.detach_step` those of a whole operation. From
them follow the invariants of the registry (`Registry`) that hold with any
drivers. The kernel's own drivers only read the description
(`ReadOnlyDriver`); for those `Attach` and `Detach` have no description to
put back.
-/

namespace Neutrix

variable {δ ω : Type*}

-- ---------------------------------------------------------------------------
-- Drivers
-- ---------------------------------------------------------------------------

/-- The trait `Driver`, with the state its callbacks act on. Each callback returns the
description it leaves in the device. -/
structure Driver (δ ω : Type*) where
  probe   : δ → Device → ω → Option (Except String Unit × DeviceInfo × ω)
  start   : δ → Device → ω → Option (Except String Unit × DeviceInfo × ω)
  stop    : δ → Device → ω → Option (DeviceInfo × ω)
  release : δ → Device → ω → Option (DeviceInfo × ω)

/-- The device with another description. -/
def Device.withInfo (dev : Device) (info : DeviceInfo) : Device := { dev with info := info }

namespace DeviceManager

/-- `devices.iter_mut().find(|e| e.device.id == device_id)`. -/
def find (mgr : DeviceManager δ) (id : Nat) : Option (RegistryEntry δ) :=
  mgr.devices.find? fun e => e.device.id = id

/-- Changes the entry that `find` finds. -/
def edit (id : Nat) (f : RegistryEntry δ → RegistryEntry δ) :
    List (RegistryEntry δ) → List (RegistryEntry δ)
  | [] => []
  | e :: rest => if e.device.id = id then f e :: rest else e :: edit id f rest

/-- Assigns the `driver` field of the entry that `find` finds. -/
def setDriver (id : Nat) (driver : Option δ) (es : List (RegistryEntry δ)) :
    List (RegistryEntry δ) :=
  edit id (fun e => { e with driver := driver }) es

/-- The description that a callback left in the device. -/
def setInfo (mgr : DeviceManager δ) (id : Nat) (info : DeviceInfo) : DeviceManager δ :=
  { mgr with devices := edit id (fun e => { e with device := e.device.withInfo info }) mgr.devices }

def noDevice (id : Nat) : String := "no device with id " ++ toString id

def hasDriver (id : Nat) : String := "device " ++ toString id ++ " already has a driver"

def hasNoDriver (id : Nat) : String := "device " ++ toString id ++ " has no driver"

def attachDriver (drv : Driver δ ω) (mgr : DeviceManager δ) (w : ω) (deviceId : Nat) (driver : δ) :
    Option (Except String Unit × DeviceManager δ × ω) :=
  match mgr.find deviceId with
  | none => some (.error (noDevice deviceId), mgr, w)
  | some entry =>
    if entry.driver.isSome then some (.error (hasDriver deviceId), mgr, w)
    else
      match drv.probe driver entry.device w with
      | none => none
      | some (.error e, info, w) =>
        some (.error ("probe failed: " ++ e), mgr.setInfo deviceId info, w)
      | some (.ok _, info, w) =>
        match drv.start driver (entry.device.withInfo info) w with
        | none => none
        | some (.error e, info, w) =>
          some (.error ("start failed: " ++ e), mgr.setInfo deviceId info, w)
        | some (.ok _, info, w) =>
          let mgr := mgr.setInfo deviceId info
          some (.ok (), { mgr with devices := setDriver deviceId (some driver) mgr.devices }, w)

def detachDriver (drv : Driver δ ω) (mgr : DeviceManager δ) (w : ω) (deviceId : Nat) :
    Option (Except String Unit × DeviceManager δ × ω) :=
  match mgr.find deviceId with
  | none => some (.error (noDevice deviceId), mgr, w)
  | some entry =>
    match entry.driver with
    | none => some (.error (hasNoDriver deviceId), mgr, w)
    | some driver =>
      match drv.stop driver entry.device w with
      | none => none
      | some (info, w) =>
        match drv.release driver (entry.device.withInfo info) w with
        | none => none
        | some (info, w) =>
          let mgr := mgr.setInfo deviceId info
          some (.ok (), { mgr with devices := setDriver deviceId none mgr.devices }, w)

-- ---------------------------------------------------------------------------
-- Outcomes
-- ---------------------------------------------------------------------------

/-- The outcomes of `attach_driver`. -/
inductive Attach (drv : Driver δ ω) (mgr : DeviceManager δ) (w : ω) (id : Nat) (d : δ) :
    Except String Unit × DeviceManager δ × ω → Prop where
  | noDevice (hFind : mgr.find id = none) : Attach drv mgr w id d (.error (noDevice id), mgr, w)
  | occupied (e : RegistryEntry δ) (d' : δ) (hFind : mgr.find id = some e)
      (hDriver : e.driver = some d') : Attach drv mgr w id d (.error (hasDriver id), mgr, w)
  | probeFailed (e : RegistryEntry δ) (msg : String) (info : DeviceInfo) (w' : ω)
      (hFind : mgr.find id = some e) (hDriver : e.driver = none)
      (hProbe : drv.probe d e.device w = some (.error msg, info, w')) :
      Attach drv mgr w id d (.error ("probe failed: " ++ msg), mgr.setInfo id info, w')
  | startFailed (e : RegistryEntry δ) (msg : String) (info info' : DeviceInfo) (w' w'' : ω)
      (hFind : mgr.find id = some e) (hDriver : e.driver = none)
      (hProbe : drv.probe d e.device w = some (.ok (), info, w'))
      (hStart : drv.start d (e.device.withInfo info) w' = some (.error msg, info', w'')) :
      Attach drv mgr w id d (.error ("start failed: " ++ msg), mgr.setInfo id info', w'')
  | attached (e : RegistryEntry δ) (info info' : DeviceInfo) (w' w'' : ω)
      (hFind : mgr.find id = some e) (hDriver : e.driver = none)
      (hProbe : drv.probe d e.device w = some (.ok (), info, w'))
      (hStart : drv.start d (e.device.withInfo info) w' = some (.ok (), info', w'')) :
      Attach drv mgr w id d (.ok (), { mgr.setInfo id info' with
        devices := setDriver id (some d) (mgr.setInfo id info').devices }, w'')

theorem attach_of_eq {drv : Driver δ ω} {mgr : DeviceManager δ} {w : ω} {id : Nat} {d : δ}
    {r : Except String Unit × DeviceManager δ × ω} (h : attachDriver drv mgr w id d = some r) :
    Attach drv mgr w id d r := by
  unfold attachDriver at h
  cases hFind : mgr.find id with
  | none =>
    simp only [hFind, Option.some.injEq] at h
    exact h ▸ .noDevice hFind
  | some e =>
    simp only [hFind] at h
    cases hDriver : e.driver with
    | some d' =>
      simp only [hDriver, Option.isSome_some, if_true, Option.some.injEq] at h
      exact h ▸ .occupied e d' hFind hDriver
    | none =>
      simp only [hDriver, Option.isSome_none, Bool.false_eq_true, if_false] at h
      rcases hProbe : drv.probe d e.device w with _ | ⟨_ | _, info, w'⟩
      · simp only [hProbe, reduceCtorEq] at h
      · simp only [hProbe, Option.some.injEq] at h
        exact h ▸ .probeFailed e _ info w' hFind hDriver hProbe
      · simp only [hProbe] at h
        rcases hStart : drv.start d (e.device.withInfo info) w' with _ | ⟨_ | _, info', w''⟩
        · simp only [hStart, reduceCtorEq] at h
        · simp only [hStart, Option.some.injEq] at h
          exact h ▸ .startFailed e _ info info' w' w'' hFind hDriver hProbe hStart
        · simp only [hStart, Option.some.injEq] at h
          exact h ▸ .attached e info info' w' w'' hFind hDriver hProbe hStart

/-- The outcomes of `detach_driver`. -/
inductive Detach (drv : Driver δ ω) (mgr : DeviceManager δ) (w : ω) (id : Nat) :
    Except String Unit × DeviceManager δ × ω → Prop where
  | noDevice (hFind : mgr.find id = none) : Detach drv mgr w id (.error (noDevice id), mgr, w)
  | vacant (e : RegistryEntry δ) (hFind : mgr.find id = some e) (hDriver : e.driver = none) :
      Detach drv mgr w id (.error (hasNoDriver id), mgr, w)
  | detached (e : RegistryEntry δ) (d : δ) (info info' : DeviceInfo) (w' w'' : ω)
      (hFind : mgr.find id = some e) (hDriver : e.driver = some d)
      (hStop : drv.stop d e.device w = some (info, w'))
      (hRelease : drv.release d (e.device.withInfo info) w' = some (info', w'')) :
      Detach drv mgr w id (.ok (), { mgr.setInfo id info' with
        devices := setDriver id none (mgr.setInfo id info').devices }, w'')

theorem detach_of_eq {drv : Driver δ ω} {mgr : DeviceManager δ} {w : ω} {id : Nat}
    {r : Except String Unit × DeviceManager δ × ω} (h : detachDriver drv mgr w id = some r) :
    Detach drv mgr w id r := by
  unfold detachDriver at h
  cases hFind : mgr.find id with
  | none =>
    simp only [hFind, Option.some.injEq] at h
    exact h ▸ .noDevice hFind
  | some e =>
    simp only [hFind] at h
    cases hDriver : e.driver with
    | none =>
      simp only [hDriver, Option.some.injEq] at h
      exact h ▸ .vacant e hFind hDriver
    | some d =>
      simp only [hDriver] at h
      rcases hStop : drv.stop d e.device w with _ | ⟨info, w'⟩
      · simp only [hStop, reduceCtorEq] at h
      · simp only [hStop] at h
        rcases hRelease : drv.release d (e.device.withInfo info) w' with _ | ⟨info', w''⟩
        · simp only [hRelease, reduceCtorEq] at h
        · simp only [hRelease, Option.some.injEq] at h
          exact h ▸ .detached e d info info' w' w'' hFind hDriver hStop hRelease

theorem detach_error {drv : Driver δ ω} {mgr mgr' : DeviceManager δ} {w w' : ω} {id : Nat}
    {msg : String} (h : detachDriver drv mgr w id = some (.error msg, mgr', w')) :
    mgr' = mgr := by
  cases detach_of_eq h <;> rfl

-- ---------------------------------------------------------------------------
-- Entries
-- ---------------------------------------------------------------------------

def ids (es : List (RegistryEntry δ)) : List Nat := es.map fun e => e.device.id

/-- The instances the registry owns. -/
def drivers (es : List (RegistryEntry δ)) : List δ := es.filterMap fun e => e.driver

/-- The entry found, with what stands before and behind it. -/
theorem find_some {mgr : DeviceManager δ} {id : Nat} {e : RegistryEntry δ}
    (h : mgr.find id = some e) :
    e.device.id = id ∧ ∃ pre post, mgr.devices = pre ++ e :: post ∧
      (∀ e' ∈ pre, e'.device.id ≠ id) ∧ ∀ f, edit id f mgr.devices = pre ++ f e :: post := by
  obtain ⟨hId, pre, post, hDevices, hPre⟩ := List.find?_eq_some_iff_append.mp h
  replace hPre : ∀ e' ∈ pre, e'.device.id ≠ id := by simpa using hPre
  simp only [decide_eq_true_eq] at hId
  refine ⟨hId, pre, post, hDevices, hPre, fun f => ?_⟩
  rw [hDevices]
  clear hDevices h
  induction pre with
  | nil => rw [List.nil_append, List.nil_append, edit, if_pos hId]
  | cons e' pre ih =>
    rw [List.cons_append, edit, if_neg (hPre e' (List.mem_cons_self ..)),
      ih fun e he => hPre e (List.mem_cons_of_mem _ he), List.cons_append]

/-- The instance's `probe`, or its `start` after a successful `probe`, fails and leaves
the description `info`. -/
inductive FailsLeaving (drv : Driver δ ω) (w : ω) (d : δ) (dev : Device) (info : DeviceInfo) :
    Prop where
  | probe (msg : String) (w' : ω) (hProbe : drv.probe d dev w = some (.error msg, info, w'))
  | start (msg : String) (info' : DeviceInfo) (w' w'' : ω)
      (hProbe : drv.probe d dev w = some (.ok (), info', w'))
      (hStart : drv.start d (dev.withInfo info') w' = some (.error msg, info, w''))

/-- A call that returns `Err` leaves the registry as it was, or changes the description of
the one entry whose driver failed to what the driver left. -/
theorem attach_error {drv : Driver δ ω} {mgr mgr' : DeviceManager δ} {w w' : ω} {id : Nat} {d : δ}
    {msg : String} (h : attachDriver drv mgr w id d = some (.error msg, mgr', w')) :
    mgr' = mgr ∨ ∃ e pre post info, mgr.devices = pre ++ e :: post ∧ e.device.id = id ∧
      e.driver = none ∧ FailsLeaving drv w d e.device info ∧
      mgr' = { mgr with
        devices := pre ++ { e with device := e.device.withInfo info } :: post } := by
  cases attach_of_eq h with
  | noDevice | occupied => exact .inl rfl
  | probeFailed e msg info w' hFind hDriver hProbe =>
    obtain ⟨hId, pre, post, hDevices, -, hSet⟩ := find_some hFind
    refine .inr ⟨e, pre, post, info, hDevices, hId, hDriver, .probe msg _ hProbe, ?_⟩
    rw [setInfo, hSet]
  | startFailed e msg info info' w' w'' hFind hDriver hProbe hStart =>
    obtain ⟨hId, pre, post, hDevices, -, hSet⟩ := find_some hFind
    refine .inr ⟨e, pre, post, info', hDevices, hId, hDriver, .start msg info _ _ hProbe hStart, ?_⟩
    rw [setInfo, hSet]

/-- The instances, with the found entry's own in the middle. -/
theorem drivers_of_find {mgr : DeviceManager δ} {id : Nat} {e : RegistryEntry δ}
    (h : mgr.find id = some e) :
    ∃ pre post, drivers mgr.devices = pre ++ e.driver.toList ++ post ∧
      ∀ driver : Option δ,
        drivers (setDriver id driver mgr.devices) = pre ++ driver.toList ++ post := by
  obtain ⟨-, pre, post, hDevices, -, hSet⟩ := find_some h
  have hSplit : ∀ e : RegistryEntry δ,
      drivers (pre ++ e :: post) = drivers pre ++ e.driver.toList ++ drivers post := by
    intro e
    cases hDriver : e.driver <;> simp [drivers, hDriver]
  refine ⟨drivers pre, drivers post, hDevices ▸ hSplit e, fun driver => ?_⟩
  rw [setDriver, hSet, hSplit]

theorem mem_drivers_assign {mgr : DeviceManager δ} {id : Nat} {e : RegistryEntry δ} {d : δ}
    (hFind : mgr.find id = some e) (hVacant : e.driver = none) (d' : δ) :
    d' ∈ drivers (setDriver id (some d) mgr.devices) ↔ d' = d ∨ d' ∈ drivers mgr.devices := by
  obtain ⟨pre, post, hOld, hNow⟩ := drivers_of_find hFind
  simp only [hOld, hNow, hVacant, Option.toList_none, Option.toList_some, List.mem_append,
    List.mem_singleton, List.not_mem_nil]
  tauto

theorem mem_drivers_vacate {mgr : DeviceManager δ} {id : Nat} {e : RegistryEntry δ} {d : δ}
    (hFind : mgr.find id = some e) (hDriver : e.driver = some d) (d' : δ) :
    d' ∈ drivers mgr.devices ↔ d' = d ∨ d' ∈ drivers (setDriver id none mgr.devices) := by
  obtain ⟨pre, post, hOld, hNow⟩ := drivers_of_find hFind
  simp only [hOld, hNow, hDriver, Option.toList_none, Option.toList_some, List.mem_append,
    List.mem_singleton, List.not_mem_nil]
  tauto

theorem eq_of_id_eq {es : List (RegistryEntry δ)} (hIds : (ids es).Nodup) {e e' : RegistryEntry δ}
    (he : e ∈ es) (he' : e' ∈ es) (hEq : e.device.id = e'.device.id) : e = e' :=
  List.inj_on_of_nodup_map hIds he he' hEq

theorem mem_of_find {mgr : DeviceManager δ} {id : Nat} {e : RegistryEntry δ}
    (h : mgr.find id = some e) : e ∈ mgr.devices :=
  List.mem_of_find?_eq_some h

theorem find_of_mem {mgr : DeviceManager δ} (hIds : (ids mgr.devices).Nodup) {e : RegistryEntry δ}
    (he : e ∈ mgr.devices) : mgr.find e.device.id = some e := by
  cases hFind : mgr.find e.device.id with
  | none =>
    rw [find, List.find?_eq_none] at hFind
    exact absurd (decide_eq_true rfl) (hFind e he)
  | some e' => rw [eq_of_id_eq hIds (mem_of_find hFind) he (find_some hFind).1]

theorem ids_edit (id : Nat) {f : RegistryEntry δ → RegistryEntry δ}
    (hf : ∀ e, (f e).device.id = e.device.id) (es : List (RegistryEntry δ)) :
    ids (edit id f es) = ids es := by
  induction es with
  | nil => rfl
  | cons e es ih =>
    rw [edit]
    split_ifs
    · exact congrArg (· :: ids es) (hf e)
    · exact congrArg (e.device.id :: ·) ih

theorem ids_setDriver (id : Nat) (driver : Option δ) (es : List (RegistryEntry δ)) :
    ids (setDriver id driver es) = ids es := by
  rw [setDriver, ids_edit]
  exact fun _ => rfl

theorem ids_setInfo (mgr : DeviceManager δ) (id : Nat) (info : DeviceInfo) :
    ids (mgr.setInfo id info).devices = ids mgr.devices := by
  rw [setInfo, ids_edit]
  exact fun _ => rfl

theorem drivers_setInfo (mgr : DeviceManager δ) (id : Nat) (info : DeviceInfo) :
    drivers (mgr.setInfo id info).devices = drivers mgr.devices := by
  unfold setInfo
  generalize mgr.devices = es
  induction es with
  | nil => rfl
  | cons e es ih =>
    simp only [edit, drivers] at ih ⊢
    split_ifs
    · rfl
    · rw [List.filterMap_cons, List.filterMap_cons, ih]

/-- The entry found, once its description is written. -/
theorem find_setInfo {mgr : DeviceManager δ} {id : Nat} {e : RegistryEntry δ}
    (h : mgr.find id = some e) (info : DeviceInfo) :
    (mgr.setInfo id info).find id = some { e with device := e.device.withInfo info } := by
  obtain ⟨hId, pre, post, -, hPre, hEdit⟩ := find_some h
  refine List.find?_eq_some_iff_append.mpr ⟨decide_eq_true hId, pre, post, hEdit _, ?_⟩
  simpa using hPre

/-- Writing back the description that is there changes nothing. -/
theorem setInfo_self {mgr : DeviceManager δ} {id : Nat} {e : RegistryEntry δ}
    (h : mgr.find id = some e) : mgr.setInfo id e.device.info = mgr := by
  obtain ⟨-, pre, post, hDevices, -, hEdit⟩ := find_some h
  rw [setInfo, hEdit]
  obtain ⟨devices, nextId⟩ := mgr
  exact congrArg (DeviceManager.mk · nextId) hDevices.symm

/-- With distinct ids, one entry changes and the others stay. -/
theorem mem_setDriver {mgr : DeviceManager δ} {id : Nat} {e e' : RegistryEntry δ}
    {driver : Option δ} (hIds : (ids mgr.devices).Nodup) (hFind : mgr.find id = some e) :
    e' ∈ setDriver id driver mgr.devices ↔
      e' = { e with driver := driver } ∨ (e' ∈ mgr.devices ∧ e'.device.id ≠ id) := by
  obtain ⟨hId, pre, post, hDevices, -, hSet⟩ := find_some hFind
  rw [setDriver, hSet, hDevices]
  rw [hDevices, ids, List.map_append, List.map_cons, List.nodup_append, List.nodup_cons] at hIds
  obtain ⟨-, ⟨hPost, -⟩, hPre⟩ := hIds
  have hOther : ∀ e' ∈ pre ++ post, e'.device.id ≠ id := by
    intro e' he' hEq
    rcases List.mem_append.mp he' with hIn | hIn
    · exact hPre _ (List.mem_map_of_mem hIn) _ (List.mem_cons_self ..) (hEq.trans hId.symm)
    · exact hPost (hId ▸ hEq ▸ List.mem_map_of_mem hIn)
  simp only [List.mem_append, List.mem_cons] at hOther ⊢
  constructor
  · rintro (hIn | rfl | hIn)
    · exact .inr ⟨.inl hIn, hOther e' (.inl hIn)⟩
    · exact .inl rfl
    · exact .inr ⟨.inr (.inr hIn), hOther e' (.inr hIn)⟩
  · rintro (rfl | ⟨hIn | rfl | hIn, hNe⟩)
    · exact .inr (.inl rfl)
    · exact .inl hIn
    · exact absurd hId hNe
    · exact .inr (.inr hIn)

/-- A merge changes no id and no driver. -/
theorem mergeFirst_frame {info : DeviceInfo} {es es' : List (RegistryEntry δ)} {id : Nat}
    (h : mergeFirst info es = some (id, es')) : ids es' = ids es ∧ drivers es' = drivers es := by
  induction es generalizing es' with
  | nil => cases h
  | cons e rest ih =>
    rw [mergeFirst] at h
    split_ifs at h with hKey
    · cases h
      exact ⟨rfl, rfl⟩
    · obtain ⟨⟨id', rest'⟩, hRest, hEq⟩ := Option.map_eq_some_iff.mp h
      cases hEq
      obtain ⟨hIds, hDrivers⟩ := ih hRest
      refine ⟨congrArg (e.device.id :: ·) hIds, ?_⟩
      simp only [drivers] at hDrivers ⊢
      rw [List.filterMap_cons, List.filterMap_cons, hDrivers]

theorem ids_mergeOrRegister (mgr : DeviceManager δ) (info : DeviceInfo) :
    ids (mgr.mergeOrRegister info).2.devices = ids mgr.devices := by
  rw [mergeOrRegister]
  cases hMerge : mergeFirst info mgr.devices with
  | none => rfl
  | some r => exact (mergeFirst_frame hMerge).1

theorem drivers_mergeOrRegister (mgr : DeviceManager δ) (info : DeviceInfo) :
    drivers (mgr.mergeOrRegister info).2.devices = drivers mgr.devices := by
  rw [mergeOrRegister]
  cases hMerge : mergeFirst info mgr.devices with
  | none => rfl
  | some r => exact (mergeFirst_frame hMerge).2

theorem nextId_mergeOrRegister (mgr : DeviceManager δ) (info : DeviceInfo) :
    (mgr.mergeOrRegister info).2.nextId = mgr.nextId := by
  rw [mergeOrRegister]
  cases mergeFirst info mgr.devices <;> rfl

end DeviceManager

-- ---------------------------------------------------------------------------
-- Runs
-- ---------------------------------------------------------------------------

/-- The manager, the world, and the instances handed to `attach_driver` so far. -/
structure Sys (δ ω : Type*) where
  mgr    : DeviceManager δ
  world  : ω
  handed : List δ

def Sys.start (w : ω) : Sys δ ω := ⟨DeviceManager.new, w, []⟩

inductive Op (δ : Type*) where
  | register (info : DeviceInfo)
  | merge (info : DeviceInfo)
  | attach (id : Nat) (d : δ)
  | detach (id : Nat)

/-- One call. A run ends when a callback does not come back. -/
def Sys.step [DecidableEq δ] (drv : Driver δ ω) (s : Sys δ ω) : Op δ → Option (Sys δ ω)
  | .register info => some { s with mgr := (s.mgr.registerDevice info).2 }
  | .merge info => some { s with mgr := (s.mgr.mergeOrRegister info).2 }
  | .attach id d =>
    if d ∈ s.handed then none
    else (s.mgr.attachDriver drv s.world id d).map fun r => ⟨r.2.1, r.2.2, d :: s.handed⟩
  | .detach id => (s.mgr.detachDriver drv s.world id).map fun r => ⟨r.2.1, r.2.2, s.handed⟩

theorem Sys.attach_step [DecidableEq δ] {drv : Driver δ ω} {s s' : Sys δ ω} {id : Nat} {d : δ}
    (h : s.step drv (.attach id d) = some s') :
    d ∉ s.handed ∧
      ∃ r, DeviceManager.Attach drv s.mgr s.world id d r ∧ s' = ⟨r.2.1, r.2.2, d :: s.handed⟩ := by
  simp only [Sys.step, Option.ite_none_left_eq_some, Option.map_eq_some_iff] at h
  obtain ⟨hNew, r, hAttach, rfl⟩ := h
  exact ⟨hNew, r, DeviceManager.attach_of_eq hAttach, rfl⟩

theorem Sys.detach_step [DecidableEq δ] {drv : Driver δ ω} {s s' : Sys δ ω} {id : Nat}
    (h : s.step drv (.detach id) = some s') :
    ∃ r, DeviceManager.Detach drv s.mgr s.world id r ∧ s' = ⟨r.2.1, r.2.2, s.handed⟩ := by
  simp only [Sys.step, Option.map_eq_some_iff] at h
  obtain ⟨r, hDetach, rfl⟩ := h
  exact ⟨r, DeviceManager.detach_of_eq hDetach, rfl⟩

/-- What holds of the registry with any drivers. -/
structure Registry (s : Sys δ ω) : Prop where
  distinctIds     : (DeviceManager.ids s.mgr.devices).Nodup
  idsBelow        : ∀ id ∈ DeviceManager.ids s.mgr.devices, id < s.mgr.nextId
  distinctDrivers : (DeviceManager.drivers s.mgr.devices).Nodup
  handedOver      : ∀ d ∈ DeviceManager.drivers s.mgr.devices, d ∈ s.handed

namespace Registry

open DeviceManager
open scoped List

variable {s : Sys δ ω}

theorem start (w : ω) : Registry (Sys.start w : Sys δ ω) where
  distinctIds := List.nodup_nil
  idsBelow := by simp [Sys.start, DeviceManager.new, ids]
  distinctDrivers := List.nodup_nil
  handedOver := by simp [Sys.start, DeviceManager.new, drivers]

theorem register (h : Registry s) (info : DeviceInfo) :
    Registry { s with mgr := (s.mgr.registerDevice info).2 } where
  distinctIds := by
    simp only [registerDevice, ids, List.map_append, List.map_cons, List.map_nil]
    rw [List.nodup_append]
    refine ⟨h.distinctIds, List.nodup_singleton _, fun id hId id' hId' => ?_⟩
    rw [List.mem_singleton.mp hId']
    exact Nat.ne_of_lt (h.idsBelow id hId)
  idsBelow := by
    intro id hId
    simp only [registerDevice, ids, List.map_append, List.map_cons, List.map_nil,
      List.mem_append, List.mem_singleton] at hId ⊢
    rcases hId with hOld | rfl
    · exact Nat.lt_succ_of_lt (h.idsBelow id hOld)
    · exact Nat.lt_succ_self _
  distinctDrivers := by simpa [registerDevice, drivers] using h.distinctDrivers
  handedOver := by simpa [registerDevice, drivers] using h.handedOver

theorem merge (h : Registry s) (info : DeviceInfo) :
    Registry { s with mgr := (s.mgr.mergeOrRegister info).2 } where
  distinctIds := (ids_mergeOrRegister s.mgr info).symm ▸ h.distinctIds
  idsBelow := by
    rw [ids_mergeOrRegister, nextId_mergeOrRegister]
    exact h.idsBelow
  distinctDrivers := (drivers_mergeOrRegister s.mgr info).symm ▸ h.distinctDrivers
  handedOver := (drivers_mergeOrRegister s.mgr info).symm ▸ h.handedOver

/-- A callback leaves another description. -/
theorem describe (h : Registry s) (id : Nat) (info : DeviceInfo) :
    Registry { s with mgr := s.mgr.setInfo id info } where
  distinctIds := (ids_setInfo s.mgr id info).symm ▸ h.distinctIds
  idsBelow := (ids_setInfo s.mgr id info).symm ▸ h.idsBelow
  distinctDrivers := (drivers_setInfo s.mgr id info).symm ▸ h.distinctDrivers
  handedOver := (drivers_setInfo s.mgr id info).symm ▸ h.handedOver

/-- An instance is refused and dropped. -/
theorem refuse (h : Registry s) (w : ω) (d : δ) : Registry ⟨s.mgr, w, d :: s.handed⟩ :=
  ⟨h.distinctIds, h.idsBelow, h.distinctDrivers, fun d' hd' =>
    List.mem_cons_of_mem _ (h.handedOver d' hd')⟩

/-- A new instance moves into a vacant entry. -/
theorem assign (h : Registry s) {id : Nat} {e : RegistryEntry δ} {d : δ} (w : ω)
    (hFind : s.mgr.find id = some e) (hVacant : e.driver = none) (hNew : d ∉ s.handed) :
    Registry ⟨{ s.mgr with devices := setDriver id (some d) s.mgr.devices }, w, d :: s.handed⟩ := by
  obtain ⟨pre, post, hOld, hNow⟩ := drivers_of_find hFind
  rw [hVacant, Option.toList_none, List.append_nil] at hOld
  have hMem : ∀ d' ∈ pre ++ post, d' ∈ s.handed := hOld ▸ h.handedOver
  have hPerm : drivers (setDriver id (some d) s.mgr.devices) ~ d :: (pre ++ post) := by
    rw [hNow, Option.toList_some, List.append_assoc]
    exact List.perm_middle
  refine ⟨(ids_setDriver id _ _).symm ▸ h.distinctIds, (ids_setDriver id _ _).symm ▸ h.idsBelow,
    hPerm.nodup_iff.mpr ?_, fun d' hd' => ?_⟩
  · exact List.nodup_cons.mpr ⟨fun hIn => hNew (hMem d hIn), hOld ▸ h.distinctDrivers⟩
  · rcases List.mem_cons.mp (hPerm.mem_iff.mp hd') with rfl | hIn
    · exact List.mem_cons_self ..
    · exact List.mem_cons_of_mem _ (hMem d' hIn)

/-- An instance leaves its entry. -/
theorem vacate (h : Registry s) {id : Nat} {e : RegistryEntry δ} {d : δ} (w : ω)
    (hFind : s.mgr.find id = some e) (hDriver : e.driver = some d) :
    Registry ⟨{ s.mgr with devices := setDriver id none s.mgr.devices }, w, s.handed⟩ ∧
      d ∉ drivers (setDriver id none s.mgr.devices) := by
  obtain ⟨pre, post, hOld, hNow⟩ := drivers_of_find hFind
  rw [hDriver, Option.toList_some, List.append_assoc] at hOld
  have hNone : drivers (setDriver id none s.mgr.devices) = pre ++ post := by
    rw [hNow, Option.toList_none, List.append_nil]
  have hPerm : drivers s.mgr.devices ~ d :: (pre ++ post) := hOld ▸ List.perm_middle
  obtain ⟨hOut, hNodup⟩ := List.nodup_cons.mp (hPerm.nodup_iff.mp h.distinctDrivers)
  refine ⟨⟨(ids_setDriver id _ _).symm ▸ h.distinctIds, (ids_setDriver id _ _).symm ▸ h.idsBelow,
    hNone.symm ▸ hNodup, fun d' hd' => ?_⟩, hNone.symm ▸ hOut⟩
  exact h.handedOver d' (hPerm.mem_iff.mpr (List.mem_cons_of_mem _ (hNone ▸ hd')))

theorem step [DecidableEq δ] {drv : Driver δ ω} {s' : Sys δ ω} {op : Op δ} (h : Registry s)
    (hStep : s.step drv op = some s') : Registry s' := by
  cases op with
  | register info => exact Option.some.inj hStep ▸ h.register info
  | merge info => exact Option.some.inj hStep ▸ h.merge info
  | attach id d =>
    obtain ⟨hNew, r, hAttach, rfl⟩ := Sys.attach_step hStep
    cases hAttach with
    | noDevice | occupied => exact h.refuse _ d
    | probeFailed e msg info w' => exact (h.describe id info).refuse w' d
    | startFailed e msg info info' w' w'' => exact (h.describe id info').refuse w'' d
    | attached e info info' w' w'' hFind hVacant _ _ =>
      exact (h.describe id info').assign w'' (find_setInfo hFind info') hVacant hNew
  | detach id =>
    obtain ⟨r, hDetach, rfl⟩ := Sys.detach_step hStep
    cases hDetach with
    | noDevice | vacant => exact h
    | detached e d info info' w' w'' hFind hDriver _ _ =>
      exact ((h.describe id info').vacate w'' (find_setInfo hFind info') hDriver).1

end Registry

-- ---------------------------------------------------------------------------
-- Drivers that only read the description
-- ---------------------------------------------------------------------------

/-- A driver whose callbacks leave the description as they find it. -/
structure ReadOnlyDriver (δ ω : Type*) where
  probe   : δ → Device → ω → Option (Except String Unit × ω)
  start   : δ → Device → ω → Option (Except String Unit × ω)
  stop    : δ → Device → ω → Option ω
  release : δ → Device → ω → Option ω

namespace ReadOnlyDriver

open DeviceManager

def toDriver (drv : ReadOnlyDriver δ ω) : Driver δ ω where
  probe d dev w := (drv.probe d dev w).map fun r => (r.1, dev.info, r.2)
  start d dev w := (drv.start d dev w).map fun r => (r.1, dev.info, r.2)
  stop d dev w := (drv.stop d dev w).map fun w => (dev.info, w)
  release d dev w := (drv.release d dev w).map fun w => (dev.info, w)

/-- The outcomes of `attach_driver` with such a driver. -/
inductive Attach (drv : ReadOnlyDriver δ ω) (mgr : DeviceManager δ) (w : ω) (id : Nat) (d : δ) :
    DeviceManager δ → ω → Prop where
  | refused : Attach drv mgr w id d mgr w
  | probeFailed (e : RegistryEntry δ) (msg : String) (w' : ω)
      (hProbe : drv.probe d e.device w = some (.error msg, w')) : Attach drv mgr w id d mgr w'
  | startFailed (e : RegistryEntry δ) (msg : String) (w' w'' : ω)
      (hProbe : drv.probe d e.device w = some (.ok (), w'))
      (hStart : drv.start d e.device w' = some (.error msg, w'')) : Attach drv mgr w id d mgr w''
  | attached (e : RegistryEntry δ) (w' w'' : ω) (hFind : mgr.find id = some e)
      (hDriver : e.driver = none) (hProbe : drv.probe d e.device w = some (.ok (), w'))
      (hStart : drv.start d e.device w' = some (.ok (), w'')) :
      Attach drv mgr w id d { mgr with devices := setDriver id (some d) mgr.devices } w''

/-- The outcomes of `detach_driver`. -/
inductive Detach (drv : ReadOnlyDriver δ ω) (mgr : DeviceManager δ) (w : ω) (id : Nat) :
    DeviceManager δ → ω → Prop where
  | noDevice (hFind : mgr.find id = none) : Detach drv mgr w id mgr w
  | vacant (e : RegistryEntry δ) (hFind : mgr.find id = some e) (hDriver : e.driver = none) :
      Detach drv mgr w id mgr w
  | detached (e : RegistryEntry δ) (d : δ) (w' w'' : ω) (hFind : mgr.find id = some e)
      (hDriver : e.driver = some d) (hStop : drv.stop d e.device w = some w')
      (hRelease : drv.release d e.device w' = some w'') :
      Detach drv mgr w id { mgr with devices := setDriver id none mgr.devices } w''

section

variable {drv : ReadOnlyDriver δ ω} {d : δ} {dev : Device} {w w' : ω} {r : Except String Unit}
  {info : DeviceInfo}

theorem of_probe (h : drv.toDriver.probe d dev w = some (r, info, w')) :
    drv.probe d dev w = some (r, w') ∧ info = dev.info := by
  obtain ⟨v, hProbe, hEq⟩ := Option.map_eq_some_iff.mp h
  cases hEq
  exact ⟨hProbe, rfl⟩

theorem of_start (h : drv.toDriver.start d dev w = some (r, info, w')) :
    drv.start d dev w = some (r, w') ∧ info = dev.info := by
  obtain ⟨v, hStart, hEq⟩ := Option.map_eq_some_iff.mp h
  cases hEq
  exact ⟨hStart, rfl⟩

theorem of_stop (h : drv.toDriver.stop d dev w = some (info, w')) :
    drv.stop d dev w = some w' ∧ info = dev.info := by
  obtain ⟨v, hStop, hEq⟩ := Option.map_eq_some_iff.mp h
  cases hEq
  exact ⟨hStop, rfl⟩

theorem of_release (h : drv.toDriver.release d dev w = some (info, w')) :
    drv.release d dev w = some w' ∧ info = dev.info := by
  obtain ⟨v, hRelease, hEq⟩ := Option.map_eq_some_iff.mp h
  cases hEq
  exact ⟨hRelease, rfl⟩

end

variable [DecidableEq δ] {drv : ReadOnlyDriver δ ω} {s s' : Sys δ ω} {id : Nat} {d : δ}

theorem attach_step (h : s.step drv.toDriver (.attach id d) = some s') :
    d ∉ s.handed ∧
      ∃ mgr w, drv.Attach s.mgr s.world id d mgr w ∧ s' = ⟨mgr, w, d :: s.handed⟩ := by
  obtain ⟨hNew, r, hAttach, rfl⟩ := Sys.attach_step h
  refine ⟨hNew, _, _, ?_, rfl⟩
  cases hAttach with
  | noDevice | occupied => exact .refused
  | probeFailed e msg info w' hFind hDriver hProbe =>
    obtain ⟨hProbe', rfl⟩ := of_probe hProbe
    rw [setInfo_self hFind]
    exact .probeFailed e _ _ hProbe'
  | startFailed e msg info info' w' w'' hFind hDriver hProbe hStart =>
    obtain ⟨hProbe', rfl⟩ := of_probe hProbe
    obtain ⟨hStart', rfl⟩ := of_start hStart
    rw [Device.withInfo, setInfo_self hFind]
    exact .startFailed e _ _ _ hProbe' hStart'
  | attached e info info' w' w'' hFind hDriver hProbe hStart =>
    obtain ⟨hProbe', rfl⟩ := of_probe hProbe
    obtain ⟨hStart', rfl⟩ := of_start hStart
    rw [Device.withInfo, setInfo_self hFind]
    exact .attached e _ _ hFind hDriver hProbe' hStart'

theorem detach_step (h : s.step drv.toDriver (.detach id) = some s') :
    ∃ mgr w, drv.Detach s.mgr s.world id mgr w ∧ s' = ⟨mgr, w, s.handed⟩ := by
  obtain ⟨r, hDetach, rfl⟩ := Sys.detach_step h
  refine ⟨_, _, ?_, rfl⟩
  cases hDetach with
  | noDevice hFind => exact .noDevice hFind
  | vacant e hFind hDriver => exact .vacant e hFind hDriver
  | detached e d info info' w' w'' hFind hDriver hStop hRelease =>
    obtain ⟨hStop', rfl⟩ := of_stop hStop
    obtain ⟨hRelease', rfl⟩ := of_release hRelease
    rw [Device.withInfo, setInfo_self hFind]
    exact .detached e d _ _ hFind hDriver hStop' hRelease'

end ReadOnlyDriver

end Neutrix
