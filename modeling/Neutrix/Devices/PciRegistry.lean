import Neutrix.Devices.PciScan

/-!
# Neutrix — the registry after the PCI scan

The scan is meant to give each present function an entry of its own.
`registered_iff` says exactly when it does: the scan has to reach every
function, no two may share vendor and device id (the key by which
`merge_or_register` takes them for one device), and functions outside
segment group 0 must show their capability list through the ports, too.

Without an MCFG table the scan registers nothing (`legacyScan_eq`), so the
two access paths agree only on a machine without PCI functions
(`legacy_agrees_iff`).
-/

namespace Neutrix.Pci

open Neutrix.Lib

section Registry

variable {δ : Type*} {physOffset : UInt64} {m : Machine RegBank} {mcfgs : List McfgAllocation}
  {mgr : DeviceManager δ}

/-- A registry without PCI devices: no entry has the ids of a reachable
function. -/
def NoPciDevices (m : Machine RegBank) (mcfgs : List McfgAllocation) (mgr : DeviceManager δ) :
    Prop :=
  ∀ e ∈ mgr.devices, ∀ a, Reachable m mcfgs a → e.key ≠ m.ids a

/-- Entry `e` describes function `a`: its ids, and exactly its resources and
capabilities. -/
structure Describes (physOffset : UInt64) (m : Machine RegBank) (e : RegistryEntry δ)
    (a : FuncAddr) : Prop where
  ids          : e.key = m.ids a
  resources    : e.device.info.resources = (m.ownRecord physOffset a).resources
  capabilities : e.device.info.capabilities = (m.ownRecord physOffset a).capabilities

/-- Each reachable function has its own entry, with its own device id. -/
def Registered (physOffset : UInt64) (m : Machine RegBank) (mcfgs : List McfgAllocation)
    (mgr : DeviceManager δ) : Prop :=
  ∃ deviceId : FuncAddr → Nat,
    (∀ a b, Reachable m mcfgs a → Reachable m mcfgs b → deviceId a = deviceId b → a = b) ∧
    ∀ a, Reachable m mcfgs a →
      ∃ e ∈ mgr.devices, e.device.id = deviceId a ∧ Describes physOffset m e a

/-- What the scan needs to find of the machine. -/
structure Distinguishable (physOffset : UInt64) (m : Machine RegBank)
    (mcfgs : List McfgAllocation) : Prop where
  announced : ∀ a, Reachable m mcfgs a → Announced m a
  ids       : ∀ a b, Reachable m mcfgs a → Reachable m mcfgs b → m.ids a = m.ids b → a = b
  ports     : ∀ a, Reachable m mcfgs a → a.segment ≠ 0 →
    (m.scanRecord physOffset a).resources = (m.ownRecord physOffset a).resources ∧
    (m.scanRecord physOffset a).capabilities = (m.ownRecord physOffset a).capabilities

/-- The registry after the scan, as old and new entries. -/
theorem scan_added (physOffset : UInt64) (hE : EcamOk m mcfgs) (hNe : mcfgs ≠ [])
    (hNew : NoPciDevices m mcfgs mgr) :
    ∃ new, DeviceManager.Added mgr ((visited m mcfgs).map (m.scanRecord physOffset))
      (scanAndRegisterWithPhysOffset physOffset mcfgs (m, mgr)).2 new := by
  rw [scan_eq physOffset hE hNe]
  refine DeviceManager.added_foldl mgr _ fun e he i hi => ?_
  obtain ⟨a, ha, rfl⟩ := List.mem_map.mp hi
  exact hNew e he a (mem_visited.mp ha).1

/-- The entry of a reachable function is one of the new ones. -/
theorem mem_new_of_key {infos : List DeviceInfo} {final : DeviceManager δ}
    {new : List (RegistryEntry δ)} (hAdded : DeviceManager.Added mgr infos final new)
    (hNew : NoPciDevices m mcfgs mgr) {a : FuncAddr} (ha : Reachable m mcfgs a)
    {e : RegistryEntry δ} (he : e ∈ final.devices) (hKey : e.key = m.ids a) : e ∈ new := by
  rw [hAdded.devices] at he
  exact (List.mem_append.mp he).resolve_left fun hOld => hNew e hOld a ha hKey

/-- With distinct ids, the entry with the ids of a function holds its record. -/
theorem info_of_key {final : DeviceManager δ} {new : List (RegistryEntry δ)}
    (hAdded : DeviceManager.Added mgr ((visited m mcfgs).map (m.scanRecord physOffset)) final new)
    (hIds : ∀ a b, Reachable m mcfgs a → Reachable m mcfgs b → m.ids a = m.ids b → a = b)
    {a : FuncAddr} (ha : Reachable m mcfgs a) {e : RegistryEntry δ} (he : e ∈ new)
    (hKey : e.key = m.ids a) : e.device.info = m.scanRecord physOffset a := by
  have hSame : ∀ i ∈ (visited m mcfgs).map (m.scanRecord physOffset),
      ∀ j ∈ (visited m mcfgs).map (m.scanRecord physOffset), i.key = j.key → i = j := by
    intro i hi j hj hEq
    obtain ⟨b, hb, rfl⟩ := List.mem_map.mp hi
    obtain ⟨c, hc, rfl⟩ := List.mem_map.mp hj
    rw [hIds b c (mem_visited.mp hb).1 (mem_visited.mp hc).1 hEq]
  obtain ⟨b, hb, hInfo⟩ := List.mem_map.mp (hAdded.exact hSame e he)
  have hab : a = b := by
    refine hIds a b ha (mem_visited.mp hb).1 ?_
    rw [← hKey, RegistryEntry.key, ← hInfo]
    rfl
  rw [hab, hInfo]

/-- A registry in which each function has its entry tells the functions apart. -/
theorem Registered.distinguishable (hE : EcamOk m mcfgs) (hNe : mcfgs ≠ [])
    (hNew : NoPciDevices m mcfgs mgr)
    (hR : Registered physOffset m mcfgs
      (scanAndRegisterWithPhysOffset physOffset mcfgs (m, mgr)).2) :
    Distinguishable physOffset m mcfgs := by
  obtain ⟨new, hAdded⟩ := scan_added physOffset hE hNe hNew
  obtain ⟨deviceId, hInj, hEntry⟩ := hR
  have hIds : ∀ a b, Reachable m mcfgs a → Reachable m mcfgs b → m.ids a = m.ids b → a = b := by
    intro a b ha hb hKey
    obtain ⟨e, he, hId, hDesc⟩ := hEntry a ha
    obtain ⟨e', he', hId', hDesc'⟩ := hEntry b hb
    -- the new entries have pairwise different keys, so `e` and `e'` are one
    have hSame : e = e' := List.inj_on_of_nodup_map hAdded.keys
      (mem_new_of_key hAdded hNew ha he hDesc.ids) (mem_new_of_key hAdded hNew hb he' hDesc'.ids)
      (hDesc.ids.trans (hKey.trans hDesc'.ids.symm))
    exact hInj a b ha hb (by rw [← hId, ← hId', hSame])
  -- the entry's key comes from a visited function with the same ids
  have hVisited : ∀ a, Reachable m mcfgs a → a ∈ visited m mcfgs := by
    intro a ha
    obtain ⟨e, he, -, hDesc⟩ := hEntry a ha
    obtain ⟨i, hi, hKey⟩ := hAdded.sound e (mem_new_of_key hAdded hNew ha he hDesc.ids)
    obtain ⟨b, hb, rfl⟩ := List.mem_map.mp hi
    rwa [hIds a b ha (mem_visited.mp hb).1 (hDesc.ids.symm.trans hKey.symm)]
  refine ⟨fun a ha => (mem_visited.mp (hVisited a ha)).2, hIds, fun a ha _ => ?_⟩
  obtain ⟨e, he, -, hDesc⟩ := hEntry a ha
  rw [← info_of_key hAdded hIds ha (mem_new_of_key hAdded hNew ha he hDesc.ids) hDesc.ids]
  exact ⟨hDesc.resources, hDesc.capabilities⟩

/-- Functions that can be told apart are registered one by one. -/
theorem Distinguishable.registered (hE : EcamOk m mcfgs) (hNe : mcfgs ≠ [])
    (hNew : NoPciDevices m mcfgs mgr) (hD : Distinguishable physOffset m mcfgs) :
    Registered physOffset m mcfgs
      (scanAndRegisterWithPhysOffset physOffset mcfgs (m, mgr)).2 := by
  obtain ⟨new, hAdded⟩ := scan_added physOffset hE hNe hNew
  have hOwn : ∀ a, Reachable m mcfgs a →
      (m.scanRecord physOffset a).resources = (m.ownRecord physOffset a).resources ∧
      (m.scanRecord physOffset a).capabilities = (m.ownRecord physOffset a).capabilities := by
    intro a ha
    by_cases hSeg : a.segment = 0
    · obtain ⟨alloc, -, hCov⟩ := ha.covered
      rw [scanRecord_eq_ownRecord physOffset hSeg hCov.slot hCov.func]
      exact ⟨rfl, rfl⟩
    · exact hD.ports a ha hSeg
  -- the entry with the ids of `a` holds the record of `a`
  have hFind : ∀ a, Reachable m mcfgs a →
      ∃ id, ∃ e ∈ new, e.device.id = id ∧ e.device.info = m.scanRecord physOffset a := by
    intro a ha
    have hVisited : a ∈ visited m mcfgs := mem_visited.mpr ⟨ha, hD.announced a ha⟩
    obtain ⟨e, he, hKey⟩ := hAdded.complete _ (List.mem_map_of_mem hVisited)
    exact ⟨_, e, he, rfl, info_of_key hAdded hD.ids ha he hKey⟩
  choose! deviceId hEntry using hFind
  refine ⟨deviceId, fun a b ha hb hId => ?_, fun a ha => ?_⟩
  · obtain ⟨e, he, hIdA, hInfo⟩ := hEntry a ha
    obtain ⟨e', he', hIdB, hInfo'⟩ := hEntry b hb
    have hNodup : (new.map fun e => e.device.id).Nodup := by
      rw [hAdded.ids]
      exact List.nodup_range'
    have hSame : e = e' :=
      List.inj_on_of_nodup_map hNodup he he' (hIdA.trans (hId.trans hIdB.symm))
    refine hD.ids a b ha hb ?_
    rw [← record_key physOffset m a, ← record_key physOffset m b]
    exact congrArg DeviceInfo.key (hInfo.symm.trans ((congrArg (·.device.info) hSame).trans hInfo'))
  · obtain ⟨e, he, hId, hInfo⟩ := hEntry a ha
    refine ⟨e, ?_, hId, ?_, ?_, ?_⟩
    · rw [hAdded.devices]
      exact List.mem_append_right _ he
    · rw [RegistryEntry.key, hInfo]
      rfl
    · rw [hInfo, (hOwn a ha).1]
    · rw [hInfo, (hOwn a ha).2]

end Registry

-- ---------------------------------------------------------------------------
-- Example machines
-- ---------------------------------------------------------------------------

/-- The decoding of an ECAM window for all buses of a segment group. -/
def window (base : UInt64) (segment : UInt16) (phys : UInt64) : Option FuncAddr :=
  let off := phys - base
  if off < 0x10000000 ∧ off % 0x1000 = 0 then
    some ⟨segment, (off >>> 20).toUInt8, ((off >>> 15) % 32).toUInt8, ((off >>> 12) % 8).toUInt8⟩
  else none

theorem window_cfgAddr (base : UInt64) (a : FuncAddr) (hSlot : a.slot.toNat < 32)
    (hFunc : a.func.toNat < 8) :
    window base a.segment (cfgAddr base a.bus a.slot a.func) = some a := by
  obtain ⟨segment, bus, slot, func⟩ := a
  replace hSlot : slot.toNat < 32 := hSlot
  replace hFunc : func.toNat < 8 := hFunc
  have hBus := bus.toNat_lt
  have hOff : (cfgAddr base bus slot func - base).toNat =
      bus.toNat * 2 ^ 20 + slot.toNat * 2 ^ 15 + func.toNat * 2 ^ 12 := by
    have hSub : cfgAddr base bus slot func - base =
        (bus.toUInt64 <<< 20) + (slot.toUInt64 <<< 15) + (func.toUInt64 <<< 12) := by
      rw [cfgAddr, UInt64.add_assoc, UInt64.add_assoc, UInt64.add_comm base,
        UInt64.add_sub_cancel, UInt64.add_assoc]
    rw [hSub]
    simp [Nat.shiftLeft_eq]
    omega
  simp only [window]
  generalize cfgAddr base bus slot func - base = off at hOff
  have hIn : off < 0x10000000 ∧ off % 0x1000 = 0 := by
    constructor
    · simp [UInt64.lt_iff_toNat_lt, hOff]
      omega
    · apply UInt64.toNat_inj.mp
      simp [hOff]
      omega
  have hB : (off >>> 20).toUInt8 = bus := by
    apply UInt8.toNat_inj.mp
    simp [Nat.shiftRight_eq_div_pow]
    omega
  have hS : ((off >>> 15) % 32).toUInt8 = slot := by
    apply UInt8.toNat_inj.mp
    simp [Nat.shiftRight_eq_div_pow]
    omega
  have hF : ((off >>> 12) % 8).toUInt8 = func := by
    apply UInt8.toNat_inj.mp
    simp [Nat.shiftRight_eq_div_pow]
    omega
  rw [if_pos hIn, hB, hS, hF]

/-- A machine whose functions have the given ids (device id in the upper half)
and no BARs, interrupts or capabilities. -/
def plainMachine (functions : List (FuncAddr × UInt32)) : Machine RegBank where
  funcs a :=
    match functions.lookup a with
    | some ids => fun i => ⟨if i = 0 then ids else 0, 0⟩
    | none => fun _ => ⟨0xFFFFFFFF, 0⟩
  ecam := window 0xB0000000 0
  memory _ := 0

/-- One allocation for all buses of segment group 0. -/
def wholeSegment (base : UInt64) : McfgAllocation := ⟨base, 0, 0, 255⟩

theorem plainMachine_ecamOk (functions : List (FuncAddr × UInt32)) :
    EcamOk (plainMachine functions) [wholeSegment 0xB0000000] := by
  intro alloc hAlloc a hCov
  obtain rfl := List.mem_singleton.mp hAlloc
  have hSeg : a.segment = 0 := hCov.segment
  have hEcam : (plainMachine functions).ecam = window 0xB0000000 a.segment := by
    rw [hSeg]
    rfl
  rw [hEcam]
  exact window_cfgAddr _ a hCov.slot hCov.func

/-- A present function is one of the list. -/
theorem mem_of_plainMachine_present {functions : List (FuncAddr × UInt32)} {a : FuncAddr}
    (h : (plainMachine functions).present a) : a ∈ functions.map Prod.fst := by
  by_contra hNot
  have hNone : functions.lookup a = none := by
    rw [List.lookup_eq_none_iff]
    intro p hp
    refine bne_iff_ne.mpr fun hEq => hNot ?_
    rw [hEq]
    exact List.mem_map_of_mem hp
  revert h
  simp only [Machine.present, plainMachine, hNone]
  decide

-- ---------------------------------------------------------------------------
-- Functions and entries
-- ---------------------------------------------------------------------------

section Legacy

variable {σ δ : Type*} [ConfigAccess σ]

theorem foldl_id {ι : Type*} {β : Type*} {step : β → ι → β} (hStep : ∀ s x, step s x = s)
    (xs : List ι) (s : β) : xs.foldl step s = s := by
  induction xs with
  | nil => rfl
  | cons x xs ih => rw [List.foldl_cons, hStep, ih]

/-- The port-based scan looks at every function and keeps nothing. -/
theorem legacyScan_eq (s : Machine σ × DeviceManager δ) : legacyScan s = s := by
  have hFunction : ∀ bus slot (s : Machine σ × DeviceManager δ) func,
      legacyFunction bus slot s func = s := fun bus slot s func => by
    rw [legacyFunction, ite_self]
  have hSlot : ∀ bus (s : Machine σ × DeviceManager δ) slot, legacySlot bus s slot = s := by
    intro bus s slot
    rw [legacySlot, foldl_id (hFunction bus slot), ite_self]
  exact foldl_id (fun s bus => foldl_id (hSlot bus) _ s) _ s

theorem scan_nil (physOffset : UInt64) (s : Machine σ × DeviceManager δ) :
    scanAndRegisterWithPhysOffset physOffset [] s = s := by
  rw [scanAndRegisterWithPhysOffset, if_pos List.isEmpty_nil, legacyScan_eq]

/-- The records in the registry. -/
def records (mgr : DeviceManager δ) : List DeviceInfo := mgr.devices.map fun e => e.device.info

/-- The paths leave the same records only if the ECAM path visits nothing. -/
theorem records_eq_iff_visited (physOffset : UInt64) {m : Machine RegBank}
    {mcfgs : List McfgAllocation} {mgr : DeviceManager δ} (hE : EcamOk m mcfgs) (hNe : mcfgs ≠ [])
    (hNew : NoPciDevices m mcfgs mgr) :
    records (scanAndRegisterWithPhysOffset physOffset [] (m, mgr)).2 =
        records (scanAndRegisterWithPhysOffset physOffset mcfgs (m, mgr)).2 ↔
      visited m mcfgs = [] := by
  obtain ⟨new, hAdded⟩ := scan_added physOffset hE hNe hNew
  rw [scan_nil, records, records, hAdded.devices, List.map_append, List.self_eq_append_right,
    List.map_eq_nil_iff]
  constructor
  · rintro rfl
    rw [List.eq_nil_iff_forall_not_mem]
    intro a ha
    obtain ⟨e, he, -⟩ := hAdded.complete _ (List.mem_map_of_mem ha)
    exact List.not_mem_nil he
  · intro hNone
    rw [List.eq_nil_iff_forall_not_mem]
    intro e he
    obtain ⟨i, hi, -⟩ := hAdded.sound e he
    rw [hNone] at hi
    exact List.not_mem_nil hi

end Legacy

/-- **Ports and ECAM.** Both paths register the same records exactly on a machine
where no slot has a function 0. -/
theorem legacy_agrees_iff {δ : Type*} (physOffset base : UInt64) (m : Machine RegBank)
    (mgr : DeviceManager δ) (hE : EcamOk m [wholeSegment base])
    (hNew : NoPciDevices m [wholeSegment base] mgr) :
    records (scanAndRegisterWithPhysOffset physOffset [] (m, mgr)).2 =
        records (scanAndRegisterWithPhysOffset physOffset [wholeSegment base] (m, mgr)).2 ↔
      ∀ bus slot : UInt8, slot.toNat < 32 → ¬ m.present ⟨0, bus, slot, 0⟩ := by
  rw [records_eq_iff_visited physOffset hE (by simp) hNew, List.eq_nil_iff_forall_not_mem]
  constructor
  · intro hNone bus slot hSlot hPresent
    -- function 0 announces itself
    have hAnn : Announced m ⟨0, bus, slot, 0⟩ :=
      ⟨hPresent, maxFuncs_pos _⟩
    have hCov : (wholeSegment base).Covers ⟨0, bus, slot, 0⟩ :=
      ⟨rfl, UInt8.le_iff_toNat_le.mpr (Nat.zero_le _),
        UInt8.le_iff_toNat_le.mpr (Nat.le_of_lt_succ bus.toNat_lt), hSlot, Nat.zero_lt_succ _⟩
    exact hNone _ (mem_visited.mpr ⟨⟨hPresent, _, List.mem_singleton_self _, hCov⟩, hAnn⟩)
  · intro hNone a ha
    obtain ⟨⟨-, alloc, hAlloc, hCov⟩, hAnn⟩ := mem_visited.mp ha
    obtain rfl := List.mem_singleton.mp hAlloc
    have hSeg : a.segment = 0 := hCov.segment
    have hZero := hAnn.zero
    rw [hSeg] at hZero
    exact hNone a.bus a.slot hCov.slot hZero

/-- A function 1 without a function 0 is on neither path. -/
theorem legacy_agrees_noFunctionZero :
    (plainMachine [(⟨0, 0, 2, 1⟩, 0x100E8086)]).present ⟨0, 0, 2, 1⟩ ∧
    records (scanAndRegisterWithPhysOffset 0 []
        (plainMachine [(⟨0, 0, 2, 1⟩, 0x100E8086)],
          (DeviceManager.new : DeviceManager Unit))).2 =
      records (scanAndRegisterWithPhysOffset 0 [wholeSegment 0xB0000000]
        (plainMachine [(⟨0, 0, 2, 1⟩, 0x100E8086)],
          (DeviceManager.new : DeviceManager Unit))).2 := by
  refine ⟨by decide, (legacy_agrees_iff 0 _ _ _ (plainMachine_ecamOk _)
    (by simp [NoPciDevices, DeviceManager.new])).mpr fun bus slot _ h => ?_⟩
  simpa using mem_of_plainMachine_present h

/-- **The legacy path loses a host bridge.** -/
theorem legacy_misses_host_bridge :
    EcamOk (plainMachine [(⟨0, 0, 0, 0⟩, 0x29C08086)]) [wholeSegment 0xB0000000] ∧
    records (scanAndRegisterWithPhysOffset 0 []
        (plainMachine [(⟨0, 0, 0, 0⟩, 0x29C08086)],
          (DeviceManager.new : DeviceManager Unit))).2 = [] ∧
    records (scanAndRegisterWithPhysOffset 0 [wholeSegment 0xB0000000]
        (plainMachine [(⟨0, 0, 0, 0⟩, 0x29C08086)],
          (DeviceManager.new : DeviceManager Unit))).2 ≠ [] := by
  have hE := plainMachine_ecamOk [(⟨0, 0, 0, 0⟩, 0x29C08086)]
  have hLegacy : records (scanAndRegisterWithPhysOffset 0 []
      (plainMachine [(⟨0, 0, 0, 0⟩, 0x29C08086)],
        (DeviceManager.new : DeviceManager Unit))).2 = [] := by
    rw [scan_nil]
    rfl
  refine ⟨hE, hLegacy, fun hEq => ?_⟩
  have hVisited := (records_eq_iff_visited 0 hE (by simp)
    (by simp [NoPciDevices, DeviceManager.new])).mp (hLegacy.trans hEq.symm)
  have hMem : (⟨0, 0, 0, 0⟩ : FuncAddr) ∈ visited (plainMachine [(⟨0, 0, 0, 0⟩, 0x29C08086)])
      [wholeSegment 0xB0000000] :=
    mem_visited.mpr ⟨⟨by decide, _, List.mem_singleton_self _, rfl, by decide, by decide,
      by decide, by decide⟩, by decide, by decide⟩
  rw [hVisited] at hMem
  exact List.not_mem_nil hMem

end Neutrix.Pci
