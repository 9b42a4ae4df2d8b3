import Mathlib.Data.List.Infix
import Mathlib.Data.List.Nodup
import Neutrix.Lib.AddMissing

/-!
# Neutrix — devices and the device manager

Model of `src/driver_framework/device.rs` and of the registration part of
`src/driver_framework/manager.rs`: `register_device` and
`merge_or_register`. Drivers are an arbitrary type `δ`.

The scan of a bus sends every function it finds through
`merge_or_register` and registers those that were not merged
(`DeviceManager.add`). `added_foldl` says what the registry looks like
after any list of such steps: one new entry per vendor/device pair.
-/

namespace Neutrix

open Neutrix.Lib

-- ---------------------------------------------------------------------------
-- Device descriptions
-- ---------------------------------------------------------------------------

inductive ResourceKind where
  | memoryMapped
  | io
  | interrupt (line : UInt8)
  | msi (vectors : UInt8) (addr64 maskable : Bool) (msgAddr : UInt64) (msgData : UInt16)
  | msix (tableBar : UInt8) (tableOffset : UInt32) (tableSize : UInt16)
      (tablePresent firstEntryMasked : Bool)
deriving DecidableEq, Repr

/-- A resource a device exposes (BARs, IRQs, IO ports). -/
structure Resource where
  kind : ResourceKind
  addr : UInt64
  len  : UInt64
deriving DecidableEq, Repr

/-- Parsed entries of the PCI capability list. -/
inductive Capability where
  | powerManagement (pmCap pmcsr : UInt16)
  | pciExpress (header deviceCap : UInt32)
  | other (id : UInt8) (raw0 raw1 : UInt32)
deriving DecidableEq, Repr

structure DeviceInfo where
  vendorId     : UInt16
  deviceId     : UInt16
  class_       : UInt8
  subclass     : UInt8
  progIf       : UInt8
  resources    : List Resource
  capabilities : List Capability
  description  : String
deriving DecidableEq, Repr

structure Device where
  id   : Nat
  info : DeviceInfo
deriving DecidableEq, Repr

structure RegistryEntry (δ : Type*) where
  device : Device
  driver : Option δ

/-- `GLOBAL_MANAGER` together with `NEXT_DEVICE_ID`. -/
structure DeviceManager (δ : Type*) where
  devices : List (RegistryEntry δ)
  nextId  : Nat

variable {δ : Type*}

namespace DeviceManager

-- ---------------------------------------------------------------------------
-- Registration
-- ---------------------------------------------------------------------------

def new : DeviceManager δ := { devices := [], nextId := 1 }

def registerDevice (mgr : DeviceManager δ) (info : DeviceInfo) : Nat × DeviceManager δ :=
  let id := mgr.nextId
  let entry : RegistryEntry δ := { device := { id, info }, driver := none }
  (id, { devices := mgr.devices ++ [entry], nextId := mgr.nextId + 1 })

def addResource (existing : List Resource) (r : Resource) : List Resource :=
  if existing.any fun er => er.kind = r.kind && er.addr = r.addr then existing else existing ++ [r]

/-- The source compares the derived `Debug` texts, which show the variant and all
its fields. -/
def addCapability (existing : List Capability) (c : Capability) : List Capability :=
  if existing.any fun ec => ec = c then existing else existing ++ [c]

/-- What `merge_or_register` does to the matching device. -/
def mergeInfo (existing info : DeviceInfo) : DeviceInfo :=
  { existing with
    resources := info.resources.foldl addResource existing.resources
    capabilities := info.capabilities.foldl addCapability existing.capabilities
    description :=
      if info.description.toList <:+: existing.description.toList then existing.description
      else existing.description ++ "; " ++ info.description }

def mergeEntry (e : RegistryEntry δ) (info : DeviceInfo) : RegistryEntry δ :=
  { e with device := { e.device with info := mergeInfo e.device.info info } }

/-- The first entry with the ids of `info` takes the merge. -/
def mergeFirst (info : DeviceInfo) : List (RegistryEntry δ) → Option (Nat × List (RegistryEntry δ))
  | [] => none
  | e :: rest =>
    let i := e.device.info
    if i.vendorId = info.vendorId ∧ i.deviceId = info.deviceId then
      some (e.device.id, mergeEntry e info :: rest)
    else
      (mergeFirst info rest).map fun (id, rest) => (id, e :: rest)

/-- Returns the id of the device that took the merge, `none` if there was none:
despite its name it does not register. -/
def mergeOrRegister (mgr : DeviceManager δ) (info : DeviceInfo) : Option Nat × DeviceManager δ :=
  match mergeFirst info mgr.devices with
  | some (id, devices) => (some id, { mgr with devices := devices })
  | none => (none, mgr)

/-- What the PCI scan does with every function it finds. -/
def add (mgr : DeviceManager δ) (info : DeviceInfo) : DeviceManager δ :=
  match mgr.mergeOrRegister info with
  | (some _, mgr) => mgr
  | (none, mgr) => (mgr.registerDevice info).2

end DeviceManager

-- ---------------------------------------------------------------------------
-- Merging
-- ---------------------------------------------------------------------------

/-- What `merge_or_register` identifies a resource by. -/
def Resource.key (r : Resource) : ResourceKind × UInt64 := (r.kind, r.addr)

/-- What `merge_or_register` identifies a device by. -/
def DeviceInfo.key (info : DeviceInfo) : UInt16 × UInt16 := (info.vendorId, info.deviceId)

def RegistryEntry.key (e : RegistryEntry δ) : UInt16 × UInt16 := e.device.info.key

namespace DeviceManager

theorem addResource_eq : addResource = addMissing Resource.key := by
  funext existing r
  have hIff : (existing.any fun er => er.kind = r.kind && er.addr = r.addr) = true ↔
      r.key ∈ existing.map Resource.key := by
    simp only [List.any_eq_true, Bool.and_eq_true, decide_eq_true_eq, List.mem_map, Resource.key,
      Prod.mk.injEq]
  by_cases hKey : r.key ∈ existing.map Resource.key
  · rw [addMissing_of_mem hKey, addResource, if_pos (hIff.mpr hKey)]
  · rw [addMissing_of_notMem hKey, addResource, if_neg (mt hIff.mp hKey)]

theorem addCapability_eq : addCapability = addMissing id := by
  funext existing c
  have hIff : (existing.any fun ec => ec = c) = true ↔ id c ∈ existing.map id := by
    simp only [List.any_eq_true, decide_eq_true_eq, exists_eq_right, List.map_id, id_eq]
  by_cases hKey : id c ∈ existing.map id
  · rw [addMissing_of_mem hKey, addCapability, if_pos (hIff.mpr hKey)]
  · rw [addMissing_of_notMem hKey, addCapability, if_neg (mt hIff.mp hKey)]

/-- A device found a second time merges into itself without a trace. -/
theorem mergeInfo_self (info : DeviceInfo) : mergeInfo info info = info := by
  rw [mergeInfo, addResource_eq, addCapability_eq,
    foldl_addMissing_fixed fun _ h => List.mem_map_of_mem h,
    foldl_addMissing_fixed fun _ h => List.mem_map_of_mem h, if_pos (List.infix_refl _)]

@[simp] theorem mergeEntry_key (e : RegistryEntry δ) (info : DeviceInfo) :
    (mergeEntry e info).key = e.key := rfl

@[simp] theorem mergeEntry_id (e : RegistryEntry δ) (info : DeviceInfo) :
    (mergeEntry e info).device.id = e.device.id := rfl

theorem mergeFirst_none {info : DeviceInfo} {es : List (RegistryEntry δ)}
    (h : ∀ e ∈ es, e.key ≠ info.key) : mergeFirst info es = none := by
  induction es with
  | nil => rfl
  | cons e rest ih =>
    have hHead : ¬ (e.device.info.vendorId = info.vendorId ∧
        e.device.info.deviceId = info.deviceId) :=
      fun hEq => h e (List.mem_cons_self ..) (Prod.ext hEq.1 hEq.2)
    rw [mergeFirst, if_neg hHead, ih fun e he => h e (List.mem_cons_of_mem _ he)]
    rfl

/-- The merge goes into the first entry with the key and leaves the rest alone. -/
theorem mergeFirst_some {info : DeviceInfo} {pre post : List (RegistryEntry δ)}
    {e : RegistryEntry δ} (hPre : ∀ e ∈ pre, e.key ≠ info.key) (hKey : e.key = info.key) :
    mergeFirst info (pre ++ e :: post) =
      some (e.device.id, pre ++ mergeEntry e info :: post) := by
  induction pre with
  | nil =>
    have hHead : e.device.info.vendorId = info.vendorId ∧ e.device.info.deviceId = info.deviceId :=
      Prod.mk.inj hKey
    rw [List.nil_append, mergeFirst, if_pos hHead]
    rfl
  | cons e' rest ih =>
    have hHead : ¬ (e'.device.info.vendorId = info.vendorId ∧
        e'.device.info.deviceId = info.deviceId) :=
      fun hEq => hPre e' (List.mem_cons_self ..) (Prod.ext hEq.1 hEq.2)
    rw [List.cons_append, mergeFirst, if_neg hHead,
      ih fun e he => hPre e (List.mem_cons_of_mem _ he)]
    rfl

-- ---------------------------------------------------------------------------
-- Adding a list of devices
-- ---------------------------------------------------------------------------

/-- From `old`, adding `infos` one after the other leads to the entries `new`
behind the old ones: one for every key, with consecutive ids. As long as equal
keys come from equal descriptions, the entries hold these descriptions. -/
structure Added (old : DeviceManager δ) (infos : List DeviceInfo) (mgr : DeviceManager δ)
    (new : List (RegistryEntry δ)) : Prop where
  devices  : mgr.devices = old.devices ++ new
  nextId   : mgr.nextId = old.nextId + new.length
  ids      : new.map (fun e => e.device.id) = List.range' old.nextId new.length
  keys     : (new.map RegistryEntry.key).Nodup
  sound    : ∀ e ∈ new, ∃ i ∈ infos, i.key = e.key
  complete : ∀ i ∈ infos, ∃ e ∈ new, e.key = i.key
  exact    : (∀ i ∈ infos, ∀ j ∈ infos, i.key = j.key → i = j) →
    ∀ e ∈ new, e.device.info ∈ infos

theorem added_nil (old : DeviceManager δ) : Added old [] old [] where
  devices  := (List.append_nil _).symm
  nextId   := rfl
  ids      := rfl
  keys     := List.nodup_nil
  sound    := by simp
  complete := by simp
  exact    := by simp

/-- Merge step: the new entry with the key absorbs the description. -/
theorem Added.merge {old mgr : DeviceManager δ} {infos : List DeviceInfo} {info : DeviceInfo}
    {pre post : List (RegistryEntry δ)} {e : RegistryEntry δ}
    (h : Added old infos mgr (pre ++ e :: post)) (hOld : ∀ e ∈ old.devices, e.key ≠ info.key)
    (hKey : e.key = info.key) :
    Added old (infos ++ [info]) (mgr.add info) (pre ++ mergeEntry e info :: post) := by
  have hKeys := h.keys
  rw [List.map_append, List.map_cons] at hKeys
  have hPre : ∀ e' ∈ old.devices ++ pre, e'.key ≠ info.key := by
    intro e' he'
    rcases List.mem_append.mp he' with hMem | hMem
    · exact hOld e' hMem
    · rw [← hKey]
      exact (List.nodup_append.mp hKeys).2.2 _ (List.mem_map_of_mem hMem) _
        (List.mem_cons_self ..)
  have hMgr : mgr.add info =
      { mgr with devices := ((old.devices ++ pre) ++ mergeEntry e info :: post) } := by
    rw [add, mergeOrRegister, h.devices, ← List.append_assoc, mergeFirst_some hPre hKey]
  have hMem : ∀ e', e' ∈ pre ++ mergeEntry e info :: post ↔
      e' = mergeEntry e info ∨ e' ∈ pre ++ post := by
    intro e'
    simp only [List.mem_append, List.mem_cons]
    tauto
  have hMem₀ : ∀ e' ∈ pre ++ post, e' ∈ pre ++ e :: post := by
    intro e' he'
    rw [List.mem_append, List.mem_cons]
    rcases List.mem_append.mp he' with hIn | hIn
    · exact .inl hIn
    · exact .inr (.inr hIn)
  have hMemE : e ∈ pre ++ e :: post := List.mem_append_right _ (List.mem_cons_self ..)
  refine ⟨?_, ?_, ?_, ?_, fun e' he' => ?_, fun i hi => ?_, fun hSame e' he' => ?_⟩
  · rw [hMgr, List.append_assoc]
  · rw [hMgr, h.nextId]
    simp
  · simpa using h.ids
  · simpa using h.keys
  · rcases (hMem e').mp he' with rfl | hRest
    · exact ⟨info, List.mem_append_right _ (List.mem_singleton_self _), hKey.symm⟩
    · obtain ⟨i, hi, hiKey⟩ := h.sound e' (hMem₀ e' hRest)
      exact ⟨i, List.mem_append_left _ hi, hiKey⟩
  · -- the key of an earlier description is still there
    have hFound : ∃ e' ∈ pre ++ e :: post, e'.key = i.key := by
      rcases List.mem_append.mp hi with hIn | hIn
      · exact h.complete i hIn
      · exact ⟨e, hMemE, by rw [List.mem_singleton.mp hIn, hKey]⟩
    obtain ⟨e', he', hk'⟩ := hFound
    rw [List.mem_append, List.mem_cons] at he'
    rcases he' with hIn | rfl | hIn
    · exact ⟨e', (hMem e').mpr (.inr (List.mem_append_left _ hIn)), hk'⟩
    · exact ⟨mergeEntry e' info, (hMem _).mpr (.inl rfl), hk'⟩
    · exact ⟨e', (hMem e').mpr (.inr (List.mem_append_right _ hIn)), hk'⟩
  · have hSameOld : ∀ i ∈ infos, ∀ j ∈ infos, i.key = j.key → i = j := fun i hi j hj =>
      hSame i (List.mem_append_left _ hi) j (List.mem_append_left _ hj)
    have hExact := h.exact hSameOld
    rcases (hMem e').mp he' with rfl | hRest
    · -- the entry held the description that is merged into it
      have hInfo : e.device.info = info :=
        hSame _ (List.mem_append_left _ (hExact e hMemE)) _
          (List.mem_append_right _ (List.mem_singleton_self _)) hKey
      show mergeInfo e.device.info info ∈ _
      rw [hInfo, mergeInfo_self]
      exact List.mem_append_right _ (List.mem_singleton_self _)
    · exact List.mem_append_left _ (hExact e' (hMem₀ e' hRest))

/-- Register step: no entry has the key yet. -/
theorem Added.register {old mgr : DeviceManager δ} {infos : List DeviceInfo} {info : DeviceInfo}
    {new : List (RegistryEntry δ)} (h : Added old infos mgr new)
    (hOld : ∀ e ∈ old.devices, e.key ≠ info.key) (hNew : ∀ e ∈ new, e.key ≠ info.key) :
    Added old (infos ++ [info]) (mgr.add info)
      (new ++ [{ device := { id := mgr.nextId, info := info }, driver := none }]) := by
  have hNone : mergeFirst info mgr.devices = none := by
    refine mergeFirst_none fun e he => ?_
    rw [h.devices] at he
    exact (List.mem_append.mp he).elim (hOld e) (hNew e)
  have hMgr : mgr.add info = (mgr.registerDevice info).2 := by
    rw [add, mergeOrRegister, hNone]
  refine ⟨?_, ?_, ?_, ?_, fun e he => ?_, fun i hi => ?_, fun hSame e he => ?_⟩
  · rw [hMgr, registerDevice, h.devices, List.append_assoc]
  · rw [hMgr, registerDevice, h.nextId, List.length_append]
    rfl
  · rw [List.map_append, h.ids, h.nextId, List.length_append, List.length_singleton,
      List.range'_concat]
    simp
  · rw [List.map_append, List.nodup_append]
    refine ⟨h.keys, List.nodup_singleton _, fun k hk k' hk' => ?_⟩
    obtain ⟨e, he, rfl⟩ := List.mem_map.mp hk
    rw [List.map_singleton, List.mem_singleton] at hk'
    rw [hk']
    exact hNew e he
  · rcases List.mem_append.mp he with hIn | hIn
    · obtain ⟨i, hi, hiKey⟩ := h.sound e hIn
      exact ⟨i, List.mem_append_left _ hi, hiKey⟩
    · rw [List.mem_singleton.mp hIn]
      exact ⟨info, List.mem_append_right _ (List.mem_singleton_self _), rfl⟩
  · rcases List.mem_append.mp hi with hIn | hIn
    · obtain ⟨e, he, hKey⟩ := h.complete i hIn
      exact ⟨e, List.mem_append_left _ he, hKey⟩
    · exact ⟨_, List.mem_append_right _ (List.mem_singleton_self _), by
        rw [List.mem_singleton.mp hIn]
        rfl⟩
  · rcases List.mem_append.mp he with hIn | hIn
    · refine List.mem_append_left _ (h.exact (fun i hi j hj => ?_) e hIn)
      exact hSame i (List.mem_append_left _ hi) j (List.mem_append_left _ hj)
    · rw [List.mem_singleton.mp hIn]
      exact List.mem_append_right _ (List.mem_singleton_self _)

theorem Added.add {old mgr : DeviceManager δ} {infos : List DeviceInfo} {info : DeviceInfo}
    {new : List (RegistryEntry δ)} (h : Added old infos mgr new)
    (hOld : ∀ e ∈ old.devices, e.key ≠ info.key) :
    ∃ new', Added old (infos ++ [info]) (mgr.add info) new' := by
  by_cases hNew : ∃ e ∈ new, e.key = info.key
  · obtain ⟨e, he, hKey⟩ := hNew
    obtain ⟨pre, post, rfl⟩ := List.append_of_mem he
    exact ⟨_, h.merge hOld hKey⟩
  · push Not at hNew
    exact ⟨_, h.register hOld hNew⟩

/-- **Adding devices.** When no old entry has one of their keys. -/
theorem added_foldl (old : DeviceManager δ) (infos : List DeviceInfo)
    (hOld : ∀ e ∈ old.devices, ∀ i ∈ infos, e.key ≠ i.key) :
    ∃ new, Added old infos (infos.foldl DeviceManager.add old) new := by
  -- the induction carries the descriptions added so far
  suffices hRun : ∀ (rest done : List DeviceInfo) (mgr : DeviceManager δ),
      (∀ e ∈ old.devices, ∀ i ∈ rest, e.key ≠ i.key) → (∃ new, Added old done mgr new) →
      ∃ new, Added old (done ++ rest) (rest.foldl DeviceManager.add mgr) new by
    exact hRun infos [] old hOld ⟨[], added_nil old⟩
  intro rest
  induction rest with
  | nil =>
    rintro done mgr - ⟨new, h⟩
    exact ⟨new, by rwa [List.append_nil]⟩
  | cons info rest ih =>
    rintro done mgr hOld ⟨new, h⟩
    have hStep := h.add fun e he => hOld e he info (List.mem_cons_self ..)
    have hRest := ih (done ++ [info]) (mgr.add info)
      (fun e he i hi => hOld e he i (List.mem_cons_of_mem _ hi)) hStep
    rwa [List.append_assoc, List.singleton_append] at hRest

end DeviceManager

end Neutrix
