import Neutrix.Devices.AcpiTables
import Neutrix.Devices.PciRegistry
import Neutrix.DriverFramework.DriverHistory
import Neutrix.Drivers.IrqVectors

/-!
# Neutrix — the registry after boot

`kernel_main` fills the registry from three sources: the ACPI parser, the
PCI scan, and the devices it registers by hand. A resource
`Interrupt(v)` is taken for an IDT vector by everybody who reads it: the
PS/2 drivers pass `v` to `register_irq_handler`, and `kernel_main` finds the
legacy IRQ as `v - 0x20`. The hand-written registrations agree (33 and 44),
and the ACPI devices have no interrupts. The PCI scan does not: it pushes
the interrupt line register as it is, an IRQ line of the firmware and not a
vector. The drivers are any that only read their device's description, as the
kernel's own do.

* `mem_vectors_add`: merging or registering loses no interrupt resource.
* `scan_vectors`: the scan adds the interrupt line of each function that
  answers, whatever the ECAM windows decode to.
* `bootInterrupts_iff`: all interrupt resources are vectors exactly when no
  function that answers has an interrupt line between 1 and 31.
-/

namespace Neutrix

open Neutrix.Lib Neutrix.Drivers

variable {δ ω : Type*}

-- ---------------------------------------------------------------------------
-- Interrupt resources
-- ---------------------------------------------------------------------------

/-- `Interrupt(v)` is one of the resources. -/
def HasInterrupt (resources : List Resource) (v : UInt8) : Prop :=
  ∃ r ∈ resources, r.kind = .interrupt v

theorem mem_interrupts {info : DeviceInfo} {v : UInt8} :
    v ∈ interrupts info ↔ HasInterrupt info.resources v := by
  rw [interrupts, List.mem_filterMap]
  refine exists_congr fun r => and_congr_right fun _ => ?_
  cases r.kind <;> simp

theorem hasInterrupt_append {rs rs' : List Resource} {v : UInt8} :
    HasInterrupt (rs ++ rs') v ↔ HasInterrupt rs v ∨ HasInterrupt rs' v := by
  simp only [HasInterrupt, List.mem_append, or_and_right, exists_or]

theorem hasInterrupt_singleton {r : Resource} {v : UInt8} :
    HasInterrupt [r] v ↔ r.kind = .interrupt v := by
  simp [HasInterrupt]

theorem hasInterrupt_addResource {rs : List Resource} {r : Resource} {v : UInt8} :
    HasInterrupt (DeviceManager.addResource rs r) v ↔ HasInterrupt rs v ∨ r.kind = .interrupt v := by
  rw [DeviceManager.addResource]
  split_ifs with hAny
  · -- a resource is dropped only for one of the same kind
    obtain ⟨r', hr', hSame⟩ := List.any_eq_true.mp hAny
    have hKind : r'.kind = r.kind := by
      simp only [Bool.and_eq_true, decide_eq_true_eq] at hSame
      exact hSame.1
    exact ⟨.inl, fun h => h.elim id fun hr => ⟨r', hr', hKind.trans hr⟩⟩
  · rw [hasInterrupt_append, hasInterrupt_singleton]

theorem hasInterrupt_mergeInfo {existing info : DeviceInfo} {v : UInt8} :
    HasInterrupt (DeviceManager.mergeInfo existing info).resources v ↔
      HasInterrupt existing.resources v ∨ HasInterrupt info.resources v := by
  show HasInterrupt (info.resources.foldl DeviceManager.addResource existing.resources) v ↔ _
  generalize existing.resources = rs
  induction info.resources generalizing rs with
  | nil => simp [HasInterrupt]
  | cons r rest ih =>
    rw [List.foldl_cons, ih, hasInterrupt_addResource, or_assoc, ← hasInterrupt_singleton,
      ← hasInterrupt_append, List.singleton_append]

namespace DeviceManager

/-- The numbers of all interrupt resources in the registry. -/
def vectors (mgr : DeviceManager δ) : List UInt8 :=
  mgr.devices.flatMap fun e => interrupts e.device.info

theorem mem_vectors {mgr : DeviceManager δ} {v : UInt8} :
    v ∈ mgr.vectors ↔ ∃ e ∈ mgr.devices, HasInterrupt e.device.info.resources v := by
  simp only [vectors, List.mem_flatMap, mem_interrupts]

theorem mem_vectors_register {mgr : DeviceManager δ} {info : DeviceInfo} {v : UInt8} :
    v ∈ (mgr.registerDevice info).2.vectors ↔ v ∈ mgr.vectors ∨ v ∈ interrupts info := by
  simp [vectors, registerDevice]

theorem hasInterrupt_mergeFirst {info : DeviceInfo} {es es' : List (RegistryEntry δ)} {id : Nat}
    (h : mergeFirst info es = some (id, es')) (v : UInt8) :
    (∃ e ∈ es', HasInterrupt e.device.info.resources v) ↔
      (∃ e ∈ es, HasInterrupt e.device.info.resources v) ∨ HasInterrupt info.resources v := by
  induction es generalizing es' id with
  | nil => cases h
  | cons e rest ih =>
    rw [mergeFirst] at h
    simp only [List.exists_mem_cons_iff]
    split_ifs at h with hKey
    · obtain rfl : mergeEntry e info :: rest = es' := (Prod.mk.inj (Option.some.inj h)).2
      have hMerged : HasInterrupt (mergeEntry e info).device.info.resources v ↔
          HasInterrupt e.device.info.resources v ∨ HasInterrupt info.resources v :=
        hasInterrupt_mergeInfo
      rw [List.exists_mem_cons_iff, hMerged, or_right_comm]
    · obtain ⟨⟨id', rest'⟩, hRest, hEq⟩ := Option.map_eq_some_iff.mp h
      obtain rfl : e :: rest' = es' := (Prod.mk.inj hEq).2
      rw [List.exists_mem_cons_iff, ih hRest, or_assoc]

/-- **Adding a device** adds its interrupt resources. -/
theorem mem_vectors_add {mgr : DeviceManager δ} {info : DeviceInfo} {v : UInt8} :
    v ∈ (mgr.add info).vectors ↔ v ∈ mgr.vectors ∨ v ∈ interrupts info := by
  rw [add, mergeOrRegister]
  cases hMerge : mergeFirst info mgr.devices with
  | none => exact mem_vectors_register
  | some r => rw [mem_vectors, mem_vectors, mem_interrupts, ← hasInterrupt_mergeFirst hMerge]

/-- Drivers come and go without a trace in the descriptions. -/
theorem vectors_setDriver {mgr : DeviceManager δ} {id : Nat} {e : RegistryEntry δ}
    {driver : Option δ} (hFind : mgr.find id = some e) :
    vectors { mgr with devices := setDriver id driver mgr.devices } = mgr.vectors := by
  obtain ⟨-, pre, post, hDevices, -, hSet⟩ := find_some hFind
  rw [vectors, setDriver, hSet, vectors, hDevices]
  simp

end DeviceManager

-- ---------------------------------------------------------------------------
-- The interrupts of a PCI function
-- ---------------------------------------------------------------------------

namespace Pci

theorem hasInterrupt_interruptResource {intrDword : UInt32} {v : UInt8} :
    HasInterrupt (interruptResource intrDword) v ↔
      v = (intrDword &&& 0xFF).toUInt8 ∧ v ≠ 0 ∧ v ≠ 0xFF := by
  simp only [interruptResource]
  split_ifs with hLine
  · rw [hasInterrupt_singleton, ResourceKind.interrupt.injEq]
    exact ⟨fun h => h ▸ ⟨rfl, hLine⟩, fun h => h.1.symm⟩
  · refine iff_of_false (by simp [HasInterrupt]) ?_
    rintro ⟨rfl, hNot⟩
    exact hLine hNot

/-- Base address registers describe memory and ports. -/
theorem hasInterrupt_barLoop {σ : Type*} [ConfigAccess σ] (fuel : Nat) (barIndex : UInt8)
    (resources : List Resource) (cfg : σ) (v : UInt8) :
    HasInterrupt (barLoop fuel barIndex resources cfg).1 v ↔ HasInterrupt resources v := by
  induction fuel generalizing barIndex resources cfg with
  | zero => rfl
  | succ fuel ih =>
    simp only [barLoop]
    split_ifs
    · exact ih ..
    · rw [ih, hasInterrupt_append, hasInterrupt_singleton]
      simp
    · rw [ih, hasInterrupt_append, hasInterrupt_singleton]
      simp
    · rw [ih, hasInterrupt_append, hasInterrupt_singleton]
      simp
    · rfl

/-- The capabilities that become resources are MSI and MSI-X. -/
theorem hasInterrupt_decodeCapability (physOffset : UInt64) (memory : UInt64 → UInt32)
    (read : UInt8 → UInt32) (capPtr : UInt8) (acc : List Resource × List Capability) (v : UInt8) :
    HasInterrupt (decodeCapability physOffset memory read capPtr acc).1 v ↔
      HasInterrupt acc.1 v := by
  simp only [decodeCapability]
  split
  · rfl
  · rw [hasInterrupt_append, hasInterrupt_singleton]
    simp [msiResource]
  · rfl
  · rw [hasInterrupt_append, hasInterrupt_singleton]
    simp [msixResource]
  · rfl

theorem hasInterrupt_capLoop (physOffset : UInt64) (memory : UInt64 → UInt32)
    (read : UInt8 → UInt32) (left : Nat) (capPtr : UInt8) (acc : List Resource × List Capability)
    (v : UInt8) :
    HasInterrupt (capLoop physOffset memory read left capPtr acc).1 v ↔ HasInterrupt acc.1 v := by
  induction left generalizing capPtr acc with
  | zero => rfl
  | succ left ih =>
    rw [capLoop]
    split_ifs
    · rfl
    · rw [ih, hasInterrupt_decodeCapability]

/-- **The interrupts of a record** are its interrupt line, unless it reads as
"none". -/
theorem mem_interrupts_functionInfo {σ : Type*} [ConfigAccess σ] (physOffset : UInt64)
    (memory : UInt64 → UInt32) (dword classDword intrDword : UInt32) (cfg : σ)
    (read : UInt8 → UInt32) (bus slot func : UInt8) {v : UInt8} :
    v ∈ interrupts (functionInfo physOffset memory dword classDword (readBars cfg).1 intrDword read
        bus slot func) ↔ v = (intrDword &&& 0xFF).toUInt8 ∧ v ≠ 0 ∧ v ≠ 0xFF := by
  have hBars : ¬ HasInterrupt (readBars cfg).1 v := by
    rw [readBars, hasInterrupt_barLoop]
    simp [HasInterrupt]
  have hCaps : ∀ rs, HasInterrupt (readCapabilities physOffset memory read rs).1 v ↔
      HasInterrupt rs v := by
    intro rs
    simp only [readCapabilities]
    split_ifs
    · exact hasInterrupt_capLoop ..
    · rfl
  rw [mem_interrupts]
  show HasInterrupt (readCapabilities physOffset memory read
    ((readBars cfg).1 ++ interruptResource intrDword)).1 v ↔ _
  rw [hCaps, hasInterrupt_append, or_iff_right hBars, hasInterrupt_interruptResource]

-- ---------------------------------------------------------------------------
-- The scan
-- ---------------------------------------------------------------------------

/-- Function `a` answers at the address of function `func`. -/
structure AnswersAt (m : Machine RegBank) (alloc : McfgAllocation) (bus slot func : UInt8)
    (a : FuncAddr) : Prop where
  decoded : m.ecam (cfgAddr alloc.baseAddress bus slot func) = some a
  present : m.present a

/-- Function `a` answers the scan: it is function 0 of a slot, or one of the
functions that function 0 announces. -/
def Answers (m : Machine RegBank) (mcfgs : List McfgAllocation) (a : FuncAddr) : Prop :=
  ∃ alloc ∈ mcfgs, ∃ bus ∈ busRange alloc.startBus alloc.endBus, ∃ slot ∈ upTo 32,
    ∃ zero, AnswersAt m alloc bus slot 0 zero ∧
      ∃ func ∈ upTo (maxFuncs (ConfigAccess.read (m.funcs zero) 0x0C)),
        AnswersAt m alloc bus slot func a

def Machine.interruptLine (m : Machine RegBank) (a : FuncAddr) : UInt8 :=
  (ConfigAccess.read (m.funcs a) 0x3C &&& 0xFF).toUInt8

/-- The interrupt resource of function `a`, if it has one. -/
def Machine.Raises (m : Machine RegBank) (a : FuncAddr) (v : UInt8) : Prop :=
  v = m.interruptLine a ∧ v ≠ 0 ∧ v ≠ 0xFF

/-- A part of the scan leaves the machine alone and adds the interrupts `P`. -/
def AddsVectors (m : Machine RegBank)
    (part : Machine RegBank × DeviceManager δ → Machine RegBank × DeviceManager δ)
    (P : UInt8 → Prop) : Prop :=
  ∀ mgr, ∃ mgr', part (m, mgr) = (m, mgr') ∧ ∀ v, v ∈ mgr'.vectors ↔ v ∈ mgr.vectors ∨ P v

namespace AddsVectors

variable {m : Machine RegBank}

theorem nothing {P : UInt8 → Prop} (hP : ∀ v, ¬ P v) :
    AddsVectors (δ := δ) m (fun s => s) P :=
  fun mgr => ⟨mgr, rfl, fun v => (or_iff_left (hP v)).symm⟩

theorem congr {part : Machine RegBank × DeviceManager δ → Machine RegBank × DeviceManager δ}
    {P Q : UInt8 → Prop} (h : AddsVectors m part P) (hPQ : ∀ v, P v ↔ Q v) :
    AddsVectors m part Q := by
  intro mgr
  obtain ⟨mgr', hPart, hVectors⟩ := h mgr
  exact ⟨mgr', hPart, fun v => (hVectors v).trans (or_congr_right (hPQ v))⟩

/-- A loop of the scan. -/
theorem foldl {ι : Type*} {step : Machine RegBank × DeviceManager δ → ι →
      Machine RegBank × DeviceManager δ} {P : ι → UInt8 → Prop} {xs : List ι}
    (hStep : ∀ x ∈ xs, AddsVectors m (fun s => step s x) (P x)) :
    AddsVectors m (fun s => xs.foldl step s) fun v => ∃ x ∈ xs, P x v := by
  induction xs with
  | nil => exact nothing (by simp)
  | cons x xs ih =>
    intro mgr
    obtain ⟨mgr', hHead, hVectors⟩ := hStep x (List.mem_cons_self ..) mgr
    obtain ⟨mgr'', hTail, hVectors'⟩ := ih (fun y hy => hStep y (List.mem_cons_of_mem _ hy)) mgr'
    refine ⟨mgr'', ?_, fun v => ?_⟩
    · simp only [List.foldl_cons] at hHead hTail ⊢
      rw [hHead, hTail]
    · simp only [hVectors', hVectors, or_assoc, List.exists_mem_cons_iff]

end AddsVectors

variable {m : Machine RegBank}

/-- The offset the pointers carry is taken off again. -/
theorem ecamAt_add (m : Machine RegBank) (physOffset addr : UInt64) :
    m.ecamAt physOffset (physOffset + addr) = m.ecam addr := by
  rw [Machine.ecamAt, UInt64.add_comm, UInt64.add_sub_cancel]

theorem scanFunction_addsVectors (m : Machine RegBank) (physOffset : UInt64)
    (alloc : McfgAllocation) (bus slot func : UInt8) :
    AddsVectors (δ := δ) m (fun s => scanFunction physOffset alloc bus slot s func)
      fun v => ∃ a, AnswersAt m alloc bus slot func a ∧ m.Raises a v := by
  intro mgr
  simp only [scanFunction, ecamAt_add]
  cases hDec : m.ecam (cfgAddr alloc.baseAddress bus slot func) with
  | none =>
    refine ⟨mgr, rfl, fun v => (or_iff_left ?_).symm⟩
    rintro ⟨a, hAns, -⟩
    cases hDec.symm.trans hAns.decoded
  | some a =>
    have hOnly : ∀ v, (∃ b, AnswersAt m alloc bus slot func b ∧ m.Raises b v) ↔
        m.present a ∧ m.Raises a v := by
      intro v
      constructor
      · rintro ⟨b, hAns, hRaises⟩
        obtain rfl : a = b := Option.some.inj (hDec.symm.trans hAns.decoded)
        exact ⟨hAns.present, hRaises⟩
      · rintro ⟨hPresent, hRaises⟩
        exact ⟨a, ⟨hDec, hPresent⟩, hRaises⟩
    simp only [hOnly]
    by_cases hAbs : absent (ConfigAccess.read (m.funcs a) 0x00)
    · refine ⟨mgr, if_pos hAbs, fun v => (or_iff_left ?_).symm⟩
      simp [Machine.present, hAbs]
    · -- the record is added, and sizing the BARs left no trace
      have hCfg : (readBars (m.funcs a)).2 = m.funcs a := barLoop_restores 6 0 [] (m.funcs a)
      have hPresent : m.present a := by simpa [Machine.present] using hAbs
      simp only [hAbs, Bool.false_eq_true, if_false, hCfg, setFunc_self]
      refine ⟨_, rfl, fun v => ?_⟩
      rw [DeviceManager.mem_vectors_add, mem_interrupts_functionInfo, and_iff_right hPresent]
      rfl

theorem scanSlot_addsVectors (m : Machine RegBank) (physOffset : UInt64) (alloc : McfgAllocation)
    (bus slot : UInt8) :
    AddsVectors (δ := δ) m (fun s => scanSlot physOffset alloc bus s slot) fun v =>
      ∃ zero, AnswersAt m alloc bus slot 0 zero ∧
        ∃ func ∈ upTo (maxFuncs (ConfigAccess.read (m.funcs zero) 0x0C)),
          ∃ a, AnswersAt m alloc bus slot func a ∧ m.Raises a v := by
  intro mgr
  simp only [scanSlot, ecamAt_add]
  cases hDec : m.ecam (cfgAddr alloc.baseAddress bus slot 0) with
  | none =>
    refine ⟨mgr, rfl, fun v => (or_iff_left ?_).symm⟩
    rintro ⟨zero, hAns, -⟩
    cases hDec.symm.trans hAns.decoded
  | some zero =>
    by_cases hAbs : absent (ConfigAccess.read (m.funcs zero) 0x00)
    · refine ⟨mgr, if_pos hAbs, fun v => (or_iff_left ?_).symm⟩
      rintro ⟨zero', hAns, -⟩
      obtain rfl : zero = zero' := Option.some.inj (hDec.symm.trans hAns.decoded)
      simpa [Machine.present, hAbs] using hAns.present
    · have hLoop := AddsVectors.foldl fun func (_ : func ∈ upTo (maxFuncs
        (ConfigAccess.read (m.funcs zero) 0x0C))) =>
          scanFunction_addsVectors (δ := δ) m physOffset alloc bus slot func
      have hAns : AnswersAt m alloc bus slot 0 zero :=
        ⟨hDec, by simpa [Machine.present] using hAbs⟩
      obtain ⟨mgr', hFold, hVectors⟩ := hLoop mgr
      simp only [hAbs, Bool.false_eq_true, if_false]
      refine ⟨mgr', hFold, fun v => (hVectors v).trans (or_congr_right ?_)⟩
      constructor
      · intro h
        exact ⟨zero, hAns, h⟩
      · rintro ⟨zero', hAns', h⟩
        obtain rfl : zero = zero' := Option.some.inj (hDec.symm.trans hAns'.decoded)
        exact h

/-- **The interrupts the scan adds** are those of the functions that answer. -/
theorem scan_vectors (m : Machine RegBank) (physOffset : UInt64) (mcfgs : List McfgAllocation) :
    AddsVectors (δ := δ) m (scanAndRegisterWithPhysOffset physOffset mcfgs) fun v =>
      ∃ a, Answers m mcfgs a ∧ m.Raises a v := by
  by_cases hNe : mcfgs = []
  · subst hNe
    intro mgr
    exact ⟨mgr, scan_nil physOffset (m, mgr), fun v => (or_iff_left (by simp [Answers])).symm⟩
  · have hScan : scanAndRegisterWithPhysOffset (δ := δ) physOffset mcfgs =
        fun s : Machine RegBank × DeviceManager δ => mcfgs.foldl (scanAlloc physOffset) s := by
      funext s
      rw [scanAndRegisterWithPhysOffset, if_neg (by simpa using hNe)]
    rw [hScan]
    have hLoops := AddsVectors.foldl fun alloc (_ : alloc ∈ mcfgs) =>
      AddsVectors.foldl fun bus (_ : bus ∈ busRange alloc.startBus alloc.endBus) =>
        AddsVectors.foldl fun slot (_ : slot ∈ upTo 32) =>
          scanSlot_addsVectors (δ := δ) m physOffset alloc bus slot
    refine hLoops.congr fun v => ?_
    simp only [Answers]
    constructor
    · rintro ⟨alloc, hAlloc, bus, hBus, slot, hSlot, zero, hZero, func, hFunc, a, hAns, hRaises⟩
      exact ⟨a, ⟨alloc, hAlloc, bus, hBus, slot, hSlot, zero, hZero, func, hFunc, hAns⟩, hRaises⟩
    · rintro ⟨a, ⟨alloc, hAlloc, bus, hBus, slot, hSlot, zero, hZero, func, hFunc, hAns⟩, hRaises⟩
      exact ⟨alloc, hAlloc, bus, hBus, slot, hSlot, zero, hZero, func, hFunc, a, hAns, hRaises⟩

end Pci

-- ---------------------------------------------------------------------------
-- The boot sequence
-- ---------------------------------------------------------------------------

namespace Boot

open Pci DeviceManager

/-- The statics of the ACPI module at power-on. -/
def acpiStart : Acpi.State δ := ⟨DeviceManager.new, [], [], [], 0, none, 0, []⟩

/-- `hal::init_hardware`: the tables in memory `mem`. -/
def acpi (mem : Memory) (physOffset : UInt64) : Acpi.State δ :=
  Acpi.initWithOffset mem physOffset acpiStart

/-- The registry after the PCI scan. -/
def scanned (mem : Memory) (physOffset : UInt64) (m : Machine RegBank) : DeviceManager δ :=
  (scanAndRegisterWithPhysOffset physOffset (Acpi.getMcfgAllocs (acpi (δ := δ) mem physOffset))
    (m, (acpi mem physOffset).mgr)).2

def consoleInfo : DeviceInfo := ⟨0xfffe, 0xffff, 0xFF, 0, 0, [], [], "Logical Console Device"⟩

/-- The calls of `kernel_main` after the scan, which left `mgr`. Every display
controller gets a VBE driver of its own. -/
def kernelMain (mgr : DeviceManager δ) (kbd console mouse : δ) (vbeVga : Nat → δ) : List (Op δ) :=
  let displays := mgr.devices.filter fun e => e.device.info.class_ = 0x03
  [.register kbdInfo, .attach mgr.nextId kbd, .register consoleInfo,
      .attach (mgr.nextId + 1) console] ++
    displays.map (fun e => .attach e.device.id (vbeVga e.device.id)) ++
    [.register mouseInfo, .attach (mgr.nextId + 2) mouse]

/-- The registries of one boot: after the ACPI parser, after the scan, and after
each of the later calls. -/
inductive Reached [DecidableEq δ] (drv : ReadOnlyDriver δ ω) (w : ω) (mem : Memory)
    (physOffset : UInt64) (m : Machine RegBank) (kbd console mouse : δ) (vbeVga : Nat → δ) :
    DeviceManager δ → Prop where
  | acpi : Reached drv w mem physOffset m kbd console mouse vbeVga (acpi mem physOffset).mgr
  | main (ops : List (Op δ)) (s : Sys δ ω)
      (hOps : ops <+: kernelMain (scanned mem physOffset m) kbd console mouse vbeVga)
      (hRun : run (Sys.step drv.toDriver) ⟨scanned mem physOffset m, w, []⟩ ops = some s) :
      Reached drv w mem physOffset m kbd console mouse vbeVga s.mgr

theorem Reached.scanned [DecidableEq δ] (drv : ReadOnlyDriver δ ω) (w : ω) (mem : Memory)
    (physOffset : UInt64) (m : Machine RegBank) (kbd console mouse : δ) (vbeVga : Nat → δ) :
    Reached drv w mem physOffset m kbd console mouse vbeVga (scanned mem physOffset m) :=
  .main [] ⟨Boot.scanned mem physOffset m, w, []⟩ List.nil_prefix (run_nil _ _)

/-- ACPI devices have no interrupts. -/
theorem vectors_acpi (mem : Memory) (physOffset : UInt64) :
    (acpi mem physOffset : Acpi.State δ).mgr.vectors = [] := by
  obtain ⟨f, hMmio, hAppends⟩ := Acpi.initWithOffset_registers (δ := δ) mem physOffset acpiStart
  rw [acpi, hAppends.mgr, Acpi.registerAll]
  have hNew : (acpiStart : Acpi.State δ).mgr.vectors = [] := rfl
  revert hNew hMmio
  generalize (acpiStart : Acpi.State δ).mgr = mgr
  rw [Acpi.Found.MmioOnly]
  induction f.devices generalizing mgr with
  | nil => exact fun _ h => h
  | cons info rest ih =>
    intro hMmio hNone
    refine ih _ (fun i hi => hMmio i (List.mem_cons_of_mem _ hi)) ?_
    rw [List.eq_nil_iff_forall_not_mem]
    intro v hv
    rw [mem_vectors_register, hNone, mem_interrupts] at hv
    obtain hNil | ⟨r, hr, hKind⟩ := hv
    · cases hNil
    · rw [hMmio info (List.mem_cons_self ..) r hr] at hKind
      cases hKind

/-- After the scan, the interrupt resources are those of the functions that
answered. -/
theorem mem_vectors_scanned {mem : Memory} {physOffset : UInt64} {m : Machine RegBank} {v : UInt8} :
    v ∈ (scanned mem physOffset m : DeviceManager δ).vectors ↔
      ∃ a, Answers m (Acpi.getMcfgAllocs (acpi (δ := δ) mem physOffset)) a ∧ m.Raises a v := by
  obtain ⟨mgr, hScan, hVectors⟩ := scan_vectors (δ := δ) m physOffset
    (Acpi.getMcfgAllocs (acpi (δ := δ) mem physOffset)) (acpi mem physOffset).mgr
  rw [scanned, hScan, hVectors, vectors_acpi]
  simp

/-- The later calls add the vectors of keyboard and mouse at most. -/
theorem vectors_step [DecidableEq δ] {drv : ReadOnlyDriver δ ω} {mgr : DeviceManager δ}
    {kbd console mouse : δ} {vbeVga : Nat → δ} {s s' : Sys δ ω} {op : Op δ}
    (hOp : op ∈ kernelMain mgr kbd console mouse vbeVga) (hStep : s.step drv.toDriver op = some s')
    {v : UInt8} (hv : v ∈ s'.mgr.vectors) : v ∈ s.mgr.vectors ∨ v = 33 ∨ v = 44 := by
  cases op with
  | register info =>
    obtain rfl := Option.some.inj hStep
    refine (mem_vectors_register.mp hv).imp_right fun hInfo => ?_
    simp only [kernelMain, List.mem_append, List.mem_cons, List.mem_map, Op.register.injEq,
      reduceCtorEq, List.not_mem_nil, or_false, false_or, and_false, exists_false] at hOp
    rcases hOp with (rfl | rfl) | rfl
    · exact .inl (by simpa [interrupts, kbdInfo] using hInfo)
    · cases hInfo
    · exact .inr (by simpa [interrupts, mouseInfo] using hInfo)
  | merge info => simp [kernelMain] at hOp
  | attach id d =>
    obtain ⟨-, mgr, w, hAttach, rfl⟩ := ReadOnlyDriver.attach_step hStep
    cases hAttach with
    | attached e w' w'' hFind _ _ _ =>
      rw [← vectors_setDriver hFind]
      exact .inl hv
    | _ => exact .inl hv
  | detach id => simp [kernelMain] at hOp

theorem vectors_run [DecidableEq δ] {drv : ReadOnlyDriver δ ω} {mgr : DeviceManager δ}
    {kbd console mouse : δ} {vbeVga : Nat → δ} {s s' : Sys δ ω} {ops : List (Op δ)}
    (hOps : ∀ op ∈ ops, op ∈ kernelMain mgr kbd console mouse vbeVga)
    (hRun : run (Sys.step drv.toDriver) s ops = some s') {v : UInt8} (hv : v ∈ s'.mgr.vectors) :
    v ∈ s.mgr.vectors ∨ v = 33 ∨ v = 44 := by
  induction ops generalizing s with
  | nil =>
    obtain rfl := Option.some.inj hRun
    exact .inl hv
  | cons op ops ih =>
    obtain ⟨t, hStep, hRest⟩ := (run_cons _).mp hRun
    rcases ih (fun o ho => hOps o (List.mem_cons_of_mem _ ho)) hRest with hOld | hManual
    · exact vectors_step (hOps op (List.mem_cons_self ..)) hStep hOld
    · exact .inr hManual

/-- The interrupt line is "none" or would do as a vector. -/
def LineOk (line : UInt8) : Prop := line = 0 ∨ line = 0xFF ∨ 32 ≤ line

/-- **Interrupt resources and vectors.** Every interrupt resource of every registry
of the boot is a vector of at least 32 exactly when the interrupt line of every
PCI function that answers the scan is. -/
theorem bootInterrupts_iff [DecidableEq δ] (drv : ReadOnlyDriver δ ω) (w : ω) (mem : Memory)
    (physOffset : UInt64) (m : Machine RegBank) (kbd console mouse : δ) (vbeVga : Nat → δ) :
    (∀ mgr, Reached drv w mem physOffset m kbd console mouse vbeVga mgr →
        ∀ e ∈ mgr.devices, ∀ r ∈ e.device.info.resources, ∀ v, r.kind = .interrupt v → 32 ≤ v) ↔
      ∀ a, Answers m (Acpi.getMcfgAllocs (acpi (δ := δ) mem physOffset)) a →
        LineOk (m.interruptLine a) := by
  have hVectors : ∀ mgr : DeviceManager δ, (∀ e ∈ mgr.devices, ∀ r ∈ e.device.info.resources,
      ∀ v, r.kind = .interrupt v → 32 ≤ v) ↔ ∀ v ∈ mgr.vectors, 32 ≤ v := by
    intro mgr
    simp only [mem_vectors]
    constructor
    · rintro h v ⟨e, he, r, hr, hKind⟩
      exact h e he r hr v hKind
    · intro h e he r hr v hKind
      exact h v ⟨e, he, r, hr, hKind⟩
  simp only [hVectors]
  constructor
  · intro h a hAns
    by_cases hNone : m.interruptLine a = 0 ∨ m.interruptLine a = 0xFF
    · exact hNone.elim .inl fun hFF => .inr (.inl hFF)
    · push Not at hNone
      have hScanned := h _ (.scanned ..)
      exact .inr (.inr (hScanned _ (mem_vectors_scanned.mpr ⟨a, hAns, rfl, hNone⟩)))
  · intro hLines mgr hReached v hv
    cases hReached with
    | acpi =>
      rw [vectors_acpi] at hv
      cases hv
    | main ops s hOps hRun =>
      rcases vectors_run (fun op hop => hOps.subset hop) hRun hv with hScan | rfl | rfl
      · obtain ⟨a, hAns, rfl, hZero, hFF⟩ := mem_vectors_scanned.mp hScan
        exact ((hLines a hAns).resolve_left hZero).resolve_left hFF
      · decide
      · decide

/-- An RSDP at 0x9FC00, behind it an RSDT and an MCFG table with one record for
bus 0. -/
def bootImage : Memory := fun i =>
  if i < 0x9FC00 then 0
  else
    (Acpi.ascii ['R', 'S', 'D', ' ', 'P', 'T', 'R', ' '] ++ [184] ++ List.replicate 7 0 ++
      [0x24, 0xFC, 0x09, 0] ++ List.replicate 16 0 ++
      Acpi.sampleHeader Acpi.rsdtSignature 40 73 ++ [0x4C, 0xFC, 0x09, 0] ++
      Acpi.sampleHeader Acpi.mcfgSignature 60 198 ++ List.replicate 8 0 ++
        [0, 0, 0, 0xE0, 0, 0, 0, 0, 0, 0, 0, 0, 0, 0, 0, 0]).getD (i - 0x9FC00) 0

/-- A network card in slot 2 that the firmware routed to IRQ 11. -/
def nicMachine : Machine RegBank where
  funcs a :=
    if a = ⟨0, 0, 2, 0⟩ then fun i => ⟨if i = 0 then 0x100E8086 else if i = 15 then 11 else 0, 0⟩
    else fun _ => ⟨0xFFFFFFFF, 0⟩
  ecam := window 0xE0000000 0
  memory _ := 0

/-- **An IRQ line in the registry.** The network card's `Interrupt(11)` is an
exception vector. -/
theorem nic_interrupt_not_vector :
    ∃ mgr, Reached evenOnly () bootImage 0 nicMachine 2 4 6 (fun id => 2 * id + 8) mgr ∧
      ∃ e ∈ mgr.devices, ∃ r ∈ e.device.info.resources, r.kind = .interrupt 11 := by
  have hMcfg : Acpi.getMcfgAllocs (acpi (δ := Nat) bootImage 0) = [⟨0xE0000000, 0, 0, 0⟩] := by
    decide +kernel
  have hAt : AnswersAt nicMachine ⟨0xE0000000, 0, 0, 0⟩ 0 2 0 ⟨0, 0, 2, 0⟩ :=
    ⟨by decide, by decide⟩
  have hAns : Answers nicMachine [⟨0xE0000000, 0, 0, 0⟩] ⟨0, 0, 2, 0⟩ :=
    ⟨_, List.mem_singleton_self _, 0, by decide, 2, by decide, _, hAt, 0, by decide, hAt⟩
  have hVector : 11 ∈ (scanned bootImage 0 nicMachine : DeviceManager Nat).vectors := by
    rw [mem_vectors_scanned, hMcfg]
    exact ⟨_, hAns, by decide, by decide, by decide⟩
  exact ⟨_, Reached.scanned .., mem_vectors.mp hVector⟩

end Boot

end Neutrix
