import Neutrix.Devices.PciRegistry

/-!
# Neutrix — what the record of a PCI function depends on

The scan assembles the record of a function through two access paths:
header, BARs and interrupt line come from the function's ECAM space, the
status register and the capability list from ports 0xCF8/0xCFC. The port
address has no segment group, so the ports always reach segment group 0.

* `builtFor_eq`: the loop body of the scan builds `scanRecord`.
* `record_independent_iff`: the record of a function is determined by the
  function's own space and device memory exactly in segment group 0.
  Elsewhere the capability list is that of another function with the same
  bus, slot and function number.
-/

namespace Neutrix.Pci

open Neutrix.Lib

/-- The record that the body of the innermost loop builds for function `a`,
reached through `alloc`: what it puts into an empty registry. -/
def builtFor (physOffset : UInt64) (m : Machine RegBank) (alloc : McfgAllocation) (a : FuncAddr) :
    List DeviceInfo :=
  records (scanFunction physOffset alloc a.bus a.slot
    (m, (DeviceManager.new : DeviceManager Unit)) a.func).2

theorem builtFor_eq (physOffset : UInt64) {m : Machine RegBank} {alloc : McfgAllocation}
    {a : FuncAddr} (hCov : alloc.Covers a)
    (hEcam : ∀ b, alloc.Covers b → m.ecam (cfgAddr alloc.baseAddress b.bus b.slot b.func) = some b)
    (hPresent : m.present a) : builtFor physOffset m alloc a = [m.scanRecord physOffset a] := by
  obtain ⟨segment, bus, slot, func⟩ := a
  obtain rfl : segment = alloc.pciSegmentGroup := hCov.segment
  have hE : EcamOk m [alloc] := by
    intro alloc' hAlloc b hb
    obtain rfl := List.mem_singleton.mp hAlloc
    exact hEcam b hb
  rw [builtFor, scanFunction_eq physOffset hE (List.mem_singleton_self _) hCov,
    List.filter_cons_of_pos hPresent]
  rfl

-- ---------------------------------------------------------------------------
-- Two machines that differ in segment group 0
-- ---------------------------------------------------------------------------

/-- A present function without capabilities. -/
def bareRegs : RegBank := fun i => ⟨if i = 0 then 0x100E8086 else 0, 0⟩

/-- The same with a power management capability at 0x40. -/
def capRegs : RegBank := fun i =>
  ⟨match i with
    | 0 => 0x100E8086
    | 1 => 0x00100000
    | 13 => 0x40
    | 16 => 0x00000001
    | _ => 0, 0⟩

/-- All functions are bare, except that the function `a` names in segment group 0
has the registers `regs`. -/
def shadowedBy (a : FuncAddr) (regs : RegBank) : FuncAddr → RegBank := fun b =>
  if b = { a with segment := 0 } then regs else bareRegs

theorem shadowedBy_self {a : FuncAddr} (hSeg : a.segment ≠ 0) (regs : RegBank) :
    shadowedBy a regs a = bareRegs := by
  refine if_neg fun hEq => hSeg ?_
  rw [hEq]

/-- The ports show the registers of the function in segment group 0. -/
theorem pciRead_shadowedBy {a : FuncAddr} (regs : RegBank) (ecam : UInt64 → Option FuncAddr)
    (memory : UInt64 → UInt32) (hSlot : a.slot.toNat < 32) (hFunc : a.func.toNat < 8) :
    pciRead ⟨shadowedBy a regs, ecam, memory⟩ a.bus a.slot a.func =
      fun off => ConfigAccess.read regs (off &&& 0xFC) := by
  funext off
  rw [pciRead_eq _ a.bus off hSlot hFunc]
  show ConfigAccess.read (shadowedBy a regs ⟨0, a.bus, a.slot, a.func⟩) _ = _
  rw [shadowedBy, if_pos rfl]

theorem capabilities_shadowedBy {a : FuncAddr} (hSeg : a.segment ≠ 0) (hSlot : a.slot.toNat < 32)
    (hFunc : a.func.toNat < 8) (physOffset : UInt64) (ecam : UInt64 → Option FuncAddr)
    (memory : UInt64 → UInt32) :
    (Machine.scanRecord physOffset ⟨shadowedBy a bareRegs, ecam, memory⟩ a).capabilities = [] ∧
      (Machine.scanRecord physOffset ⟨shadowedBy a capRegs, ecam, memory⟩ a).capabilities =
        [.powerManagement 0 0] := by
  simp only [Machine.scanRecord, pciRead_shadowedBy _ ecam memory hSlot hFunc, Machine.record,
    shadowedBy_self hSeg]
  exact ⟨rfl, rfl⟩

-- ---------------------------------------------------------------------------
-- Independence
-- ---------------------------------------------------------------------------

/-- **Independence of the records.** Two configuration-space states that agree on a
present function and on device memory give it the same record, whatever the other
functions hold, exactly if the function is in segment group 0. -/
theorem record_independent_iff (physOffset : UInt64) {ecam : UInt64 → Option FuncAddr}
    {mcfgs : List McfgAllocation}
    (hE : ∀ alloc ∈ mcfgs, ∀ a, alloc.Covers a →
      ecam (cfgAddr alloc.baseAddress a.bus a.slot a.func) = some a)
    {alloc : McfgAllocation} (hAlloc : alloc ∈ mcfgs) {a : FuncAddr} (hCov : alloc.Covers a) :
    (∀ m m' : Machine RegBank, m.ecam = ecam → m'.ecam = ecam → m.present a →
        m.funcs a = m'.funcs a → m.memory = m'.memory →
        builtFor physOffset m alloc a = builtFor physOffset m' alloc a) ↔
      a.segment = 0 := by
  constructor
  · intro h
    by_contra hSeg
    -- the capability list comes from the function in segment group 0
    have hPresent : ∀ regs, Machine.present ⟨shadowedBy a regs, ecam, fun _ => 0⟩ a = true := by
      intro regs
      show (! absent (ConfigAccess.read (shadowedBy a regs a) 0x00)) = true
      rw [shadowedBy_self hSeg]
      rfl
    have hEq := h ⟨shadowedBy a bareRegs, ecam, fun _ => 0⟩ ⟨shadowedBy a capRegs, ecam, fun _ => 0⟩
      rfl rfl (hPresent _) ((shadowedBy_self hSeg _).trans (shadowedBy_self hSeg _).symm) rfl
    rw [builtFor_eq physOffset hCov (hE alloc hAlloc) (hPresent _),
      builtFor_eq physOffset hCov (hE alloc hAlloc) (hPresent _), List.singleton_inj] at hEq
    obtain ⟨hBare, hCap⟩ := capabilities_shadowedBy hSeg hCov.slot hCov.func physOffset ecam
      (fun _ => 0)
    rw [hEq, hCap] at hBare
    cases hBare
  · rintro hSeg m m' rfl hEcam' hPresent hFuncs hMemory
    have hPresent' : m'.present a := by rwa [Machine.present, ← hFuncs]
    have hOwn : m.ownRecord physOffset a = m'.ownRecord physOffset a := by
      rw [Machine.ownRecord, Machine.ownRecord, Machine.record, Machine.record, hFuncs, hMemory]
    rw [builtFor_eq physOffset hCov (hE alloc hAlloc) hPresent,
      builtFor_eq physOffset hCov (hEcam' ▸ hE alloc hAlloc) hPresent',
      scanRecord_eq_ownRecord physOffset hSeg hCov.slot hCov.func,
      scanRecord_eq_ownRecord physOffset hSeg hCov.slot hCov.func, hOwn]

/-- Slot 2 of bus 0, in segment group 0. -/
theorem record_independent_segment_zero :
    (wholeSegment 0xB0000000).Covers ⟨0, 0, 2, 0⟩ ∧
    ∀ m m' : Machine RegBank, m.ecam = window 0xB0000000 0 → m'.ecam = window 0xB0000000 0 →
      m.present ⟨0, 0, 2, 0⟩ → m.funcs ⟨0, 0, 2, 0⟩ = m'.funcs ⟨0, 0, 2, 0⟩ →
      m.memory = m'.memory →
      builtFor 0 m (wholeSegment 0xB0000000) ⟨0, 0, 2, 0⟩ =
        builtFor 0 m' (wholeSegment 0xB0000000) ⟨0, 0, 2, 0⟩ := by
  have hCov : (wholeSegment 0xB0000000).Covers ⟨0, 0, 2, 0⟩ :=
    ⟨rfl, by decide, by decide, by decide, by decide⟩
  have hE : ∀ alloc ∈ [wholeSegment 0xB0000000], ∀ a, alloc.Covers a →
      window 0xB0000000 0 (cfgAddr alloc.baseAddress a.bus a.slot a.func) = some a := by
    intro alloc hAlloc a ha
    obtain rfl := List.mem_singleton.mp hAlloc
    have hSeg : a.segment = 0 := ha.segment
    have hWindow := window_cfgAddr 0xB0000000 a ha.slot ha.func
    rwa [hSeg] at hWindow
  exact ⟨hCov, (record_independent_iff 0 hE (List.mem_singleton_self _) hCov).mpr rfl⟩

/-- **A record with another function's capabilities.** The function 1:00:02.0 has no
capability list; its record depends on what 0:00:02.0 holds. -/
theorem record_depends_on_segment_zero :
    ∃ m m' : Machine RegBank, m.ecam = window 0xB0000000 1 ∧ m'.ecam = window 0xB0000000 1 ∧
      m.present ⟨1, 0, 2, 0⟩ ∧ m.funcs ⟨1, 0, 2, 0⟩ = m'.funcs ⟨1, 0, 2, 0⟩ ∧
      m.memory = m'.memory ∧
      builtFor 0 m ⟨0xB0000000, 1, 0, 255⟩ ⟨1, 0, 2, 0⟩ ≠
        builtFor 0 m' ⟨0xB0000000, 1, 0, 255⟩ ⟨1, 0, 2, 0⟩ := by
  refine ⟨⟨shadowedBy ⟨1, 0, 2, 0⟩ bareRegs, window 0xB0000000 1, fun _ => 0⟩,
    ⟨shadowedBy ⟨1, 0, 2, 0⟩ capRegs, window 0xB0000000 1, fun _ => 0⟩, rfl, rfl, by decide, rfl, rfl,
    by decide⟩

end Neutrix.Pci
