import Neutrix.Devices.PciBars
import Neutrix.Devices.PciCaps

/-!
# Neutrix — where the MSI-X table is looked for

The BIR field of an MSI-X capability is the index of a BAR register. The scan
uses it as an index into its list of recorded memory BARs. The two numberings
part as soon as an I/O BAR, an unimplemented register or the upper half of a
64-bit BAR comes before.

* `capResource_msix` — what is recorded for the capability, and where the scan
  reads the vector control word for it (`probeAddr`).
* `msix_probe_iff` — the table is looked for where the capability says exactly
  when the two numberings lead to the same base address, or to no memory.
-/

namespace Neutrix.Pci

open Neutrix.Lib

-- ---------------------------------------------------------------------------
-- The probe
-- ---------------------------------------------------------------------------

section Probe

variable (physOffset : UInt64) (memory : UInt64 → UInt32) (read : UInt8 → UInt32)

def msixBir (capPtr : UInt8) : UInt8 := (shifted read (capPtr + 4) &&& 0x7).toUInt8

def msixTableOffset (capPtr : UInt8) : UInt32 := shifted read (capPtr + 4) &&& 0xFFFFFFF8

/-- The physical address that the scan reads the vector control word from. -/
def probeAddr (resources : List Resource) (capPtr : UInt8) : Option UInt64 :=
  if physOffset ≠ 0 then
    ((memoryBars resources)[(msixBir read capPtr).toNat]?).map fun bar =>
      bar.addr + (msixTableOffset read capPtr).toUInt64 + 12
  else none

/-- The record of an MSI-X capability, given the vector control word if it was read. -/
def msixRecord (capPtr : UInt8) (vctrl : Option UInt32) : Resource :=
  ⟨.msix (msixBir read capPtr) (msixTableOffset read capPtr)
    ((shifted read (capPtr + 2) &&& 0x7FF).toUInt16 + 1) vctrl.isSome
    (vctrl.any fun v => v &&& 0x1 ≠ 0), 0, 0⟩

theorem capResource_msix {capPtr : UInt8} (hId : capId read capPtr = 0x11)
    (resources : List Resource) :
    capResource physOffset memory read resources capPtr =
      some (msixRecord read capPtr
        ((probeAddr physOffset read resources capPtr).map memory)) := by
  rw [capResource, hId]
  show some (msixResource physOffset memory read capPtr resources) = _
  unfold msixResource msixRecord probeAddr msixBir msixTableOffset memoryBars
  dsimp only
  by_cases hOffset : physOffset ≠ 0
  · rw [if_pos hOffset, if_pos hOffset]
    cases (resources.filter fun r => r.kind = .memoryMapped)[
        (shifted read (capPtr + 4) &&& 0x7).toUInt8.toNat]? with
    | none => rfl
    | some bar =>
      -- the direct map is added for the pointer and taken off again by the bus
      have hPhys : ∀ p : UInt64, physOffset + p + 12 - physOffset = p + 12 := by
        intro p
        rw [UInt64.add_assoc, UInt64.add_comm, UInt64.add_sub_cancel]
      dsimp only
      rw [hPhys]
      rfl
  · rw [if_neg hOffset, if_neg hOffset]
    rfl

end Probe

-- ---------------------------------------------------------------------------
-- BARs by register
-- ---------------------------------------------------------------------------

namespace Bar

/-- The programmed base address, in memory or I/O space. -/
def base? : Bar → Option UInt64
  | unimplemented => none
  | io b => some b.base.toUInt64
  | mem32 b => some b.base.toUInt64
  | mem64 b => some b.base

/-- The base address of a memory BAR. -/
def memoryBase? : Bar → Option UInt64
  | mem32 b => some b.base.toUInt64
  | mem64 b => some b.base
  | _ => none

end Bar

/-- The BAR whose register, or first register, has the index. -/
def barAt : List Bar → Nat → Option Bar
  | [], _ => none
  | bar :: bars, i =>
    if i = 0 then some bar else if i < bar.width then none else barAt bars (i - bar.width)

section Table

variable (physOffset : UInt64) (read : UInt8 → UInt32) (resources : List Resource)
  (bars : List Bar) (capPtr : UInt8)

/-- The table is looked for where the capability says it is: in the BAR that the BIR
names, at the table offset; and it is looked for whenever that BAR is an assigned
memory BAR. -/
structure ProbesTable : Prop where
  address : ∀ p, probeAddr physOffset read resources capPtr = some p →
    ∃ base, (barAt bars (msixBir read capPtr).toNat).bind Bar.base? = some base ∧
      p = base + (msixTableOffset read capPtr).toUInt64 + 12
  probed  : ∀ base, (barAt bars (msixBir read capPtr).toNat).bind Bar.memoryBase? = some base →
    base ≠ 0 → physOffset ≠ 0 → (probeAddr physOffset read resources capPtr).isSome

/-- The BIR leads to the same address in both numberings: the memory BAR with this
number among those that answer has the base address of the BAR at this register,
and where there is no such memory BAR, none is assigned at the register either. -/
def SameNumbering (bir : Nat) : Prop :=
  match (bars.filterMap Bar.memory?)[bir]? with
  | some r => (barAt bars bir).bind Bar.base? = some r.addr
  | none => ∀ base, (barAt bars bir).bind Bar.memoryBase? = some base → base = 0

end Table

theorem memoryBars_append_interrupt (resources : List Resource) (intrDword : UInt32) :
    memoryBars (resources ++ interruptResource intrDword) = memoryBars resources := by
  unfold memoryBars interruptResource
  dsimp only
  split_ifs
  · simp
  · simp

section Numbering

variable {physOffset : UInt64} {read : UInt8 → UInt32} {resources : List Resource}
  {bars : List Bar} (hBars : memoryBars resources = bars.filterMap Bar.memory?) {capPtr : UInt8}
include hBars

theorem probeAddr_eq (hOffset : physOffset ≠ 0) :
    probeAddr physOffset read resources capPtr =
      ((bars.filterMap Bar.memory?)[(msixBir read capPtr).toNat]?).map fun r =>
        r.addr + (msixTableOffset read capPtr).toUInt64 + 12 := by
  rw [probeAddr, if_pos hOffset, hBars]

theorem probesTable_iff :
    ProbesTable physOffset read resources bars capPtr ↔
      physOffset = 0 ∨ SameNumbering bars (msixBir read capPtr).toNat := by
  by_cases hOffset : physOffset = 0
  · -- without a direct map nothing is read
    have hNone : probeAddr physOffset read resources capPtr = none := if_neg (not_not.mpr hOffset)
    refine iff_of_true ⟨fun p hp => ?_, fun _ _ _ hNe => absurd hOffset hNe⟩ (.inl hOffset)
    cases hNone.symm.trans hp
  have hProbe : probeAddr physOffset read resources capPtr = _ := probeAddr_eq hBars hOffset
  unfold SameNumbering
  cases hGet : (bars.filterMap Bar.memory?)[(msixBir read capPtr).toNat]? with
  | none =>
    rw [hGet, Option.map_none] at hProbe
    refine ⟨fun hT => .inr fun base hBase => ?_, ?_⟩
    · by_contra hNe
      have hSome := hT.probed base hBase hNe hOffset
      rw [hProbe] at hSome
      cases hSome
    · rintro (hZero | hFree)
      · exact absurd hZero hOffset
      · refine ⟨fun p hp => ?_, fun base hBase hNe => absurd (hFree base hBase) hNe⟩
        cases hProbe.symm.trans hp
  | some r =>
    rw [hGet, Option.map_some] at hProbe
    refine ⟨fun hT => .inr ?_, ?_⟩
    · obtain ⟨base, hBase, hAddr⟩ := hT.address _ hProbe
      rw [UInt64.add_left_inj, UInt64.add_left_inj] at hAddr
      show _ = some r.addr
      rw [hAddr]
      exact hBase
    · rintro (hZero | hSame)
      · exact absurd hZero hOffset
      · refine ⟨fun p hp => ⟨r.addr, hSame, ?_⟩, fun _ _ _ _ => by rw [hProbe]; rfl⟩
        cases hProbe.symm.trans hp
        rfl

end Numbering

/-- **Where the MSI-X table is looked for.** `read` shows the configuration space of the
function, `capPtr` is an MSI-X capability on its list. -/
theorem msix_probe_iff (physOffset : UInt64) (m : Machine RegBank) (a : FuncAddr)
    (bars : List Bar) (h : Layout (m.funcs a) 0 bars) (read : UInt8 → UInt32)
    (hList : HasCapList read) (capPtr : UInt8)
    (hVisit : capPtr ∈ capVisits read 48 (read 0x34 &&& 0xFF).toUInt8)
    (hId : capId read capPtr = 0x11) :
    let resources := (readBars (m.funcs a)).1 ++
      interruptResource (ConfigAccess.read (m.funcs a) 0x3C)
    msixRecord read capPtr ((probeAddr physOffset read resources capPtr).map m.memory) ∈
        (m.record physOffset a read).resources ∧
    (ProbesTable physOffset read resources bars capPtr ↔
      physOffset = 0 ∨ SameNumbering bars (msixBir read capPtr).toNat) := by
  intro resources
  have hBars : memoryBars resources = bars.filterMap Bar.memory? :=
    (memoryBars_append_interrupt _ _).trans h.filter_memory
  refine ⟨?_, probesTable_iff hBars⟩
  show _ ∈ (readCapabilities physOffset m.memory read resources).1
  rw [readCapabilities_of_hasCapList hList, capLoop_eq]
  exact List.mem_append_right _
    (List.mem_filterMap.mpr ⟨capPtr, hVisit, capResource_msix physOffset m.memory read hId _⟩)

/-- The table of the sample space is in BAR 0, the first memory BAR. -/
theorem msix_probe_sample :
    Layout (sampleCfg true) 0 (sampleBars true) ∧
    ProbesTable 0x10000000000 (showing sampleSpace)
      ((readBars (sampleCfg true)).1 ++ interruptResource 0) (sampleBars true) 0x70 :=
  ⟨sampleCfg_layout true,
    ((msix_probe_iff 0x10000000000 (machineOf (sampleCfg true)) ⟨0, 0, 0, 0⟩ (sampleBars true)
      (sampleCfg_layout true) (showing sampleSpace)
      ((shows_showing sampleSpace).hasCapList sampleSpace_capList) 0x70 (by decide)
      (by decide)).2).mpr (.inr rfl)⟩

/-- An I/O BAR, a 32-bit BAR at register 1 and a 64-bit BAR behind it. -/
def mixedBars : List Bar :=
  [.io (sampleIo true), .mem32 sampleMem32, .mem64 sampleMem64, .unimplemented, .unimplemented]

def mixedCfg : RegBank := fun k =>
  [(sampleIo true).reg, sampleMem32.reg, sampleMem64.lowReg, sampleMem64.highReg].getD (k - 4)
    ⟨0, 0⟩

/-- An MSI-X capability whose table is at 0x2000 in BAR 1. -/
def mixedSpace : Memory
  | 0x06 => 0x10
  | 0x34 => 0x40
  | 0x40 => 0x11 | 0x44 => 0x01 | 0x45 => 0x20
  | _ => 0

/-- Of the memory BARs, number 1 is the 64-bit BAR: the scan takes the vector control
word from there. -/
theorem msix_table_of_wrong_bar :
    Layout mixedCfg 0 mixedBars ∧ capId (showing mixedSpace) 0x40 = 0x11 ∧
    barAt mixedBars (msixBir (showing mixedSpace) 0x40).toNat = some (.mem32 sampleMem32) ∧
    probeAddr 0x10000000000 (showing mixedSpace)
      ((readBars mixedCfg).1 ++ interruptResource 0) 0x40 = some 0x380000200C ∧
    sampleMem32.base.toUInt64 + 0x2000 + 12 = 0xFEBC300C :=
  ⟨⟨rfl, rfl, ⟨rfl, rfl⟩, rfl, rfl, rfl⟩, by decide, rfl, by decide, by decide⟩

end Neutrix.Pci
