import Neutrix.Devices.AcpiReads

/-!
# Neutrix — the HPET table

The IA-PC HPET specification puts the event timer block id at offset 36, the
generic address structure at 40 and its base address at 44, and ends the table
after 56 bytes. The structure of the source has eleven bytes of other fields
between the header and the generic address structure, so that its address
field lies at 51 and its last field ends at 67.

* `run_readHpet` — the parser, read by read, computes what the parser computes.
* `parseHpet_misreads` — on every table in the specified layout the parser
  reads past the end, and the address it records is made of the top byte of
  the base address, the fields behind it and three bytes behind the table.
-/

namespace Neutrix.Acpi

open Neutrix.Lib
open Neutrix.Lib.Memory (le16 le32 le64)

variable {δ : Type*}

-- ---------------------------------------------------------------------------
-- Tables in the specified layout
-- ---------------------------------------------------------------------------

/-- The fields of the table apart from its length. -/
structure HpetTable where
  signature         : Vector UInt8 4
  revision          : UInt8
  checksum          : UInt8
  oemId             : Vector UInt8 6
  oemTableId        : Vector UInt8 8
  oemRevision       : UInt32
  creatorId         : UInt32
  creatorRevision   : UInt32
  eventTimerBlockId : UInt32
  addressSpace      : UInt8
  bitWidth          : UInt8
  bitOffset         : UInt8
  accessSize        : UInt8
  baseAddress       : UInt64
  hpetNumber        : UInt8
  minimumTick       : UInt16
  pageProtection    : UInt8

/-- The layout of the specification. -/
def encodeHpet (t : HpetTable) : List UInt8 :=
  t.signature.toList ++ le32 56 ++
    ([t.revision, t.checksum] ++ t.oemId.toList ++ t.oemTableId.toList ++ le32 t.oemRevision ++
      le32 t.creatorId ++ le32 t.creatorRevision) ++
    le32 t.eventTimerBlockId ++
    [t.addressSpace, t.bitWidth, t.bitOffset, t.accessSize] ++ le64 t.baseAddress ++
    [t.hpetNumber] ++ le16 t.minimumTick ++ [t.pageProtection]

theorem length_encodeHpet (t : HpetTable) : (encodeHpet t).length = 56 := by
  simp [encodeHpet, le64]

/-- A table whose bytes sum up to zero and that names a base address. -/
structure HpetImage where
  table    : HpetTable
  checksum : sumsToZero (encodeHpet table) = true
  base     : table.baseAddress ≠ 0

def HpetImage.bytes (image : HpetImage) : List UInt8 := encodeHpet image.table

/-- What memory holding an image says to the parser: a good checksum over 56
bytes, and at 51 the end of the base address and the fields behind it. -/
structure HpetHeld (t : Memory) (image : HpetImage) : Prop where
  length   : (AcpiTableHeader.length t).toNat = 56
  checksum : AcpiTableHeader.checksumValid t = true
  behind   : t.Holds 51 (Memory.byteOf (image.table.baseAddress >>> 32).toUInt32 3 ::
    image.table.hpetNumber :: (le16 image.table.minimumTick ++ [image.table.pageProtection]))

theorem hpetHeld_of_holds {t : Memory} {image : HpetImage} (h : t.Holds 0 image.bytes) :
    HpetHeld t image := by
  have hParts := h
  simp only [HpetImage.bytes, encodeHpet, Memory.holds_append, le64] at hParts
  obtain ⟨⟨⟨⟨⟨⟨⟨⟨-, hLengthField⟩, -⟩, -⟩, -⟩, hBase⟩, hNumber⟩, hTick⟩, hProt⟩ := hParts
  have hLength : AcpiTableHeader.length t = 56 :=
    Memory.read32_of_holds (by simpa using hLengthField)
  refine ⟨by rw [hLength]; rfl, ?_, ?_⟩
  · rw [AcpiTableHeader.checksumValid, hLength]
    have hBytes : t.bytes 56 = image.bytes := by
      have := Memory.bytes_of_holds h
      rwa [HpetImage.bytes, length_encodeHpet] at this
    exact (congrArg sumsToZero hBytes).trans image.checksum
  · have hTop := hBase.2.2.2.2.1
    simp at hTop hNumber hTick hProt
    simp [hTop, hNumber, hTick, hProt]

-- ---------------------------------------------------------------------------
-- The parser, read by read
-- ---------------------------------------------------------------------------

/-- `parse_hpet`: the checksum, the copy of the generic address structure, and the
period if there is an address. -/
def readHpet (tablePtr : Nat) (s : State δ) : Reading (State δ) :=
  if tablePtr = 0 then .pure s
  else
    (readChecksumValid tablePtr).bind fun valid =>
      if !valid then .pure s
      else
        (Reading.bytes (tablePtr + 47) 4).bind fun _ =>
          (Reading.read64 (tablePtr + 51)).bind fun addr =>
            if addr ≠ 0 then
              (Reading.read32 (tablePtr + 63)).bind fun period =>
                .pure (State.registerDevice
                  { s with hpetBase := some addr, hpetPeriodFs := period.toUInt64 }
                  (hpetDevice addr))
            else .pure s

theorem run_readHpet (mem : Memory) (tablePtr : Nat) (s : State δ) :
    (readHpet tablePtr s).run mem = parseHpet mem tablePtr s := by
  unfold readHpet parseHpet
  by_cases hPtr : tablePtr = 0
  · rw [if_pos hPtr, if_pos hPtr, Reading.run_pure]
  rw [if_neg hPtr, if_neg hPtr, Reading.run_bind, run_readChecksumValid]
  dsimp only
  by_cases hSum : (!AcpiTableHeader.checksumValid (mem.drop tablePtr)) = true
  · rw [if_pos hSum, if_pos hSum, Reading.run_pure]
  rw [if_neg hSum, if_neg hSum, Reading.run_bind, Reading.run_bind, Reading.run_read64,
    Memory.read64_drop, Memory.read32_drop]
  by_cases hAddr : mem.read64 (tablePtr + 51) ≠ 0
  · rw [if_pos hAddr, if_pos hAddr, Reading.run_bind, Reading.run_read32, Reading.run_pure]
  · rw [if_neg hAddr, if_neg hAddr, Reading.run_pure]

-- ---------------------------------------------------------------------------
-- What it makes of a table
-- ---------------------------------------------------------------------------

section Misread

variable {mem : Memory} {tablePtr : Nat} (hPtr : tablePtr ≠ 0)
  (hSum : AcpiTableHeader.checksumValid (mem.drop tablePtr) = true) (s : State δ)
include hPtr hSum

/-- The copy of the generic address structure ends at 59. -/
theorem not_within_readHpet :
    ¬ Reading.Within mem tablePtr (tablePtr + 56) (readHpet tablePtr s) := by
  intro hWithin
  rw [readHpet, if_neg hPtr, Reading.within_bind, run_readChecksumValid, hSum,
    if_neg (by decide), Reading.within_bind, Reading.within_bind, Reading.within_read64] at hWithin
  omega

theorem parseHpet_hpetBase :
    (parseHpet mem tablePtr s).hpetBase =
      if (mem.drop tablePtr).read64 51 = 0 then s.hpetBase
      else some ((mem.drop tablePtr).read64 51) := by
  simp only [parseHpet, if_neg hPtr, hSum, Bool.not_true, Bool.false_eq_true, if_false]
  by_cases hAddr : (mem.drop tablePtr).read64 51 = 0
  · rw [if_neg (not_not.mpr hAddr), if_pos hAddr]
  · rw [if_pos hAddr, if_neg hAddr]
    rfl

end Misread

/-- **The HPET table is misread.** The address comes from offset 51 of the table
instead of 44, and the parser reads past the table's end on every table. -/
theorem parseHpet_misreads (mem : Memory) (tablePtr : Nat) (hPtr : tablePtr ≠ 0)
    (image : HpetImage) (hHolds : mem.Holds tablePtr image.bytes) (s : State δ) :
    ¬ ((parseHpet mem tablePtr s).hpetBase = some image.table.baseAddress ∧
      Reading.Within mem tablePtr (tablePtr + 56) (readHpet tablePtr s)) ∧
    ∃ addr : UInt64,
      (parseHpet mem tablePtr s).hpetBase = (if addr = 0 then s.hpetBase else some addr) ∧
      le64 addr = Memory.byteOf (image.table.baseAddress >>> 32).toUInt32 3 ::
        image.table.hpetNumber :: (le16 image.table.minimumTick ++ image.table.pageProtection ::
          [mem (tablePtr + 56), mem (tablePtr + 57), mem (tablePtr + 58)]) := by
  have hHeld : HpetHeld (mem.drop tablePtr) image :=
    hpetHeld_of_holds ((Memory.holds_drop mem tablePtr 0 _).mpr hHolds)
  refine ⟨fun h => not_within_readHpet hPtr hHeld.checksum s h.2,
    (mem.drop tablePtr).read64 51, parseHpet_hpetBase hPtr hHeld.checksum s, ?_⟩
  obtain ⟨hTop, hNumber, hTick, hTick', hProt, -⟩ := hHeld.behind
  rw [Memory.le64_read64, hTop, hNumber, hTick, hTick', hProt]
  rfl

/-- The table of a PC: the timer block at 0xFED00000 with a minimum tick of 0x37EE. -/
def sampleHpetImage : HpetImage where
  table :=
    { signature := #v[72, 80, 69, 84], revision := 1, checksum := 186
      oemId := .replicate 6 0, oemTableId := .replicate 8 0, oemRevision := 0, creatorId := 0
      creatorRevision := 0, eventTimerBlockId := 0x8086A201, addressSpace := 0, bitWidth := 64
      bitOffset := 0, accessSize := 0, baseAddress := 0xFED00000, hpetNumber := 0
      minimumTick := 0x37EE, pageProtection := 0 }
  checksum := by decide +kernel
  base := by decide

/-- The table at 64, with nothing but zeros behind it. -/
def sampleHpetMemory : Memory := fun i => (List.replicate 64 0 ++ sampleHpetImage.bytes).getD i 0

/-- The tick and the zeros around it are taken for the address. -/
theorem parseHpet_records_the_tick :
    sampleHpetMemory.Holds 64 sampleHpetImage.bytes ∧
    (parseHpet sampleHpetMemory 64 emptyState).hpetBase = some 0x37EE0000 ∧
    64 + 58 ∈ (readHpet 64 emptyState).reads sampleHpetMemory := by
  decide +kernel

theorem parseHpet_misreads_sampleHpetImage :
    sampleHpetMemory.Holds 64 sampleHpetImage.bytes ∧
    ¬ ((parseHpet sampleHpetMemory 64 emptyState).hpetBase = some 0xFED00000 ∧
      Reading.Within sampleHpetMemory 64 (64 + 56) (readHpet 64 emptyState)) := by
  have hHolds : sampleHpetMemory.Holds 64 sampleHpetImage.bytes := by decide +kernel
  exact ⟨hHolds,
    (parseHpet_misreads sampleHpetMemory 64 (by decide) sampleHpetImage hHolds emptyState).1⟩

end Neutrix.Acpi
