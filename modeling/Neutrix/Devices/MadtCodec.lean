import Neutrix.Devices.AcpiReads

/-!
# Neutrix — MADT images and what the parser makes of them

The format the parser reads, written down as an encoder: a 44-byte header
with the table's length and checksum, and behind it records of any types,
each with its type, its size and a payload. A `MadtRecord` fits its size
byte by construction, a `MadtImage` its length field and its checksum.

The offset of the entry loop stays in step with the encoder
(`madtOffsets_encode`), so decoding gives back what was encoded:

- `parseMadt_decodes` — the parser appends the IOAPICs and the overrides
  of the image, in its order, registers a device for each IOAPIC and
  stores the local APIC address, whatever lies behind the table.
-/

namespace Neutrix.Acpi

open Neutrix.Lib
open Neutrix.Lib.Memory (le16 le32)
open Neutrix.Ioapic (IoApicInfo IsoInfo)

variable {δ : Type*}

-- ---------------------------------------------------------------------------
-- Records
-- ---------------------------------------------------------------------------

/-- The contents of an interrupt controller structure. Structures may be longer than
the fields the kernel knows. -/
inductive MadtBody where
  | ioApic (info : IoApicInfo) (reserved : UInt8) (rest : List UInt8)
  | iso (info : IsoInfo) (rest : List UInt8)
  | other (entryType : UInt8) (hType : entryType ≠ 1 ∧ entryType ≠ 2) (payload : List UInt8)

namespace MadtBody

def entryType : MadtBody → UInt8
  | ioApic _ _ _ => 1
  | iso _ _ => 2
  | other entryType _ _ => entryType

/-- What follows the two header bytes. -/
def payload : MadtBody → List UInt8
  | ioApic info reserved rest => [info.id, reserved] ++ le32 info.addr ++ le32 info.gsiBase ++ rest
  | iso info rest => [info.bus, info.source] ++ le32 info.gsi ++ le16 info.flags ++ rest
  | other _ _ payload => payload

def size (b : MadtBody) : Nat := 2 + b.payload.length

def ioApic? : MadtBody → Option IoApicInfo
  | ioApic info _ _ => some info
  | _ => none

def iso? : MadtBody → Option IsoInfo
  | iso info _ => some info
  | _ => none

end MadtBody

/-- A record whose size fits the length byte. -/
structure MadtRecord where
  body    : MadtBody
  size_lt : body.size < 2 ^ 8

def MadtRecord.encode (r : MadtRecord) : List UInt8 :=
  r.body.entryType :: UInt8.ofNat r.body.size :: r.body.payload

def encodeRecords (rs : List MadtRecord) : List UInt8 := rs.flatMap MadtRecord.encode

theorem MadtRecord.length_encode (r : MadtRecord) : r.encode.length = r.body.size := by
  simp only [encode, MadtBody.size, List.length_cons]
  omega

theorem MadtRecord.size_toNat (r : MadtRecord) : (UInt8.ofNat r.body.size).toNat = r.body.size := by
  rw [UInt8.toNat_ofNat', Nat.mod_eq_of_lt r.size_lt]

-- ---------------------------------------------------------------------------
-- Images
-- ---------------------------------------------------------------------------

/-- The header fields apart from the length, which follows from the records. -/
structure MadtHeader where
  signature       : Vector UInt8 4
  revision        : UInt8
  checksum        : UInt8
  oemId           : Vector UInt8 6
  oemTableId      : Vector UInt8 8
  oemRevision     : UInt32
  creatorId       : UInt32
  creatorRevision : UInt32
  localApicAddr   : UInt32
  flags           : UInt32

def encodeMadt (h : MadtHeader) (rs : List MadtRecord) : List UInt8 :=
  h.signature.toList ++ le32 (UInt32.ofNat (44 + (encodeRecords rs).length)) ++
    ([h.revision, h.checksum] ++ h.oemId.toList ++ h.oemTableId.toList ++ le32 h.oemRevision ++
      le32 h.creatorId ++ le32 h.creatorRevision) ++
    le32 h.localApicAddr ++ le32 h.flags ++ encodeRecords rs

theorem length_encodeMadt (h : MadtHeader) (rs : List MadtRecord) :
    (encodeMadt h rs).length = 44 + (encodeRecords rs).length := by
  simp [encodeMadt]
  omega

/-- An image whose length fits its field and whose bytes sum up to zero. -/
structure MadtImage where
  header    : MadtHeader
  records   : List MadtRecord
  length_lt : 44 + (encodeRecords records).length < 2 ^ 32
  checksum  : sumsToZero (encodeMadt header records) = true

def MadtImage.bytes (image : MadtImage) : List UInt8 := encodeMadt image.header image.records

def MadtImage.ioApics (image : MadtImage) : List IoApicInfo :=
  image.records.filterMap fun r => r.body.ioApic?

def MadtImage.isos (image : MadtImage) : List IsoInfo :=
  image.records.filterMap fun r => r.body.iso?

/-- What memory holding an image says to a reader of the header. -/
structure Decoded (t : Memory) (image : MadtImage) : Prop where
  length    : (AcpiTableHeader.length t).toNat = 44 + (encodeRecords image.records).length
  checksum  : AcpiTableHeader.checksumValid t = true
  localApic : t.read32 36 = image.header.localApicAddr
  entries   : t.Holds 44 (encodeRecords image.records)

theorem decoded_of_holds {t : Memory} {image : MadtImage} (h : t.Holds 0 image.bytes) :
    Decoded t image := by
  have hParts := h
  simp only [MadtImage.bytes, encodeMadt, Memory.holds_append] at hParts
  obtain ⟨⟨⟨⟨⟨-, hLengthField⟩, -⟩, hApic⟩, -⟩, hEntries⟩ := hParts
  have hLength : (AcpiTableHeader.length t).toNat =
      44 + (encodeRecords image.records).length := by
    have hRead : AcpiTableHeader.length t =
        UInt32.ofNat (44 + (encodeRecords image.records).length) :=
      Memory.read32_of_holds (by simpa using hLengthField)
    rw [hRead, UInt32.toNat_ofNat', Nat.mod_eq_of_lt image.length_lt]
  refine ⟨hLength, ?_, Memory.read32_of_holds (by simpa using hApic), by simpa using hEntries⟩
  rw [AcpiTableHeader.checksumValid, hLength, ← length_encodeMadt image.header image.records]
  exact (congrArg sumsToZero (Memory.bytes_of_holds h)).trans image.checksum

-- ---------------------------------------------------------------------------
-- Decoding
-- ---------------------------------------------------------------------------

/-- The two header bytes of an encoded record. -/
theorem MadtRecord.header_of_holds {entry : Memory} {r : MadtRecord}
    (h : entry.Holds 0 r.encode) :
    entry 0 = r.body.entryType ∧ (entry 1).toNat = r.body.size ∧
      entry.Holds 2 r.body.payload := by
  obtain ⟨hType, hSize, hPayload⟩ := h
  have hLen : (entry 1).toNat = (UInt8.ofNat r.body.size).toNat := congrArg UInt8.toNat hSize
  exact ⟨hType, hLen.trans r.size_toNat, hPayload⟩

theorem ioApicEntry_encode {entry : Memory} {r : MadtRecord} (h : entry.Holds 0 r.encode) :
    ioApicEntry entry = r.body.ioApic? := by
  obtain ⟨hType, hSize, hPayload⟩ := MadtRecord.header_of_holds h
  rw [ioApicEntry, hType, hSize]
  cases hBody : r.body with
  | ioApic info reserved rest =>
    rw [hBody] at hPayload
    simp only [MadtBody.payload, Memory.holds_append, Memory.holds_cons] at hPayload
    obtain ⟨⟨⟨⟨hId, -⟩, hAddr⟩, hBase⟩, -⟩ := hPayload
    have hInfo : ioApicOf entry = info := by
      rw [ioApicOf, hId, Memory.read32_of_holds (v := info.addr) (by simpa using hAddr),
        Memory.read32_of_holds (v := info.gsiBase) (by simpa using hBase)]
    rw [if_pos ⟨rfl, by simp [MadtBody.size, MadtBody.payload]; omega⟩, hInfo, MadtBody.ioApic?]
  | iso info rest =>
    exact if_neg fun hIo => absurd hIo.1 (show ¬ (2 : UInt8) = 1 by decide)
  | other entryType hOther payload => exact if_neg fun hIo => hOther.1 hIo.1

theorem isoEntry_encode {entry : Memory} {r : MadtRecord} (h : entry.Holds 0 r.encode) :
    isoEntry entry = r.body.iso? := by
  obtain ⟨hType, hSize, hPayload⟩ := MadtRecord.header_of_holds h
  rw [isoEntry, hType, hSize]
  cases hBody : r.body with
  | ioApic info reserved rest =>
    exact if_neg fun hIso => absurd hIso.1 (show ¬ (1 : UInt8) = 2 by decide)
  | iso info rest =>
    rw [hBody] at hPayload
    simp only [MadtBody.payload, Memory.holds_append, Memory.holds_cons] at hPayload
    obtain ⟨⟨⟨⟨hBus, hSource, -⟩, hGsi⟩, hFlags⟩, -⟩ := hPayload
    have hInfo : isoOf entry = info := by
      rw [isoOf, hBus, hSource, Memory.read32_of_holds (v := info.gsi) (by simpa using hGsi),
        Memory.read16_of_holds (v := info.flags) (by simpa using hFlags)]
    rw [if_pos ⟨rfl, by simp [MadtBody.size, MadtBody.payload]; omega⟩, hInfo, MadtBody.iso?]
  | other entryType hOther payload => exact if_neg fun hIso => hOther.2 hIso.1

/-- The chain of entries visits exactly the encoded records: every size byte leads to the
next record, the last one to the end of the table. `f` is what is made of an entry,
`g` what is made of its record. -/
theorem madtOffsets_encode {β : Type*} {f : Memory → Option β} {g : MadtRecord → Option β}
    (hEntry : ∀ (entry : Memory) (r : MadtRecord), entry.Holds 0 r.encode → f entry = g r)
    (t : Memory) (rs : List MadtRecord) (offset : Nat) (h : t.Holds offset (encodeRecords rs)) :
    ((madtOffsets t (offset + (encodeRecords rs).length) offset).map t.drop).filterMap f =
      rs.filterMap g := by
  induction rs generalizing offset with
  | nil =>
    rw [madtOffsets, if_neg (by simp [encodeRecords])]
    rfl
  | cons r rs ih =>
    have hSplit : encodeRecords (r :: rs) = r.encode ++ encodeRecords rs := rfl
    rw [hSplit, Memory.holds_append, r.length_encode] at h
    have hHere : (t.drop offset).Holds 0 r.encode := (Memory.holds_drop t offset 0 _).mpr h.1
    have hSize : (t (offset + 1)).toNat = r.body.size := (MadtRecord.header_of_holds hHere).2.1
    have hPos : 2 ≤ r.body.size := Nat.le_add_right 2 _
    have hLen : offset + (encodeRecords (r :: rs)).length =
        offset + r.body.size + (encodeRecords rs).length := by
      rw [hSplit, List.length_append, r.length_encode, Nat.add_assoc]
    rw [hLen, madtOffsets, hSize, if_pos ⟨by omega, by omega⟩, List.map_cons,
      List.filterMap_cons, List.filterMap_cons, hEntry _ r hHere, ih _ h.2]

/-- The entry loop does not touch the stored local APIC address. -/
theorem madtLoop_localApicAddr (mem : Memory) (tablePtr len : Nat) :
    ∀ (fuel offset : Nat) (s : State δ),
      (madtLoop mem tablePtr len fuel offset s).madtLocalApicAddr = s.madtLocalApicAddr := by
  intro fuel
  induction fuel with
  | zero => exact fun _ _ => rfl
  | succ fuel ih =>
    intro offset s
    have hEntry : ∀ entry n, (madtEntry entry n s).madtLocalApicAddr = s.madtLocalApicAddr := by
      intro entry n
      unfold madtEntry
      split_ifs <;> rfl
    simp only [madtLoop]
    split_ifs
    · rfl
    · rfl
    · rw [ih, hEntry]
    · rfl

/-- **Decoding gives back what was encoded.** For every image at a non-null address the
parser returns, appends the IOAPICs and the overrides of the image in its order,
registers one device per IOAPIC and stores the local APIC address of the header. -/
theorem parseMadt_decodes (mem : Memory) (tablePtr : Nat) (image : MadtImage)
    (hPtr : tablePtr ≠ 0) (hImage : mem.Holds tablePtr image.bytes) (s : State δ) :
    let t := parseMadt mem tablePtr s
    (readMadt tablePtr s).run mem = some t ∧
    t.ioapics = s.ioapics ++ image.ioApics ∧
    t.isos = s.isos ++ image.isos ∧
    t.mgr = registerAll s.mgr (image.ioApics.map ioApicDevice) ∧
    t.madtLocalApicAddr = image.header.localApicAddr.toUInt64 := by
  intro t
  have hDecoded : Decoded (mem.drop tablePtr) image :=
    decoded_of_holds ((Memory.holds_drop mem tablePtr 0 _).mpr hImage)
  have hAppends := parseMadt_appends mem hPtr hDecoded.checksum s
  have hIoApics : ioApicsOf (mem.drop tablePtr) = image.ioApics := by
    rw [ioApicsOf, madtEntries, hDecoded.length]
    exact madtOffsets_encode (fun _ _ => ioApicEntry_encode) _ _ 44 hDecoded.entries
  have hIsos : isosOf (mem.drop tablePtr) = image.isos := by
    rw [isosOf, madtEntries, hDecoded.length]
    exact madtOffsets_encode (fun _ _ => isoEntry_encode) _ _ 44 hDecoded.entries
  refine ⟨run_readMadt mem tablePtr s, ?_, ?_, ?_, ?_⟩
  · rw [hAppends.ioapics, madtFound_ioapics, hIoApics]
  · rw [hAppends.isos, madtFound_isos, hIsos]
  · have hDevices : (madtFound (mem.drop tablePtr)).devices =
        (ioApicsOf (mem.drop tablePtr)).map ioApicDevice := by
      rw [← madtFound_ioapics]
      exact (List.map_flatMap ..).symm
    rw [hAppends.mgr, hDevices, hIoApics]
  · show (parseMadt mem tablePtr s).madtLocalApicAddr = _
    simp only [parseMadt, if_neg hPtr, hDecoded.checksum, Bool.not_true, Bool.false_eq_true,
      if_false]
    rw [madtLoop_localApicAddr, hDecoded.localApic]

/-- A processor, an IOAPIC and the override of the timer interrupt. -/
def sampleRecords : List MadtRecord :=
  [⟨.other 0 (by decide) [0, 0, 1, 0, 0, 0], by decide⟩,
    ⟨.ioApic ⟨5, 0xFEC00000, 24⟩ 0 [], by decide⟩,
    ⟨.iso ⟨0, 0, 2, 0⟩ [], by decide⟩]

def sampleMadtImage : MadtImage where
  header :=
    { signature := #v[65, 80, 73, 67], revision := 1, checksum := 187
      oemId := .replicate 6 0, oemTableId := .replicate 8 0, oemRevision := 0, creatorId := 0
      creatorRevision := 0, localApicAddr := 0xFEE00000, flags := 0 }
  records := sampleRecords
  length_lt := by decide
  checksum := by decide +kernel

/-- The image at 64. -/
def sampleMadtMemory : Memory := fun i => (List.replicate 64 0 ++ sampleMadtImage.bytes).getD i 0

/-- The sample image is decoded into its IOAPIC and its override. -/
theorem parseMadt_decodes_sampleMadtImage :
    sampleMadtMemory.Holds 64 sampleMadtImage.bytes ∧
    (parseMadt sampleMadtMemory 64 emptyState).ioapics = [⟨5, 0xFEC00000, 24⟩] ∧
    (parseMadt sampleMadtMemory 64 emptyState).isos = [⟨0, 0, 2, 0⟩] ∧
    (parseMadt sampleMadtMemory 64 emptyState).madtLocalApicAddr = 0xFEE00000 := by
  have hImage : sampleMadtMemory.Holds 64 sampleMadtImage.bytes := by decide +kernel
  obtain ⟨-, hIoApics, hIsos, -, hApic⟩ :=
    parseMadt_decodes sampleMadtMemory 64 sampleMadtImage (by decide) hImage emptyState
  exact ⟨hImage, hIoApics, hIsos, hApic⟩

end Neutrix.Acpi
