import Neutrix.Devices.MadtCodec

/-!
# Neutrix — ACPI tables, encoded and parsed

The tables that `src/devices/acpi/acpi.rs` reads, written down as an encoder:
a header with the table's length and checksum, and behind it the contents of
one of the tables the kernel knows, or any bytes under another signature. A
FACP has its command port and commands, an MADT records of any types, an MCFG
its allocations and possibly a rest that is no record. An HPET has the 56
bytes of its specification. The structure of the source has other offsets: it
takes the address from byte 51 and the period from byte 63, both of which reach
behind the table, so what an HPET comes to depends on the memory there.

* `Table.record` — what a table says, as a change of the parser's state.
* `Table.printTableInfo_eq` — a table in memory is parsed into what it says.
-/

namespace Neutrix.Acpi

open Neutrix.Lib
open Neutrix.Lib.Memory (le16 le32 le64)
open Neutrix.Ioapic (IoApicInfo IsoInfo)

variable {δ : Type*}

-- ---------------------------------------------------------------------------
-- The header of a table
-- ---------------------------------------------------------------------------

/-- The header fields apart from signature and length. -/
structure SdtFields where
  revision        : UInt8
  checksum        : UInt8
  oemId           : Vector UInt8 6
  oemTableId      : Vector UInt8 8
  oemRevision     : UInt32
  creatorId       : UInt32
  creatorRevision : UInt32

def encodeSdt (signature : List UInt8) (fields : SdtFields) (body : List UInt8) : List UInt8 :=
  signature ++ le32 (UInt32.ofNat (36 + body.length)) ++
    ([fields.revision, fields.checksum] ++ fields.oemId.toList ++ fields.oemTableId.toList ++
      le32 fields.oemRevision ++ le32 fields.creatorId ++ le32 fields.creatorRevision) ++ body

/-- A header for a body, whose length fits its field and whose bytes sum up to zero. -/
structure Sdt (signature body : List UInt8) where
  fields    : SdtFields
  four      : signature.length = 4
  length_lt : 36 + body.length < 2 ^ 32
  checksum  : sumsToZero (encodeSdt signature fields body) = true

section

variable {signature body : List UInt8}

def Sdt.bytes (sdt : Sdt signature body) : List UInt8 := encodeSdt signature sdt.fields body

theorem Sdt.length_bytes (sdt : Sdt signature body) : sdt.bytes.length = 36 + body.length := by
  simp [bytes, encodeSdt, sdt.four]
  omega

/-- What memory holding a table says to a reader of the header. -/
structure SdtHeld (t : Memory) (signature body : List UInt8) : Prop where
  signature : AcpiTableHeader.signature t = signature
  length    : (AcpiTableHeader.length t).toNat = 36 + body.length
  checksum  : AcpiTableHeader.checksumValid t = true
  body      : t.Holds 36 body

theorem Sdt.held {t : Memory} (sdt : Sdt signature body) (h : t.Holds 0 sdt.bytes) :
    SdtHeld t signature body := by
  have hParts := h
  simp only [Sdt.bytes, encodeSdt, Memory.holds_append, sdt.four] at hParts
  obtain ⟨⟨⟨hSig, hLengthField⟩, -⟩, hBody⟩ := hParts
  have hLength : (AcpiTableHeader.length t).toNat = 36 + body.length := by
    have hRead : AcpiTableHeader.length t = UInt32.ofNat (36 + body.length) :=
      Memory.read32_of_holds hLengthField
    rw [hRead, UInt32.toNat_ofNat', Nat.mod_eq_of_lt sdt.length_lt]
  refine ⟨?_, hLength, ?_, by simpa [sdt.four] using hBody⟩
  · have hBytes := Memory.bytes_of_holds hSig
    rwa [sdt.four] at hBytes
  · rw [AcpiTableHeader.checksumValid, hLength, ← sdt.length_bytes]
    exact (congrArg sumsToZero (Memory.bytes_of_holds h)).trans sdt.checksum

end

-- ---------------------------------------------------------------------------
-- The tables the kernel knows
-- ---------------------------------------------------------------------------

def McfgAllocation.encode (alloc : McfgAllocation) : List UInt8 :=
  le64 alloc.baseAddress ++ le16 alloc.pciSegmentGroup ++ [alloc.startBus, alloc.endBus] ++
    alloc.reserved.toList

inductive Contents where
  | facp (before : Vector UInt8 12) (smiCmd : UInt32) (acpiEnable acpiDisable : UInt8)
      (rest : List UInt8)
  | madt (localApicAddr flags : UInt32) (records : List MadtRecord)
  | hpet (eventTimerBlockId : UInt32) (addressSpace bitWidth bitOffset accessSize : UInt8)
      (baseAddress : UInt64) (hpetNumber : UInt8) (minimumTick : UInt16) (pageProtection : UInt8)
  | mcfg (reserved : Vector UInt8 8) (allocs : List McfgAllocation) (rest : List UInt8)
      (hRest : rest.length < 16)
  | other (signature : List UInt8)
      (hOther : signature ∉ [facpSignature, apicSignature, hpetSignature, mcfgSignature])
      (body : List UInt8)

namespace Contents

def signature : Contents → List UInt8
  | facp .. => facpSignature
  | madt .. => apicSignature
  | hpet .. => hpetSignature
  | mcfg .. => mcfgSignature
  | other signature _ _ => signature

/-- What follows the header. -/
def body : Contents → List UInt8
  | facp before smiCmd acpiEnable acpiDisable rest =>
    before.toList ++ le32 smiCmd ++ [acpiEnable, acpiDisable] ++ rest
  | madt localApicAddr flags records =>
    le32 localApicAddr ++ le32 flags ++ encodeRecords records
  | hpet eventTimerBlockId addressSpace bitWidth bitOffset accessSize baseAddress hpetNumber
      minimumTick pageProtection =>
    le32 eventTimerBlockId ++ [addressSpace, bitWidth, bitOffset, accessSize] ++
      le64 baseAddress ++ [hpetNumber] ++ le16 minimumTick ++ [pageProtection]
  | mcfg reserved allocs rest _ =>
    reserved.toList ++ allocs.flatMap McfgAllocation.encode ++ rest
  | other _ _ body => body

end Contents

structure Table where
  contents : Contents
  sdt      : Sdt contents.signature contents.body

def Table.bytes (t : Table) : List UInt8 := t.sdt.bytes

-- ---------------------------------------------------------------------------
-- What a table says
-- ---------------------------------------------------------------------------

def MadtRecord.record (r : MadtRecord) (s : State δ) : State δ :=
  match r.body with
  | .ioApic info _ _ =>
    State.registerDevice { s with ioapics := s.ioapics ++ [info] } (ioApicDevice info)
  | .iso info _ => { s with isos := s.isos ++ [info] }
  | .other .. => s

/-- `t` is the memory from the table on. -/
def Contents.record (c : Contents) (t : Memory) (s : State δ) : State δ :=
  match c with
  | .facp _ smiCmd acpiEnable acpiDisable _ =>
    -- a zero command is not written, and nothing is without a command port
    let commands := [acpiDisable, acpiEnable].filter fun cmd => smiCmd ≠ 0 ∧ cmd ≠ 0
    { s with portWrites := s.portWrites ++ commands.map fun cmd => (smiCmd.toUInt16, cmd) }
  | .madt localApicAddr _ records =>
    records.foldl (fun s r => r.record s) { s with madtLocalApicAddr := localApicAddr.toUInt64 }
  | .hpet .. =>
    if t.read64 51 = 0 then s
    else State.registerDevice
      { s with hpetBase := some (t.read64 51), hpetPeriodFs := (t.read32 63).toUInt64 }
      (hpetDevice (t.read64 51))
  | .mcfg _ allocs _ _ => allocs.foldl (fun s alloc => mcfgEntry alloc s) s
  | .other .. => s

/-- The device every table is registered as. -/
def Table.device (t : Table) (p : UInt64) : DeviceInfo :=
  mmioDevice 0xffff 0xFF p (UInt64.ofNat t.bytes.length)
    ("ACPI table: " ++ (String.fromUTF8? ⟨t.contents.signature.toArray⟩).getD "INVALID")

/-- The table at `p` of the image. -/
def Table.record (t : Table) (image : Memory) (p : UInt64) (s : State δ) : State δ :=
  t.contents.record (image.drop p.toNat) (s.registerDevice (t.device p))

/-- The entries among it that go into the manager and the three lists. -/
def MadtRecord.found (r : MadtRecord) : Found where
  devices := r.body.ioApic?.toList.map ioApicDevice
  ioapics := r.body.ioApic?.toList
  isos    := r.body.iso?.toList

def Contents.found (t : Memory) : Contents → Found
  | .facp .. => {}
  | .madt _ _ records => Found.flat MadtRecord.found records
  | .hpet .. => hpetFound t
  | .mcfg _ allocs _ _ => Found.flat allocFound allocs
  | .other .. => {}

def Table.found (t : Table) (image : Memory) (p : UInt64) : Found :=
  let inner := t.contents.found (image.drop p.toNat)
  { inner with devices := t.device p :: inner.devices }

theorem MadtRecord.record_appends (r : MadtRecord) (s : State δ) :
    Appends s (r.record s) r.found := by
  rw [MadtRecord.record]
  constructor <;> cases hBody : r.body <;>
    simp [MadtRecord.found, MadtBody.ioApic?, MadtBody.iso?, hBody, State.registerDevice,
      registerAll]

theorem Contents.record_appends (c : Contents) (t : Memory) (s : State δ) :
    Appends s (c.record t s) (c.found t) := by
  cases c with
  | facp => exact ⟨rfl, by simp [record, found], by simp [record, found], by simp [record, found]⟩
  | madt localApicAddr flags records =>
    have hFold := Appends.foldl (fun s r => MadtRecord.record_appends (δ := δ) r s) records
      { s with madtLocalApicAddr := localApicAddr.toUInt64 }
    exact ⟨hFold.mgr, hFold.ioapics, hFold.isos, hFold.allocs⟩
  | hpet =>
    rw [record, found, hpetFound]
    by_cases hAddr : t.read64 51 = 0
    · rw [if_pos hAddr, if_neg (not_not.mpr hAddr)]
      exact Appends.refl s
    · rw [if_neg hAddr, if_pos hAddr]
      have hReg := register_appends
        { s with hpetBase := some (t.read64 51), hpetPeriodFs := (t.read32 63).toUInt64 }
        (hpetDevice (t.read64 51))
      exact ⟨hReg.mgr, hReg.ioapics, hReg.isos, hReg.allocs⟩
  | mcfg reserved allocs rest hRest =>
    exact Appends.foldl (fun s alloc => mcfgEntry_appends (δ := δ) alloc s) allocs s
  | other => exact Appends.refl s

theorem Table.record_appends (t : Table) (image : Memory) (p : UInt64) (s : State δ) :
    Appends s (t.record image p s) (t.found image p) :=
  (register_appends s (t.device p)).trans (t.contents.record_appends _ _)

-- ---------------------------------------------------------------------------
-- Reading one table
-- ---------------------------------------------------------------------------

theorem madtEntry_encode {entry : Memory} {r : MadtRecord} (h : entry.Holds 0 r.encode)
    (s : State δ) : madtEntry entry r.body.size s = r.record s := by
  have hIo := ioApicEntry_encode h
  have hIso := isoEntry_encode h
  obtain ⟨hType, hSize, -⟩ := MadtRecord.header_of_holds h
  rw [← hSize, MadtRecord.record, madtEntry]
  cases hBody : r.body with
  | ioApic info reserved rest =>
    rw [hBody] at hIo
    obtain ⟨⟨hOne, hLen⟩, hInfo⟩ := Option.ite_none_right_eq_some.mp hIo
    rw [if_pos hOne, if_pos hLen, Option.some.inj hInfo]
  | iso info rest =>
    rw [hBody] at hIso
    obtain ⟨⟨hTwo, hLen⟩, hInfo⟩ := Option.ite_none_right_eq_some.mp hIso
    rw [hTwo, if_neg (by decide), if_pos rfl, if_pos hLen, Option.some.inj hInfo]
  | other entryType hOther payload =>
    have hEntry : entry 0 = entryType := by rw [hType, hBody]; rfl
    rw [hEntry, if_neg hOther.1, if_neg hOther.2]

/-- The loop stays in step with the records and ends behind the last one. -/
theorem madtLoop_encode {mem : Memory} {tablePtr tableLen : Nat} (hPtr : tablePtr ≠ 0)
    {rs : List MadtRecord} {fuel offset : Nat} (hFuel : rs.length ≤ fuel)
    (hEnd : offset + (encodeRecords rs).length = tableLen)
    (h : mem.Holds (tablePtr + offset) (encodeRecords rs)) (s : State δ) :
    madtLoop mem tablePtr tableLen fuel offset s = rs.foldl (fun s r => r.record s) s := by
  induction rs generalizing fuel offset s with
  | nil =>
    have hStop : ¬ offset < tableLen := by rw [← hEnd]; simp [encodeRecords]
    cases fuel with
    | zero => rfl
    | succ fuel => rw [madtLoop, if_neg hStop, List.foldl_nil]
  | cons r rs ih =>
    obtain ⟨fuel, rfl⟩ : ∃ n, fuel = n + 1 := Nat.exists_eq_add_one.mpr (by simp at hFuel; omega)
    have hSplit : encodeRecords (r :: rs) = r.encode ++ encodeRecords rs := rfl
    rw [hSplit, Memory.holds_append, r.length_encode] at h
    rw [hSplit, List.length_append, r.length_encode] at hEnd
    have hHere : (mem.drop (tablePtr + offset)).Holds 0 r.encode :=
      (Memory.holds_drop mem _ 0 _).mpr h.1
    have hSize := (MadtRecord.header_of_holds hHere).2.1
    have hPos : 2 ≤ r.body.size := Nat.le_add_right 2 _
    simp only [madtLoop, if_pos (show offset < tableLen by omega),
      if_neg (show ¬ tablePtr + offset = 0 by omega), hSize,
      if_neg (show ¬ r.body.size = 0 by omega), madtEntry_encode hHere, List.foldl_cons]
    refine ih ?_ ?_ ?_ _
    · simpa using hFuel
    · omega
    · rw [← Nat.add_assoc]
      exact h.2

theorem length_le_encodeRecords (rs : List MadtRecord) :
    rs.length ≤ (encodeRecords rs).length := by
  induction rs with
  | nil => exact Nat.le_refl _
  | cons r rs ih =>
    have hSplit : encodeRecords (r :: rs) = r.encode ++ encodeRecords rs := rfl
    have hPos : 2 ≤ r.body.size := Nat.le_add_right 2 _
    rw [hSplit, List.length_append, r.length_encode, List.length_cons]
    omega

theorem McfgAllocation.length_encode (alloc : McfgAllocation) : alloc.encode.length = 16 := by
  simp [encode]

theorem mcfgAllocationOf_encode {t : Memory} {alloc : McfgAllocation}
    (h : t.Holds 0 alloc.encode) : mcfgAllocationOf t = alloc := by
  obtain ⟨⟨base, seg, startBus, endBus⟩, reserved⟩ := alloc
  simp only [McfgAllocation.encode, Memory.holds_append, Memory.holds_cons] at h
  obtain ⟨⟨⟨hBase, hSeg⟩, hStart, hEnd, -⟩, hRest⟩ := h
  have hReserved : #v[t 12, t 13, t 14, t 15] = reserved := by
    apply Vector.toList_inj.mp
    have hBytes := Memory.bytes_of_holds ((Memory.holds_drop t 12 0 _).mpr hRest)
    rwa [Vector.length_toList] at hBytes
  have hSegment : t.read16 8 = seg := Memory.read16_of_holds hSeg
  rw [mcfgAllocationOf, Memory.read64_of_holds hBase, hSegment, hReserved]
  exact congrArg₂ (fun a b => (⟨⟨base, seg, a, b⟩, reserved⟩ : McfgAllocation)) hStart hEnd

/-- Less than a record is left over at the end. -/
theorem mcfgLoop_encode {mem : Memory} {tablePtr totalLen : Nat} {allocs : List McfgAllocation}
    {rest : Nat} (hRest : rest < 16) {fuel offset : Nat} (hFuel : allocs.length ≤ fuel)
    (hEnd : offset + 16 * allocs.length + rest = totalLen)
    (h : mem.Holds (tablePtr + offset) (allocs.flatMap McfgAllocation.encode)) (s : State δ) :
    mcfgLoop mem tablePtr totalLen fuel offset s =
      allocs.foldl (fun s alloc => mcfgEntry alloc s) s := by
  induction allocs generalizing fuel offset s with
  | nil =>
    have hStop : ¬ offset + 16 ≤ totalLen := by simp at hEnd; omega
    cases fuel with
    | zero => rfl
    | succ fuel => rw [mcfgLoop, if_neg hStop, List.foldl_nil]
  | cons alloc allocs ih =>
    obtain ⟨fuel, rfl⟩ : ∃ n, fuel = n + 1 := Nat.exists_eq_add_one.mpr (by simp at hFuel; omega)
    rw [List.flatMap_cons, Memory.holds_append, alloc.length_encode] at h
    rw [List.length_cons] at hEnd
    have hHere : mcfgAllocationOf (mem.drop (tablePtr + offset)) = alloc :=
      mcfgAllocationOf_encode ((Memory.holds_drop mem _ 0 _).mpr h.1)
    simp only [mcfgLoop, if_pos (show offset + 16 ≤ totalLen by omega), hHere, List.foldl_cons]
    refine ih ?_ ?_ ?_ _
    · simpa using hFuel
    · omega
    · rw [← Nat.add_assoc]
      exact h.2

section

variable {mem : Memory} {ptr : Nat} {body : List UInt8}

theorem parseFacp_encode {before : Vector UInt8 12} {smiCmd : UInt32}
    {acpiEnable acpiDisable : UInt8} {rest : List UInt8}
    (h : (mem.drop ptr).Holds 36 (Contents.facp before smiCmd acpiEnable acpiDisable rest).body)
    (s : State δ) :
    parseFacp mem ptr s =
      (Contents.facp before smiCmd acpiEnable acpiDisable rest).record (mem.drop ptr) s := by
  simp only [Contents.body, Memory.holds_append, Memory.holds_cons, Vector.length_toList] at h
  obtain ⟨⟨⟨-, hCmd⟩, hEnable, hDisable, -⟩, -⟩ := h
  have hSmi : (mem.drop ptr).read32 48 = smiCmd := Memory.read32_of_holds hCmd
  replace hEnable : (mem.drop ptr) 52 = acpiEnable := by simpa using hEnable
  replace hDisable : (mem.drop ptr) 53 = acpiDisable := by simpa using hDisable
  rw [parseFacp, enableAcpi, hSmi, hEnable, hDisable, Contents.record]
  by_cases hPort : smiCmd = 0
  · simp [hPort]
  · by_cases hOff : acpiDisable = 0 <;> by_cases hOn : acpiEnable = 0 <;>
      simp [hPort, hOff, hOn]

theorem parseMadt_encode {localApicAddr flags : UInt32} {records : List MadtRecord}
    (hPtr : ptr ≠ 0) (h : SdtHeld (mem.drop ptr) apicSignature
      (Contents.madt localApicAddr flags records).body) (s : State δ) :
    parseMadt mem ptr s = (Contents.madt localApicAddr flags records).record (mem.drop ptr) s := by
  have hBody := h.body
  simp only [Contents.body, Memory.holds_append] at hBody
  obtain ⟨⟨hApic, -⟩, hRecords⟩ := hBody
  have hLen : (AcpiTableHeader.length (mem.drop ptr)).toNat =
      44 + (encodeRecords records).length := by
    rw [h.length]
    simp [Contents.body]
    omega
  have hFuel := length_le_encodeRecords records
  have hLoop : ∀ s : State δ, madtLoop mem ptr (44 + (encodeRecords records).length)
      (44 + (encodeRecords records).length) 44 s = records.foldl (fun s r => r.record s) s :=
    madtLoop_encode hPtr (by omega) rfl ((Memory.holds_drop mem ptr 44 _).mp hRecords)
  rw [parseMadt, if_neg hPtr]
  simp only [h.checksum, hLen, hLoop, Memory.read32_of_holds hApic, Contents.record,
    Bool.not_true, Bool.false_eq_true, if_false]

theorem parseHpet_encode {eventTimerBlockId : UInt32}
    {addressSpace bitWidth bitOffset accessSize : UInt8} {baseAddress : UInt64} {hpetNumber : UInt8}
    {minimumTick : UInt16} {pageProtection : UInt8} (hPtr : ptr ≠ 0)
    (hSum : AcpiTableHeader.checksumValid (mem.drop ptr) = true) (s : State δ) :
    parseHpet mem ptr s =
      (Contents.hpet eventTimerBlockId addressSpace bitWidth bitOffset accessSize baseAddress
        hpetNumber minimumTick pageProtection).record (mem.drop ptr) s := by
  rw [parseHpet, if_neg hPtr]
  simp only [hSum, Contents.record, ite_not, Bool.not_true, Bool.false_eq_true, if_false, ne_eq]

theorem parseMcfg_encode {reserved : Vector UInt8 8} {allocs : List McfgAllocation}
    {rest : List UInt8} {hRest : rest.length < 16} (hPtr : ptr ≠ 0)
    (h : SdtHeld (mem.drop ptr) mcfgSignature (Contents.mcfg reserved allocs rest hRest).body)
    (s : State δ) :
    parseMcfg mem ptr s =
      (Contents.mcfg reserved allocs rest hRest).record (mem.drop ptr) s := by
  have hBody := h.body
  simp only [Contents.body, Memory.holds_append, Vector.length_toList] at hBody
  obtain ⟨⟨-, hAllocs⟩, -⟩ := hBody
  have hSum : (allocs.flatMap McfgAllocation.encode).length = 16 * allocs.length := by
    simp [List.length_flatMap, McfgAllocation.length_encode, Nat.mul_comm]
  have hLen : (AcpiTableHeader.length (mem.drop ptr)).toNat =
      44 + 16 * allocs.length + rest.length := by
    rw [h.length]
    simp [Contents.body, hSum]
    omega
  rw [parseMcfg, if_neg hPtr, Contents.record]
  simp only [hLen]
  exact mcfgLoop_encode hRest (by omega) rfl ((Memory.holds_drop mem ptr 44 _).mp hAllocs) s

end

section

variable {mem : Memory} {p off : UInt64}

theorem Contents.parseSpecificTable_eq {c : Contents} (hPtr : (p + off).toNat ≠ 0)
    (h : SdtHeld (mem.drop (p + off).toNat) c.signature c.body) (s : State δ) :
    parseSpecificTable mem c.signature p off s = c.record (mem.drop (p + off).toNat) s := by
  simp only [parseSpecificTable]
  cases c with
  | facp => rw [signature, if_pos rfl, parseFacp_encode h.body]
  | madt => rw [signature, if_neg (by decide), if_pos rfl, parseMadt_encode hPtr h]
  | hpet =>
    rw [signature, if_neg (by decide), if_neg (by decide), if_pos rfl,
      parseHpet_encode hPtr h.checksum]
  | mcfg =>
    rw [signature, if_neg (by decide), if_neg (by decide), if_neg (by decide), if_pos rfl,
      parseMcfg_encode hPtr h]
  | other signature hOther body =>
    simp only [List.mem_cons, List.not_mem_nil, or_false, not_or] at hOther
    obtain ⟨hFacp, hApic, hHpet, hMcfg⟩ := hOther
    rw [Contents.signature, if_neg hFacp, if_neg hApic, if_neg hHpet, if_neg hMcfg, Contents.record]

/-- **One table** is registered as a device, and its contents are recorded. -/
theorem Table.printTableInfo_eq {t : Table} {image : Memory} (hPtr : (p + off).toNat ≠ 0)
    (h : mem.Holds (p + off).toNat t.bytes)
    (hImage : mem.drop (p + off).toNat = image.drop p.toNat) (s : State δ) :
    printTableInfo mem p off s = t.record image p s := by
  have hHeld : SdtHeld (mem.drop (p + off).toNat) t.contents.signature t.contents.body :=
    t.sdt.held ((Memory.holds_drop mem _ 0 _).mpr h)
  have hLen : (AcpiTableHeader.length (mem.drop (p + off).toNat)).toUInt64 =
      UInt64.ofNat t.bytes.length := by
    apply UInt64.toNat_inj.mp
    have hLt := t.sdt.length_lt
    rw [UInt32.toNat_toUInt64, hHeld.length, UInt64.toNat_ofNat', Table.bytes, t.sdt.length_bytes,
      Nat.mod_eq_of_lt (by omega)]
  have hDevice : tableDevice (mem.drop (p + off).toNat) p = t.device p := by
    rw [tableDevice, Table.device, hLen, AcpiTableHeader.signatureStr, hHeld.signature]
  simp only [printTableInfo, if_neg hPtr, hHeld.checksum, if_true, hDevice, hHeld.signature,
    Contents.parseSpecificTable_eq hPtr hHeld, Table.record, ← hImage]

end

end Neutrix.Acpi
