import Neutrix.Devices.AcpiTables
import Neutrix.Lib.Reading

/-!
# Neutrix — which bytes the ACPI parser reads

`parse_madt` and the walk over the root table again, as computations that
reach memory through single reads (`Reading`), in the source's order of
reads. They compute what the parser computes (`run_readMadt`,
`parseRsdtXsdt_eq_foldl_readRootTable`), so the addresses they read are the
ones the parser reads. The entry loop here gives `none` when its rounds run
out, and it never does.

A good checksum says little about the length it was taken over:

- `parseMadt_reads_table_iff` — the MADT parser stays inside the table
  exactly when the header is there and no entry the chain leads to is cut
  off by the table's end.
- `parseRsdtXsdt_reads_root_iff` — the root table is walked without
  underflow and inside its length exactly when it declares at least the
  length of its header.
-/

namespace Neutrix.Acpi

open Neutrix.Lib
open Neutrix.Ioapic (IoApicInfo IsoInfo)

variable {δ : Type*}

-- ---------------------------------------------------------------------------
-- The parser, read by read
-- ---------------------------------------------------------------------------

/-- `AcpiTableHeader::checksum_valid`. -/
def readChecksumValid (p : Nat) : Reading Bool :=
  (Reading.read32 (p + 4)).bind fun len =>
    (Reading.bytes p len.toNat).bind fun bytes => .pure (sumsToZero bytes)

def readIoApic (entryPtr : Nat) : Reading IoApicInfo :=
  (Reading.read8 (entryPtr + 2)).bind fun id =>
    (Reading.read32 (entryPtr + 4)).bind fun addr =>
      (Reading.read32 (entryPtr + 8)).bind fun gsiBase => .pure { id, addr, gsiBase }

def readIso (entryPtr : Nat) : Reading IsoInfo :=
  (Reading.read8 (entryPtr + 2)).bind fun bus =>
    (Reading.read8 (entryPtr + 3)).bind fun source =>
      (Reading.read32 (entryPtr + 4)).bind fun gsi =>
        (Reading.read16 (entryPtr + 8)).bind fun flags => .pure { bus, source, gsi, flags }

/-- The `match` on the entry type. -/
def readMadtEntry (entryPtr entryLen : Nat) (s : State δ) : Reading (State δ) :=
  (Reading.read8 entryPtr).bind fun entryType =>
    if entryType = 1 then
      if entryLen ≥ 12 then
        (readIoApic entryPtr).bind fun ioapic =>
          .pure (State.registerDevice { s with ioapics := s.ioapics ++ [ioapic] }
            (ioApicDevice ioapic))
      else .pure s
    else if entryType = 2 then
      if entryLen ≥ 10 then
        (readIso entryPtr).bind fun iso => .pure { s with isos := s.isos ++ [iso] }
      else .pure s
    else .pure s

/-- The entry loop; `none` when the rounds do not suffice. -/
def readMadtLoop (tablePtr tableLen : Nat) : Nat → Nat → State δ → Reading (Option (State δ))
  | 0, offset, s => .pure (if offset < tableLen then none else some s)
  | fuel + 1, offset, s =>
    if offset < tableLen then
      if tablePtr + offset = 0 then .pure (some s)
      else
        (Reading.read8 (tablePtr + offset + 1)).bind fun entryLen =>
          if entryLen.toNat = 0 then .pure (some s)
          else
            (readMadtEntry (tablePtr + offset) entryLen.toNat s).bind
              (readMadtLoop tablePtr tableLen fuel (offset + entryLen.toNat))
    else .pure (some s)

def readMadt (tablePtr : Nat) (s : State δ) : Reading (Option (State δ)) :=
  if tablePtr = 0 then .pure (some s)
  else
    (readChecksumValid tablePtr).bind fun valid =>
      if !valid then .pure (some s)
      else
        (Reading.read32 (tablePtr + 36)).bind fun localApicAddr =>
          (Reading.read32 (tablePtr + 4)).bind fun tableLen =>
            readMadtLoop tablePtr tableLen.toNat tableLen.toNat 44
              { s with madtLocalApicAddr := localApicAddr.toUInt64 }

-- ---------------------------------------------------------------------------
-- They compute what the parser computes
-- ---------------------------------------------------------------------------

@[simp] theorem run_readChecksumValid (mem : Memory) (p : Nat) :
    (readChecksumValid p).run mem = AcpiTableHeader.checksumValid (mem.drop p) := by
  rw [readChecksumValid, Reading.run_bind, Reading.run_bind, Reading.run_bytes, Reading.run_read32,
    Reading.run_pure, AcpiTableHeader.checksumValid, AcpiTableHeader.length, Memory.read32_drop]

@[simp] theorem run_readIoApic (mem : Memory) (entryPtr : Nat) :
    (readIoApic entryPtr).run mem = ioApicOf (mem.drop entryPtr) := by
  simp only [readIoApic, Reading.run_bind, Reading.run_read8, Reading.run_read32, Reading.run_pure,
    ioApicOf, Memory.read32_drop, Memory.drop]

@[simp] theorem run_readIso (mem : Memory) (entryPtr : Nat) :
    (readIso entryPtr).run mem = isoOf (mem.drop entryPtr) := by
  simp only [readIso, Reading.run_bind, Reading.run_read8, Reading.run_read16, Reading.run_read32,
    Reading.run_pure, isoOf, Memory.read16_drop, Memory.read32_drop, Memory.drop]

@[simp] theorem run_readMadtEntry (mem : Memory) (entryPtr entryLen : Nat) (s : State δ) :
    (readMadtEntry entryPtr entryLen s).run mem =
      madtEntry (mem.drop entryPtr) entryLen s := by
  have hType : mem.drop entryPtr 0 = mem entryPtr := rfl
  rw [readMadtEntry, Reading.run_bind, Reading.run_read8, madtEntry, hType]
  by_cases hIo : mem entryPtr = 1
  · rw [if_pos hIo, if_pos hIo]
    by_cases hLen : entryLen ≥ 12
    · rw [if_pos hLen, if_pos hLen, Reading.run_bind, run_readIoApic, Reading.run_pure]
    · rw [if_neg hLen, if_neg hLen, Reading.run_pure]
  · rw [if_neg hIo, if_neg hIo]
    by_cases hIso : mem entryPtr = 2
    · rw [if_pos hIso, if_pos hIso]
      by_cases hLen : entryLen ≥ 10
      · rw [if_pos hLen, if_pos hLen, Reading.run_bind, run_readIso, Reading.run_pure]
      · rw [if_neg hLen, if_neg hLen, Reading.run_pure]
    · rw [if_neg hIso, if_neg hIso, Reading.run_pure]

/-- Every round moves on by at least a byte, so the rounds last to the end of the
table. -/
theorem run_readMadtLoop (mem : Memory) (tablePtr tableLen : Nat) :
    ∀ (fuel offset : Nat) (s : State δ), tableLen - offset ≤ fuel →
      (readMadtLoop tablePtr tableLen fuel offset s).run mem =
        some (madtLoop mem tablePtr tableLen fuel offset s) := by
  intro fuel
  induction fuel with
  | zero =>
    intro offset s hFuel
    rw [readMadtLoop, madtLoop, if_neg (by omega), Reading.run_pure]
  | succ fuel ih =>
    intro offset s hFuel
    have hLenByte : mem.drop (tablePtr + offset) 1 = mem (tablePtr + offset + 1) := rfl
    simp only [readMadtLoop, madtLoop, hLenByte]
    by_cases hIn : offset < tableLen
    · rw [if_pos hIn, if_pos hIn]
      by_cases hNull : tablePtr + offset = 0
      · rw [if_pos hNull, if_pos hNull, Reading.run_pure]
      · rw [if_neg hNull, if_neg hNull, Reading.run_bind, Reading.run_read8]
        by_cases hZero : (mem (tablePtr + offset + 1)).toNat = 0
        · rw [if_pos hZero, if_pos hZero, Reading.run_pure]
        · rw [if_neg hZero, if_neg hZero, Reading.run_bind, run_readMadtEntry]
          exact ih _ _ (by omega)
    · rw [if_neg hIn, if_neg hIn, Reading.run_pure]

/-- **The logged parser is the parser**, and its loop ends by itself. -/
theorem run_readMadt (mem : Memory) (tablePtr : Nat) (s : State δ) :
    (readMadt tablePtr s).run mem = some (parseMadt mem tablePtr s) := by
  simp only [readMadt, parseMadt]
  by_cases hNull : tablePtr = 0
  · rw [if_pos hNull, if_pos hNull, Reading.run_pure]
  · rw [if_neg hNull, if_neg hNull, Reading.run_bind, run_readChecksumValid]
    by_cases hSum : (!AcpiTableHeader.checksumValid (mem.drop tablePtr)) = true
    · rw [if_pos hSum, if_pos hSum, Reading.run_pure]
    · rw [if_neg hSum, if_neg hSum, Reading.run_bind, Reading.run_bind, Reading.run_read32,
        Reading.run_read32, AcpiTableHeader.length, Memory.read32_drop, Memory.read32_drop]
      exact run_readMadtLoop mem tablePtr _ _ 44 _ (by omega)

-- ---------------------------------------------------------------------------
-- Entries cut off by the table's end
-- ---------------------------------------------------------------------------

/-- The chain of entries that begins at `start` leads to `o`, an offset inside the
table. -/
inductive EntryAt (t : Memory) (len : Nat) : Nat → Nat → Prop
  | here {start : Nat} (hIn : start < len) : EntryAt t len start start
  | next {start o : Nat} (hIn : start < len) (hLen : (t (start + 1)).toNat ≠ 0)
      (h : EntryAt t len (start + (t (start + 1)).toNat) o) : EntryAt t len start o

theorem forall_entryAt {t : Memory} {len start : Nat} {P : Nat → Prop} (hIn : start < len) :
    (∀ o, EntryAt t len start o → P o) ↔
      P start ∧ ((t (start + 1)).toNat ≠ 0 →
        ∀ o, EntryAt t len (start + (t (start + 1)).toNat) o → P o) := by
  refine ⟨fun h => ⟨h start (.here hIn), fun hLen o hO => h o (.next hIn hLen hO)⟩, ?_⟩
  rintro ⟨hStart, hRest⟩ o hO
  cases hO with
  | here => exact hStart
  | next _ hLen hO => exact hRest hLen o hO

/-- The entry at `o` has its two header bytes inside the table, and if it is taken
for an IOAPIC or an override, the bytes of that structure too. -/
structure EntryFits (t : Memory) (len o : Nat) : Prop where
  header : o + 2 ≤ len
  ioapic : t o = 1 → 12 ≤ (t (o + 1)).toNat → o + 12 ≤ len
  iso    : t o = 2 → 10 ≤ (t (o + 1)).toNat → o + 10 ≤ len

variable {mem : Memory} {tablePtr len : Nat}

theorem within_readIoApic (o : Nat) :
    Reading.Within mem tablePtr (tablePtr + len) (readIoApic (tablePtr + o)) ↔ o + 12 ≤ len := by
  simp only [readIoApic, Reading.within_bind, Reading.within_read8, Reading.within_read32,
    Reading.within_pure, and_true]
  omega

theorem within_readIso (o : Nat) :
    Reading.Within mem tablePtr (tablePtr + len) (readIso (tablePtr + o)) ↔ o + 10 ≤ len := by
  simp only [readIso, Reading.within_bind, Reading.within_read8, Reading.within_read16,
    Reading.within_read32, Reading.within_pure, and_true]
  omega

theorem within_readMadtEntry (o entryLen : Nat) (s : State δ) :
    Reading.Within mem tablePtr (tablePtr + len) (readMadtEntry (tablePtr + o) entryLen s) ↔
      o < len ∧ (mem (tablePtr + o) = 1 → 12 ≤ entryLen → o + 12 ≤ len) ∧
        (mem (tablePtr + o) = 2 → 10 ≤ entryLen → o + 10 ≤ len) := by
  have hType : tablePtr ≤ tablePtr + o ∧ tablePtr + o < tablePtr + len ↔ o < len := by omega
  rw [readMadtEntry, Reading.within_bind, Reading.within_read8, Reading.run_read8, hType]
  refine and_congr_right fun _ => ?_
  by_cases hIo : mem (tablePtr + o) = 1
  · by_cases hLen : entryLen ≥ 12
    · simp [hIo, hLen, within_readIoApic]
    · simp [hIo, hLen]
  · by_cases hIso : mem (tablePtr + o) = 2
    · by_cases hLen : entryLen ≥ 10
      · simp [hIso, hLen, within_readIso]
      · simp [hIso, hLen]
    · simp [hIo, hIso]

/-- The loop stays inside the table if every entry the chain leads to fits. -/
theorem within_readMadtLoop (hPtr : tablePtr ≠ 0) :
    ∀ (fuel offset : Nat) (s : State δ), len - offset ≤ fuel →
      (Reading.Within mem tablePtr (tablePtr + len) (readMadtLoop tablePtr len fuel offset s) ↔
        ∀ o, EntryAt (mem.drop tablePtr) len offset o → EntryFits (mem.drop tablePtr) len o) := by
  have hNone : ∀ offset, ¬ offset < len → ∀ o, EntryAt (mem.drop tablePtr) len offset o →
      EntryFits (mem.drop tablePtr) len o := by
    intro offset hOut o hO
    cases hO <;> omega
  intro fuel
  induction fuel with
  | zero =>
    intro offset s hFuel
    exact iff_of_true (Reading.within_pure _) (hNone offset (by omega))
  | succ fuel ih =>
    intro offset s hFuel
    rw [readMadtLoop]
    by_cases hIn : offset < len
    · have hByte : mem.drop tablePtr (offset + 1) = mem (tablePtr + offset + 1) := rfl
      have hType : mem.drop tablePtr offset = mem (tablePtr + offset) := rfl
      rw [if_pos hIn, if_neg (by omega), Reading.within_bind, Reading.within_read8,
        Reading.run_read8, forall_entryAt hIn, hByte]
      by_cases hZero : (mem (tablePtr + offset + 1)).toNat = 0
      · -- only the length byte of a malformed entry is read
        rw [if_pos hZero]
        constructor
        · rintro ⟨hRead, -⟩
          refine ⟨⟨by omega, ?_, ?_⟩, fun hLen => absurd hZero hLen⟩ <;>
            (intro _ hLen; rw [hByte] at hLen; omega)
        · rintro ⟨hFits, -⟩
          have := hFits.header
          exact ⟨by omega, Reading.within_pure _⟩
      · rw [if_neg hZero, Reading.within_bind, run_readMadtEntry, within_readMadtEntry,
          ih _ _ (by omega)]
        constructor
        · rintro ⟨hRead, ⟨-, hIo, hIso⟩, hRest⟩
          exact ⟨⟨by omega, hIo, hIso⟩, fun _ => hRest⟩
        · rintro ⟨hFits, hRest⟩
          have := hFits.header
          exact ⟨by omega, ⟨hIn, hFits.ioapic, hFits.iso⟩, hRest hZero⟩
    · rw [if_neg hIn]
      exact iff_of_true (Reading.within_pure _) (hNone offset hIn)

-- ---------------------------------------------------------------------------
-- The MADT
-- ---------------------------------------------------------------------------

theorem within_readChecksumValid
    (hLen : (AcpiTableHeader.length (mem.drop tablePtr)).toNat = len) :
    Reading.Within mem tablePtr (tablePtr + len) (readChecksumValid tablePtr) ↔ 8 ≤ len := by
  rw [AcpiTableHeader.length, Memory.read32_drop] at hLen
  have hBytes : Reading.Within mem tablePtr (tablePtr + len) (Reading.bytes tablePtr len) :=
    Reading.within_bytes (Nat.le_refl _) (Nat.le_refl _)
  rw [readChecksumValid, Reading.within_bind, Reading.within_read32, Reading.run_read32,
    Reading.within_bind, hLen]
  simp only [hBytes, Reading.within_pure, and_true]
  omega

theorem within_readMadt (hLen : (AcpiTableHeader.length (mem.drop tablePtr)).toNat = len)
    (hPtr : tablePtr ≠ 0) (hSum : AcpiTableHeader.checksumValid (mem.drop tablePtr) = true)
    (s : State δ) :
    Reading.Within mem tablePtr (tablePtr + len) (readMadt tablePtr s) ↔
      40 ≤ len ∧
        ∀ o, EntryAt (mem.drop tablePtr) len 44 o → EntryFits (mem.drop tablePtr) len o := by
  have hChecksum := within_readChecksumValid hLen
  rw [AcpiTableHeader.length, Memory.read32_drop] at hLen
  rw [readMadt, if_neg hPtr, Reading.within_bind, run_readChecksumValid, hSum,
    if_neg (by decide), hChecksum, Reading.within_bind, Reading.within_read32,
    Reading.within_bind, Reading.within_read32, Reading.run_read32, Reading.run_read32, hLen,
    within_readMadtLoop hPtr _ 44 _ (by omega)]
  constructor
  · rintro ⟨-, hApic, -, hEntries⟩
    exact ⟨by omega, hEntries⟩
  · rintro ⟨hHeader, hEntries⟩
    exact ⟨by omega, by omega, by omega, hEntries⟩

/-- **The MADT parser and the end of the table.** The parser returns on every table
with a good checksum. It reads no byte outside the declared length, and what it
keeps does not depend on any, exactly when the table holds the local APIC address
and every entry the chain leads to fits. -/
theorem parseMadt_reads_table_iff (mem : Memory) (tablePtr : Nat) (hPtr : tablePtr ≠ 0)
    (hSum : AcpiTableHeader.checksumValid (mem.drop tablePtr) = true) (s : State δ) :
    let t := mem.drop tablePtr
    let len := (AcpiTableHeader.length t).toNat
    (readMadt tablePtr s).run mem = some (parseMadt mem tablePtr s) ∧
    (Reading.Within mem tablePtr (tablePtr + len) (readMadt tablePtr s) ∧
        (∀ mem' : Memory, (∀ a, tablePtr ≤ a → a < tablePtr + len → mem' a = mem a) →
          parseMadt mem' tablePtr s = parseMadt mem tablePtr s) ↔
      40 ≤ len ∧ ∀ o, EntryAt t len 44 o → EntryFits t len o) := by
  intro t len
  have hWithin := within_readMadt rfl hPtr hSum s
  refine ⟨run_readMadt mem tablePtr s, fun h => hWithin.mp h.1, fun h => ?_⟩
  have hReads := hWithin.mpr h
  refine ⟨hReads, fun mem' hAgree => Option.some.inj ?_⟩
  rw [← run_readMadt, ← run_readMadt]
  apply Reading.run_congr
  intro a ha
  obtain ⟨hLo, hHi⟩ := hReads a ha
  exact hAgree a hLo hHi

/-- An MADT at 64 whose one entry is an IOAPIC of twelve bytes. The table is as long as
its header says. -/
def sampleMadt (len checksum : UInt8) : Memory := fun i =>
  (List.replicate 64 0 ++ sampleHeader apicSignature len checksum ++ List.replicate 8 0 ++
    [1, 12, 5, 0, 0, 0, 0xC0, 0xFE, 24, 0, 0, 0]).getD i 0

def emptyState : State Empty where
  mgr               := ⟨[], 0⟩
  ioapics           := []
  isos              := []
  mcfgAllocs        := []
  madtLocalApicAddr := 0
  hpetBase          := none
  hpetPeriodFs      := 0
  portWrites        := []

/-- A table that ends with its entry is read to the end. -/
theorem parseMadt_reads_table_sampleMadt :
    AcpiTableHeader.checksumValid ((sampleMadt 56 194).drop 64) = true ∧
    Reading.Within (sampleMadt 56 194) 64 (64 + 56) (readMadt 64 emptyState) := by
  have hSum : AcpiTableHeader.checksumValid ((sampleMadt 56 194).drop 64) = true := by
    decide +kernel
  have hLen : (AcpiTableHeader.length ((sampleMadt 56 194).drop 64)).toNat = 56 := by decide
  have hByte : ((sampleMadt 56 194).drop 64 (44 + 1)).toNat = 12 := by decide
  refine ⟨hSum, ?_⟩
  have hIff := (parseMadt_reads_table_iff (sampleMadt 56 194) 64 (by decide) hSum emptyState).2
  rw [hLen] at hIff
  refine (hIff.mpr ⟨by decide, ?_⟩).1
  rw [forall_entryAt (by decide), hByte]
  refine ⟨⟨by decide, fun _ _ => by decide, fun _ _ => by decide⟩, fun _ o hO => ?_⟩
  -- the chain ends with the table
  cases hO <;> omega

/-- If the table ends two bytes into the entry, the checksum is as good, and the parser
keeps an IOAPIC made of the ten bytes behind the table. -/
theorem parseMadt_reads_behind_sampleMadt :
    AcpiTableHeader.checksumValid ((sampleMadt 46 167).drop 64) = true ∧
    (AcpiTableHeader.length ((sampleMadt 46 167).drop 64)).toNat = 46 ∧
    64 + 46 ∈ (readMadt 64 emptyState).reads (sampleMadt 46 167) ∧
    (parseMadt (sampleMadt 46 167) 64 emptyState).ioapics = [⟨5, 0xFEC00000, 24⟩] := by
  decide +kernel

-- ---------------------------------------------------------------------------
-- The root table
-- ---------------------------------------------------------------------------

/-- `Rsdt::entry_count` and `Xsdt::entry_count`. -/
def readEntryCount (root : Nat) (width : UInt64) : Reading Nat :=
  (Reading.read32 (root + 4)).bind fun length => .pure ((length.toUInt64 - 36) / width).toNat

/-- `table_address`, for entries read by `word`. -/
def readTableAddress (root : Nat) (width : UInt64) (word : Nat → Reading UInt64) (index : Nat) :
    Reading (Option UInt64) :=
  (readEntryCount root width).bind fun count =>
    if index ≥ count then .pure none
    else (word (root + (headerSize + width.toNat * index))).bind fun entry => .pure (some entry)

/-- The entries of an RSDT are widened by its caller. -/
def rsdtWord (a : Nat) : Reading UInt64 :=
  (Reading.read32 a).bind fun entry => .pure entry.toUInt64

/-- The pointers of a root table, one `table_address` call after another. -/
def readEntries (root : Nat) (width : UInt64) (word : Nat → Reading UInt64) :
    Reading (List (Option UInt64)) :=
  (readEntryCount root width).bind fun count =>
    Reading.collect (readTableAddress root width word) count

/-- What `parse_rsdt_xsdt` reads of the root table itself. -/
def readRootTable (root : Nat) : Reading (List (Option UInt64)) :=
  (readChecksumValid root).bind fun valid =>
    if !valid then .pure []
    else
      (Reading.bytes root 4).bind fun signature =>
        if signature = rsdtSignature then readEntries root 4 rsdtWord
        else if signature = xsdtSignature then readEntries root 8 Reading.read64
        else .pure []

@[simp] theorem run_readEntryCount (mem : Memory) (root : Nat) (width : UInt64) :
    (readEntryCount root width).run mem = entryCount (mem.drop root) width := by
  rw [readEntryCount, Reading.run_bind, Reading.run_read32, Reading.run_pure, entryCount,
    AcpiTableHeader.length, Memory.read32_drop]

theorem run_readTableAddress (mem : Memory) (root : Nat) (width : UInt64)
    (word : Nat → Reading UInt64) (index : Nat) :
    (readTableAddress root width word index).run mem =
      if index ≥ entryCount (mem.drop root) width then none
      else some ((word (root + (headerSize + width.toNat * index))).run mem) := by
  rw [readTableAddress, Reading.run_bind, run_readEntryCount]
  by_cases hIndex : index ≥ entryCount (mem.drop root) width
  · rw [if_pos hIndex, if_pos hIndex, Reading.run_pure]
  · rw [if_neg hIndex, if_neg hIndex, Reading.run_bind, Reading.run_pure]

theorem run_readTableAddress_rsdt (mem : Memory) (root index : Nat) :
    (readTableAddress root 4 rsdtWord index).run mem =
      (Rsdt.tableAddress (mem.drop root) index).map UInt32.toUInt64 := by
  rw [run_readTableAddress, Rsdt.tableAddress, rsdtWord, Reading.run_bind, Reading.run_read32,
    Reading.run_pure, Memory.read32_drop]
  by_cases hIndex : index ≥ entryCount (mem.drop root) 4
  · rw [if_pos hIndex, if_pos hIndex, Option.map_none]
  · rw [if_neg hIndex, if_neg hIndex, Option.map_some]
    rfl

theorem run_readTableAddress_xsdt (mem : Memory) (root index : Nat) :
    (readTableAddress root 8 Reading.read64 index).run mem =
      Xsdt.tableAddress (mem.drop root) index := by
  rw [run_readTableAddress, Xsdt.tableAddress, Reading.run_read64, Memory.read64_drop]
  rfl

/-- The walk hands every pointer it reads to `print_table_info`, in order. -/
theorem parseRsdtXsdt_eq_foldl_readRootTable (mem rsdp : Memory) (off : UInt64) (s : State δ) :
    parseRsdtXsdt mem rsdp off s =
      ((readRootTable (Rsdp.tableAddress rsdp + off).toNat).run mem).foldl
        (fun s a => visitTable mem off a s) s := by
  simp only [parseRsdtXsdt]
  generalize (Rsdp.tableAddress rsdp + off).toNat = root
  have hSignature : (Reading.bytes root 4).run mem = AcpiTableHeader.signature (mem.drop root) :=
    Reading.run_bytes mem root 4
  rw [readRootTable, Reading.run_bind, run_readChecksumValid]
  by_cases hSum : (!AcpiTableHeader.checksumValid (mem.drop root)) = true
  · rw [if_pos hSum, if_pos hSum, Reading.run_pure, List.foldl_nil]
  · rw [if_neg hSum, if_neg hSum, Reading.run_bind, hSignature]
    by_cases hRsdt : AcpiTableHeader.signature (mem.drop root) = rsdtSignature
    · rw [if_pos hRsdt, if_pos hRsdt, readEntries, Reading.run_bind, run_readEntryCount,
        Reading.run_collect, List.foldl_map]
      simp only [run_readTableAddress_rsdt]
    · rw [if_neg hRsdt, if_neg hRsdt]
      by_cases hXsdt : AcpiTableHeader.signature (mem.drop root) = xsdtSignature
      · rw [if_pos hXsdt, if_pos hXsdt, readEntries, Reading.run_bind, run_readEntryCount,
          Reading.run_collect, List.foldl_map]
        simp only [run_readTableAddress_xsdt]
      · rw [if_neg hXsdt, if_neg hXsdt, Reading.run_pure, List.foldl_nil]

theorem lengthSub_toNat (length : UInt32) :
    (length.toUInt64 - 36).toNat = (2 ^ 64 - 36 + length.toNat) % 2 ^ 64 := by
  rw [UInt64.toNat_sub, UInt32.toNat_toUInt64]
  rfl

/-- The subtraction in `entry_count` gives the difference if it does not wrap. -/
theorem lengthSub_eq_iff (length : UInt32) :
    ((length.toUInt64 - 36).toNat : Int) = (length.toNat : Int) - 36 ↔ 36 ≤ length.toNat := by
  have hLt := length.toNat_lt
  rw [lengthSub_toNat]
  omega

/-- A length below the header's wraps to a huge count. -/
theorem entryCount_pos_of_short {root : Memory} (h : (AcpiTableHeader.length root).toNat < 36)
    {width : UInt64} (hWidth : width = 4 ∨ width = 8) : 0 < entryCount root width := by
  rw [entryCount, UInt64.toNat_div, lengthSub_toNat]
  rcases hWidth with rfl | rfl
  · show 0 < _ / 4
    omega
  · show 0 < _ / 8
    omega

/-- All pointers lie inside the declared length if it covers the header. Otherwise the
count has wrapped, and the first pointer already lies outside. -/
theorem within_readEntries {root len : Nat} {width : UInt64} {word : Nat → Reading UInt64}
    (hLen : (AcpiTableHeader.length (mem.drop root)).toNat = len) (hWidth : width = 4 ∨ width = 8)
    (hWord : ∀ a, Reading.Within mem root (root + len) (word a) ↔
      root ≤ a ∧ a + width.toNat ≤ root + len) :
    Reading.Within mem root (root + len) (readEntries root width word) ↔ 36 ≤ len := by
  have hCountReads :
      Reading.Within mem root (root + len) (readEntryCount root width) ↔ 8 ≤ len := by
    rw [readEntryCount, Reading.within_bind, Reading.within_read32]
    simp only [Reading.within_pure, and_true]
    omega
  have hEntry : ∀ i < entryCount (mem.drop root) width,
      (Reading.Within mem root (root + len) (readTableAddress root width word i) ↔
        8 ≤ len ∧ 36 + width.toNat * i + width.toNat ≤ len) := by
    intro i hi
    rw [readTableAddress, Reading.within_bind, hCountReads, run_readEntryCount,
      if_neg (Nat.not_le.mpr hi), Reading.within_bind, hWord]
    simp only [Reading.within_pure, and_true, headerSize]
    omega
  rw [readEntries, Reading.within_bind, hCountReads, run_readEntryCount, Reading.within_collect]
  constructor
  · rintro ⟨-, hAll⟩
    by_contra hShort
    have hPos := entryCount_pos_of_short (hLen ▸ Nat.not_le.mp hShort) hWidth
    have := ((hEntry 0 hPos).mp (hAll 0 hPos)).2
    omega
  · intro hHeader
    refine ⟨by omega, fun i hi => (hEntry i hi).mpr ⟨by omega, ?_⟩⟩
    rw [entryCount_eq (hLen ▸ hHeader), hLen] at hi
    rcases hWidth with rfl | rfl
    · show 36 + 4 * i + 4 ≤ _
      change i < _ / 4 at hi
      omega
    · show 36 + 8 * i + 8 ≤ _
      change i < _ / 8 at hi
      omega

theorem within_rsdtWord {lo hi : Nat} (a : Nat) :
    Reading.Within mem lo hi (rsdtWord a) ↔ lo ≤ a ∧ a + 4 ≤ hi := by
  rw [rsdtWord, Reading.within_bind, Reading.within_read32]
  simp only [Reading.within_pure, and_true]

theorem within_readRootTable {root len : Nat}
    (hLen : (AcpiTableHeader.length (mem.drop root)).toNat = len)
    (hSum : AcpiTableHeader.checksumValid (mem.drop root) = true)
    (hSig : AcpiTableHeader.signature (mem.drop root) = rsdtSignature ∨
      AcpiTableHeader.signature (mem.drop root) = xsdtSignature) :
    Reading.Within mem root (root + len) (readRootTable root) ↔ 36 ≤ len := by
  have hSignature : (Reading.bytes root 4).run mem = AcpiTableHeader.signature (mem.drop root) :=
    Reading.run_bytes mem root 4
  -- whichever the signature, the pointers decide
  have hEntries : Reading.Within mem root (root + len)
      (if AcpiTableHeader.signature (mem.drop root) = rsdtSignature then
        readEntries root 4 rsdtWord
      else if AcpiTableHeader.signature (mem.drop root) = xsdtSignature then
        readEntries root 8 Reading.read64
      else .pure []) ↔ 36 ≤ len := by
    by_cases hRsdt : AcpiTableHeader.signature (mem.drop root) = rsdtSignature
    · rw [if_pos hRsdt]
      exact within_readEntries hLen (Or.inl rfl) within_rsdtWord
    · rw [if_neg hRsdt, if_pos (hSig.resolve_left hRsdt)]
      exact within_readEntries hLen (Or.inr rfl) Reading.within_read64
  rw [readRootTable, Reading.within_bind, within_readChecksumValid hLen, run_readChecksumValid,
    hSum, if_neg (by decide), Reading.within_bind, hSignature, hEntries]
  constructor
  · rintro ⟨-, -, hHeader⟩
    exact hHeader
  · intro hHeader
    exact ⟨by omega, Reading.within_bytes (Nat.le_refl _) (by omega), hHeader⟩

/-- **The root table and its declared length.** On every accepted root table the walk
visits the pointers that `readRootTable` reads. The entry count is computed without
underflow, and all that is read lies inside the declared length, exactly when that
length covers the header. -/
theorem parseRsdtXsdt_reads_root_iff (mem rsdp : Memory) (off : UInt64)
    (hSum : AcpiTableHeader.checksumValid (mem.drop (Rsdp.tableAddress rsdp + off).toNat) = true)
    (hSig : AcpiTableHeader.signature (mem.drop (Rsdp.tableAddress rsdp + off).toNat) =
        rsdtSignature ∨
      AcpiTableHeader.signature (mem.drop (Rsdp.tableAddress rsdp + off).toNat) =
        xsdtSignature) :
    let root := (Rsdp.tableAddress rsdp + off).toNat
    let length := AcpiTableHeader.length (mem.drop root)
    (∀ s : State δ, parseRsdtXsdt mem rsdp off s =
      ((readRootTable root).run mem).foldl (fun s a => visitTable mem off a s) s) ∧
    (((length.toUInt64 - 36).toNat : Int) = (length.toNat : Int) - 36 ↔ 36 ≤ length.toNat) ∧
    (Reading.Within mem root (root + length.toNat) (readRootTable root) ↔
      36 ≤ length.toNat) := by
  intro root length
  exact ⟨parseRsdtXsdt_eq_foldl_readRootTable mem rsdp off, lengthSub_eq_iff length,
    within_readRootTable rfl hSum hSig⟩

/-- The RSDT of the sample image, two pointers behind its header, is read inside its 44
bytes. -/
theorem parseRsdtXsdt_reads_root_sampleImage :
    AcpiTableHeader.checksumValid (sampleImage.drop 36) = true ∧
    Reading.Within sampleImage 36 (36 + 44) (readRootTable 36) := by
  have hSum : AcpiTableHeader.checksumValid (sampleImage.drop 36) = true := by decide
  have hSig : AcpiTableHeader.signature (sampleImage.drop 36) = rsdtSignature := by decide
  exact ⟨hSum, (parseRsdtXsdt_reads_root_iff (δ := Empty) sampleImage sampleImage 0 hSum
    (Or.inl hSig)).2.2.mpr (by decide)⟩

/-- An RSDT at 64 that declares a length of zero: the sum over no bytes is zero. -/
def emptyRsdt : Memory := fun i => (List.replicate 64 0 ++ rsdtSignature).getD i 0

/-- It is accepted with a count of 2⁶² − 9 pointers, the first of which is read 36 bytes
behind its end. -/
theorem emptyRsdt_reads_behind :
    AcpiTableHeader.checksumValid (emptyRsdt.drop 64) = true ∧
    AcpiTableHeader.signature (emptyRsdt.drop 64) = rsdtSignature ∧
    (AcpiTableHeader.length (emptyRsdt.drop 64)).toNat = 0 ∧
    entryCount (emptyRsdt.drop 64) 4 = 2 ^ 62 - 9 ∧
    64 + 36 ∈ (readTableAddress 64 4 rsdtWord 0).reads emptyRsdt ∧
    ¬ Reading.Within emptyRsdt 64 (64 + 0) (readRootTable 64) := by
  have hSum : AcpiTableHeader.checksumValid (emptyRsdt.drop 64) = true := by decide
  have hSig : AcpiTableHeader.signature (emptyRsdt.drop 64) = rsdtSignature := by decide
  have hLen : (AcpiTableHeader.length (emptyRsdt.drop 64)).toNat = 0 := by decide
  have hIff := within_readRootTable hLen hSum (Or.inl hSig)
  exact ⟨hSum, hSig, hLen, by decide, by decide, fun hReads => absurd (hIff.mp hReads) (by decide)⟩

end Neutrix.Acpi
