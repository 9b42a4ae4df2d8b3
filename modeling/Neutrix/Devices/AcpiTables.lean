import Mathlib.Data.List.Basic
import Neutrix.Devices.Acpi

/-!
# Neutrix — what the ACPI walk finds

The parser reads through the direct map: physical address `a` is mapped at
`a + phys_offset` (`directMap`). What a table contributes is read off the
physical image alone (`Found`), without the parser's loops and state:

- `mcfgRecords` — the 16-byte records behind the 44-byte MCFG header;
- `madtOffsets` — the chain of MADT entries, each as long as it says;
- `listedTables` — the pointers of the root table.

Every function of the parser appends what its table contributes and keeps
the rest (`Appends`), so the walk appends the contributions of the listed
tables in order.

- `parseRsdtXsdt_listedTables` — the walk visits the listed tables in
  order, bad tables contribute nothing, and the three lists grow by the
  records of the good ones.
- `initWithOffset_registers` — whatever is in memory, every device the
  parser registers has memory-mapped resources only.
-/

namespace Neutrix.Acpi

open Neutrix.Lib
open Neutrix.Ioapic (IoApicInfo IsoInfo)

variable {δ : Type*}

-- ---------------------------------------------------------------------------
-- What a table contains
-- ---------------------------------------------------------------------------

/-- The allocation records of an MCFG table. -/
def mcfgRecords (t : Memory) : List McfgAllocation :=
  (List.range (((AcpiTableHeader.length t).toNat - 44) / 16)).map fun i =>
    mcfgAllocationOf (t.drop (44 + 16 * i))

/-- The offsets of the MADT entries from `offset` on: each entry gives its own
length, and the chain ends at the table's end or at a length of zero. -/
def madtOffsets (t : Memory) (len offset : Nat) : List Nat :=
  if offset < len ∧ (t (offset + 1)).toNat ≠ 0 then
    offset :: madtOffsets t len (offset + (t (offset + 1)).toNat)
  else []
termination_by len - offset

def ioApicEntry (entry : Memory) : Option IoApicInfo :=
  if entry 0 = 1 ∧ (entry 1).toNat ≥ 12 then some (ioApicOf entry) else none

def isoEntry (entry : Memory) : Option IsoInfo :=
  if entry 0 = 2 ∧ (entry 1).toNat ≥ 10 then some (isoOf entry) else none

/-- The entries of an MADT table. -/
def madtEntries (t : Memory) : List Memory :=
  (madtOffsets t (AcpiTableHeader.length t).toNat 44).map t.drop

def ioApicsOf (t : Memory) : List IoApicInfo := (madtEntries t).filterMap ioApicEntry

def isosOf (t : Memory) : List IsoInfo := (madtEntries t).filterMap isoEntry

-- ---------------------------------------------------------------------------
-- Contributions
-- ---------------------------------------------------------------------------

/-- What a parsing step adds to the manager and to the three lists. -/
structure Found where
  devices : List DeviceInfo := []
  ioapics : List IoApicInfo := []
  isos    : List IsoInfo := []
  allocs  : List McfgAllocation := []

/-- The contributions of several steps in a row. -/
def Found.flat {α : Type*} (f : α → Found) (as : List α) : Found where
  devices := as.flatMap fun a => (f a).devices
  ioapics := as.flatMap fun a => (f a).ioapics
  isos    := as.flatMap fun a => (f a).isos
  allocs  := as.flatMap fun a => (f a).allocs

def registerAll (mgr : DeviceManager δ) (infos : List DeviceInfo) : DeviceManager δ :=
  infos.foldl (fun mgr info => (mgr.registerDevice info).2) mgr

/-- `t` is `s` with `f` appended. -/
structure Appends (s t : State δ) (f : Found) : Prop where
  mgr     : t.mgr = registerAll s.mgr f.devices
  ioapics : t.ioapics = s.ioapics ++ f.ioapics
  isos    : t.isos = s.isos ++ f.isos
  allocs  : t.mcfgAllocs = s.mcfgAllocs ++ f.allocs

namespace Appends

variable {s t u : State δ} {f g : Found}

theorem refl (s : State δ) : Appends s s {} :=
  ⟨rfl, by simp, by simp, by simp⟩

theorem trans (h : Appends s t f) (h' : Appends t u g) :
    Appends s u ⟨f.devices ++ g.devices, f.ioapics ++ g.ioapics, f.isos ++ g.isos,
      f.allocs ++ g.allocs⟩ where
  mgr := by rw [h'.mgr, h.mgr, registerAll, registerAll, registerAll, List.foldl_append]
  ioapics := by rw [h'.ioapics, h.ioapics, List.append_assoc]
  isos := by rw [h'.isos, h.isos, List.append_assoc]
  allocs := by rw [h'.allocs, h.allocs, List.append_assoc]

/-- One step after another appends one contribution after another. -/
theorem foldl {α : Type*} {step : State δ → α → State δ} {found : α → Found}
    (hStep : ∀ s a, Appends s (step s a) (found a)) (as : List α) (s : State δ) :
    Appends s (as.foldl step s) (Found.flat found as) := by
  induction as generalizing s with
  | nil => exact refl s
  | cons a as ih => exact (hStep s a).trans (ih (step s a))

end Appends

theorem register_appends (s : State δ) (info : DeviceInfo) :
    Appends s (s.registerDevice info) { devices := [info] } :=
  ⟨rfl, by simp [State.registerDevice], by simp [State.registerDevice],
    by simp [State.registerDevice]⟩

-- ---------------------------------------------------------------------------
-- The parsers of single tables
-- ---------------------------------------------------------------------------

/-- The contribution of one MADT entry. -/
def entryFound (entry : Memory) : Found where
  devices := (ioApicEntry entry).toList.map ioApicDevice
  ioapics := (ioApicEntry entry).toList
  isos    := (isoEntry entry).toList

theorem madtEntry_appends (entry : Memory) (s : State δ) :
    Appends s (madtEntry entry (entry 1).toNat s) (entryFound entry) := by
  unfold madtEntry
  by_cases hIo : entry 0 = 1
  · have hNot : ¬ entry 0 = 2 := by rw [hIo]; decide
    by_cases hLen : (entry 1).toNat ≥ 12
    · rw [if_pos hIo, if_pos hLen]
      constructor <;>
        simp [entryFound, ioApicEntry, isoEntry, hIo, hLen, State.registerDevice, registerAll]
    · rw [if_pos hIo, if_neg hLen]
      constructor <;> simp [entryFound, ioApicEntry, isoEntry, hIo, hLen, registerAll]
  · by_cases hIso : entry 0 = 2
    · by_cases hLen : (entry 1).toNat ≥ 10
      · rw [if_neg hIo, if_pos hIso, if_pos hLen]
        constructor <;> simp [entryFound, ioApicEntry, isoEntry, hIso, hLen, registerAll]
      · rw [if_neg hIo, if_pos hIso, if_neg hLen]
        constructor <;> simp [entryFound, ioApicEntry, isoEntry, hIso, hLen, registerAll]
    · rw [if_neg hIo, if_neg hIso]
      constructor <;> simp [entryFound, ioApicEntry, isoEntry, hIo, hIso, registerAll]

/-- The loop walks the chain of entries: every round moves on by at least a byte,
so the rounds last to the end of the table. -/
theorem madtLoop_appends (mem : Memory) {tablePtr : Nat} (hPtr : tablePtr ≠ 0) (len : Nat) :
    ∀ (fuel offset : Nat) (s : State δ), len - offset ≤ fuel →
      Appends s (madtLoop mem tablePtr len fuel offset s)
        (Found.flat entryFound
          ((madtOffsets (mem.drop tablePtr) len offset).map (mem.drop tablePtr).drop)) := by
  intro fuel
  induction fuel with
  | zero =>
    intro offset s hFuel
    rw [madtOffsets, if_neg (by omega)]
    exact Appends.refl s
  | succ fuel ih =>
    intro offset s hFuel
    have hLenByte : (mem.drop tablePtr) (offset + 1) = mem.drop (tablePtr + offset) 1 := by
      simp only [Memory.drop, Nat.add_assoc]
    rw [madtOffsets, hLenByte]
    simp only [madtLoop]
    by_cases hIn : offset < len
    · rw [if_pos hIn, if_neg (by omega)]
      by_cases hZero : (mem.drop (tablePtr + offset) 1).toNat = 0
      · rw [if_pos hZero, if_neg (by omega)]
        exact Appends.refl s
      · rw [if_neg hZero, if_pos ⟨hIn, hZero⟩, List.map_cons, Memory.drop_drop]
        exact (madtEntry_appends _ s).trans (ih _ _ (by omega))
    · rw [if_neg hIn, if_neg (by omega)]
      exact Appends.refl s

/-- The contribution of a good MADT table. -/
def madtFound (t : Memory) : Found := Found.flat entryFound (madtEntries t)

@[simp] theorem madtFound_ioapics (t : Memory) : (madtFound t).ioapics = ioApicsOf t :=
  (List.filterMap_eq_flatMap_toList _ _).symm

@[simp] theorem madtFound_isos (t : Memory) : (madtFound t).isos = isosOf t :=
  (List.filterMap_eq_flatMap_toList _ _).symm

@[simp] theorem madtFound_allocs (t : Memory) : (madtFound t).allocs = [] := by
  simp [madtFound, Found.flat, entryFound]

theorem parseMadt_appends (mem : Memory) {tablePtr : Nat} (hPtr : tablePtr ≠ 0)
    (hSum : AcpiTableHeader.checksumValid (mem.drop tablePtr) = true) (s : State δ) :
    Appends s (parseMadt mem tablePtr s) (madtFound (mem.drop tablePtr)) := by
  simp only [parseMadt, if_neg hPtr, hSum, Bool.not_true, Bool.false_eq_true, if_false]
  -- storing the local APIC address touches none of the four
  have hWalk := madtLoop_appends mem hPtr (AcpiTableHeader.length (mem.drop tablePtr)).toNat
    (AcpiTableHeader.length (mem.drop tablePtr)).toNat 44
    { s with madtLocalApicAddr := ((mem.drop tablePtr).read32 36).toUInt64 } (by omega)
  exact ⟨hWalk.mgr, hWalk.ioapics, hWalk.isos, hWalk.allocs⟩

/-- The contribution of a good HPET table. -/
def hpetFound (t : Memory) : Found :=
  { devices := if t.read64 51 ≠ 0 then [hpetDevice (t.read64 51)] else [] }

theorem parseHpet_appends (mem : Memory) {tablePtr : Nat} (hPtr : tablePtr ≠ 0)
    (hSum : AcpiTableHeader.checksumValid (mem.drop tablePtr) = true) (s : State δ) :
    Appends s (parseHpet mem tablePtr s) (hpetFound (mem.drop tablePtr)) := by
  simp only [parseHpet, if_neg hPtr, hSum, Bool.not_true, Bool.false_eq_true, if_false, hpetFound]
  by_cases hAddr : (mem.drop tablePtr).read64 51 ≠ 0
  · rw [if_pos hAddr, if_pos hAddr]
    have hReg := register_appends { s with
      hpetBase := some ((mem.drop tablePtr).read64 51)
      hpetPeriodFs := ((mem.drop tablePtr).read32 63).toUInt64 }
      (hpetDevice ((mem.drop tablePtr).read64 51))
    exact ⟨hReg.mgr, hReg.ioapics, hReg.isos, hReg.allocs⟩
  · rw [if_neg hAddr, if_neg hAddr]
    exact Appends.refl s

def allocFound (alloc : McfgAllocation) : Found :=
  { devices := [mcfgDevice alloc], allocs := [alloc] }

theorem mcfgEntry_appends (alloc : McfgAllocation) (s : State δ) :
    Appends s (mcfgEntry alloc s) (allocFound alloc) := by
  constructor <;> simp [mcfgEntry, allocFound, State.registerDevice, registerAll]

/-- The loop reads the records that fit between `offset` and the table's end. -/
theorem mcfgLoop_appends (mem : Memory) (tablePtr len : Nat) :
    ∀ (fuel offset : Nat) (s : State δ), (len - offset) / 16 ≤ fuel →
      Appends s (mcfgLoop mem tablePtr len fuel offset s)
        (Found.flat allocFound ((List.range ((len - offset) / 16)).map fun i =>
          mcfgAllocationOf ((mem.drop tablePtr).drop (offset + 16 * i)))) := by
  intro fuel
  induction fuel with
  | zero =>
    intro offset s hFuel
    have hNone : (len - offset) / 16 = 0 := by omega
    rw [hNone]
    exact Appends.refl s
  | succ fuel ih =>
    intro offset s hFuel
    simp only [mcfgLoop]
    by_cases hFits : offset + 16 ≤ len
    · have hCount : (len - offset) / 16 = (len - (offset + 16)) / 16 + 1 := by omega
      rw [if_pos hFits, hCount, List.range_succ_eq_map, List.map_cons, List.map_map, Nat.mul_zero,
        Nat.add_zero, Memory.drop_drop]
      have hRest := ih (offset + 16) (mcfgEntry (mcfgAllocationOf (mem.drop (tablePtr + offset))) s)
        (by omega)
      have hShift : ((fun i => mcfgAllocationOf ((mem.drop tablePtr).drop (offset + 16 * i))) ∘
          Nat.succ) =
          fun i => mcfgAllocationOf ((mem.drop tablePtr).drop (offset + 16 + 16 * i)) := by
        funext i
        have hOff : offset + 16 * (i + 1) = offset + 16 + 16 * i := by omega
        rw [Function.comp_apply, Nat.succ_eq_add_one, hOff]
      rw [hShift]
      exact (mcfgEntry_appends _ s).trans hRest
    · have hNone : (len - offset) / 16 = 0 := by omega
      rw [if_neg hFits, hNone]
      exact Appends.refl s

/-- The contribution of an MCFG table. -/
def mcfgFound (t : Memory) : Found := Found.flat allocFound (mcfgRecords t)

@[simp] theorem mcfgFound_allocs (t : Memory) : (mcfgFound t).allocs = mcfgRecords t := by
  simp [mcfgFound, Found.flat, allocFound]

@[simp] theorem mcfgFound_ioapics (t : Memory) : (mcfgFound t).ioapics = [] := by
  simp [mcfgFound, Found.flat, allocFound]

@[simp] theorem mcfgFound_isos (t : Memory) : (mcfgFound t).isos = [] := by
  simp [mcfgFound, Found.flat, allocFound]

theorem parseMcfg_appends (mem : Memory) {tablePtr : Nat} (hPtr : tablePtr ≠ 0) (s : State δ) :
    Appends s (parseMcfg mem tablePtr s) (mcfgFound (mem.drop tablePtr)) := by
  simp only [parseMcfg, if_neg hPtr]
  exact mcfgLoop_appends mem tablePtr _ _ 44 s (by omega)

theorem parseFacp_appends (mem : Memory) (tablePtr : Nat) (s : State δ) :
    Appends s (parseFacp mem tablePtr s) {} := by
  constructor <;> simp [parseFacp, enableAcpi, registerAll]

-- ---------------------------------------------------------------------------
-- One listed table
-- ---------------------------------------------------------------------------

/-- The contribution of a table with a good checksum: a device for the table
itself, then what its own parser adds. -/
def goodTableFound (t : Memory) (tablePhysAddr : UInt64) : Found :=
  let signature := AcpiTableHeader.signature t
  let inner : Found :=
    if signature = apicSignature then madtFound t
    else if signature = hpetSignature then hpetFound t
    else if signature = mcfgSignature then mcfgFound t
    else {}
  { inner with devices := tableDevice t tablePhysAddr :: inner.devices }

theorem parseSpecificTable_appends (mem : Memory) {p off : UInt64} (hPtr : (p + off).toNat ≠ 0)
    (hSum : AcpiTableHeader.checksumValid (mem.drop (p + off).toNat) = true) (s : State δ) :
    let t := mem.drop (p + off).toNat
    Appends s (parseSpecificTable mem (AcpiTableHeader.signature t) p off s)
      (if AcpiTableHeader.signature t = apicSignature then madtFound t
       else if AcpiTableHeader.signature t = hpetSignature then hpetFound t
       else if AcpiTableHeader.signature t = mcfgSignature then mcfgFound t
       else {}) := by
  simp only [parseSpecificTable]
  by_cases hFacp : AcpiTableHeader.signature (mem.drop (p + off).toNat) = facpSignature
  · rw [if_pos hFacp, hFacp, if_neg (by decide), if_neg (by decide), if_neg (by decide)]
    exact parseFacp_appends mem _ s
  rw [if_neg hFacp]
  split_ifs
  · exact parseMadt_appends mem hPtr hSum s
  · exact parseHpet_appends mem hPtr hSum s
  · exact parseMcfg_appends mem hPtr s
  · exact Appends.refl s

/-- The contribution of the listed pointer `p`, where `t` is what it points to. A
pointer whose virtual address is null designates no table. -/
def tableFound (off : UInt64) (p : UInt64) (t : Memory) : Found :=
  if (p + off).toNat ≠ 0 ∧ AcpiTableHeader.checksumValid t = true then goodTableFound t p else {}

theorem printTableInfo_appends (mem : Memory) (p off : UInt64) (s : State δ) :
    Appends s (printTableInfo mem p off s) (tableFound off p (mem.drop (p + off).toNat)) := by
  simp only [printTableInfo, tableFound]
  by_cases hPtr : (p + off).toNat = 0
  · rw [if_pos hPtr, if_neg (fun h => h.1 hPtr)]
    exact Appends.refl s
  by_cases hSum : AcpiTableHeader.checksumValid (mem.drop (p + off).toNat) = true
  · rw [if_neg hPtr, if_pos hSum, if_pos ⟨hPtr, hSum⟩]
    exact (register_appends s _).trans (parseSpecificTable_appends mem hPtr hSum _)
  · rw [if_neg hPtr, if_neg hSum, if_neg (fun h => hSum h.2)]
    exact Appends.refl s

-- ---------------------------------------------------------------------------
-- The physical image
-- ---------------------------------------------------------------------------

/-- Virtual memory as the boot loader maps it: physical address `a` at
`a + phys_offset`. -/
def directMap (image : Memory) (off : UInt64) : Memory := fun v => image (v - off.toNat)

/-- A pointer made from a physical address shows the image at that address. -/
theorem directMap_drop (image : Memory) {p off : UInt64} (h : p.toNat + off.toNat < 2 ^ 64) :
    (directMap image off).drop (p + off).toNat = image.drop p.toNat := by
  funext i
  have hSum : (p + off).toNat = p.toNat + off.toNat := by
    rw [UInt64.toNat_add, Nat.mod_eq_of_lt h]
  have hBack : p.toNat + off.toNat + i - off.toNat = p.toNat + i := by omega
  simp only [Memory.drop, directMap, hSum, hBack]

/-- The tables a root table lists: 32-bit pointers in an RSDT, 64-bit pointers in an
XSDT. -/
def listedTables (root : Memory) : List UInt64 :=
  let len := (AcpiTableHeader.length root).toNat
  if AcpiTableHeader.signature root = rsdtSignature then
    (List.range ((len - 36) / 4)).map fun i => (root.read32 (36 + 4 * i)).toUInt64
  else (List.range ((len - 36) / 8)).map fun i => root.read64 (36 + 8 * i)

/-- The root table the RSDP at `rsdpAddr` points to. -/
def rootTable (image : Memory) (rsdpAddr : Nat) : Memory :=
  image.drop (Rsdp.tableAddress (image.drop rsdpAddr)).toNat

/-- A physical memory image with a valid RSDP at `rsdpAddr`, whose root table is sound.
Addresses do not wrap when the offset is added. -/
structure ValidImage (image : Memory) (off : UInt64) (rsdpAddr : Nat) : Prop where
  rsdpValid    : Rsdp.isValid (image.drop rsdpAddr) = true
  rsdpChecksum : Rsdp.checksumValid (image.drop rsdpAddr) = true
  checksum     : AcpiTableHeader.checksumValid (rootTable image rsdpAddr) = true
  signature    : AcpiTableHeader.signature (rootTable image rsdpAddr) = rsdtSignature ∨
    AcpiTableHeader.signature (rootTable image rsdpAddr) = xsdtSignature
  length       : 36 ≤ (AcpiTableHeader.length (rootTable image rsdpAddr)).toNat
  rootFits     : (Rsdp.tableAddress (image.drop rsdpAddr)).toNat + off.toNat < 2 ^ 64
  tablesFit    : ∀ p ∈ listedTables (rootTable image rsdpAddr), p.toNat + off.toNat < 2 ^ 64

/-- Pointer `p` designates a table with this signature and a good checksum. -/
def goodTable (image : Memory) (off : UInt64) (signature : List UInt8) (p : UInt64) : Bool :=
  (p + off).toNat ≠ 0 && AcpiTableHeader.checksumValid (image.drop p.toNat) &&
    AcpiTableHeader.signature (image.drop p.toNat) = signature

-- ---------------------------------------------------------------------------
-- The walk
-- ---------------------------------------------------------------------------

theorem entryCount_eq {root : Memory} (h : 36 ≤ (AcpiTableHeader.length root).toNat)
    (width : UInt64) :
    entryCount root width = ((AcpiTableHeader.length root).toNat - 36) / width.toNat := by
  have hLe : (36 : UInt64) ≤ (AcpiTableHeader.length root).toUInt64 := by
    simpa [UInt64.le_iff_toNat_le] using h
  simp [entryCount, UInt64.toNat_div, UInt64.toNat_sub_of_le _ _ hLe]

theorem Rsdt.tableAddress_of_lt {rsdt : Memory} {i : Nat} (h : i < entryCount rsdt 4) :
    Rsdt.tableAddress rsdt i = some (rsdt.read32 (36 + 4 * i)) :=
  if_neg (Nat.not_le.mpr h)

theorem Xsdt.tableAddress_of_lt {xsdt : Memory} {i : Nat} (h : i < entryCount xsdt 8) :
    Xsdt.tableAddress xsdt i = some (xsdt.read64 (36 + 8 * i)) :=
  if_neg (Nat.not_le.mpr h)

/-- The walk hands every listed pointer to `print_table_info`, in order. -/
theorem parseRsdtXsdt_eq_foldl (mem rsdp : Memory) (off : UInt64) (s : State δ)
    (hSum : AcpiTableHeader.checksumValid (mem.drop (Rsdp.tableAddress rsdp + off).toNat) = true)
    (hSig : AcpiTableHeader.signature (mem.drop (Rsdp.tableAddress rsdp + off).toNat) =
        rsdtSignature ∨
      AcpiTableHeader.signature (mem.drop (Rsdp.tableAddress rsdp + off).toNat) = xsdtSignature)
    (hLen : 36 ≤ (AcpiTableHeader.length (mem.drop (Rsdp.tableAddress rsdp + off).toNat)).toNat) :
    parseRsdtXsdt mem rsdp off s =
      (listedTables (mem.drop (Rsdp.tableAddress rsdp + off).toNat)).foldl
        (fun s p => printTableInfo mem p off s) s := by
  simp only [parseRsdtXsdt, listedTables, hSum, Bool.not_true, Bool.false_eq_true, if_false]
  generalize mem.drop (Rsdp.tableAddress rsdp + off).toNat = root at *
  by_cases hRsdt : AcpiTableHeader.signature root = rsdtSignature
  · have hCount : entryCount root 4 = ((AcpiTableHeader.length root).toNat - 36) / 4 := by
      simpa using entryCount_eq hLen 4
    rw [if_pos hRsdt, if_pos hRsdt, List.foldl_map, ← hCount]
    apply List.foldl_ext
    intro s i hi
    rw [Rsdt.tableAddress_of_lt (List.mem_range.mp hi), Option.map_some, visitTable]
  · have hCount : entryCount root 8 = ((AcpiTableHeader.length root).toNat - 36) / 8 := by
      simpa using entryCount_eq hLen 8
    rw [if_neg hRsdt, if_pos (hSig.resolve_left hRsdt), if_neg hRsdt, List.foldl_map, ← hCount]
    apply List.foldl_ext
    intro s i hi
    rw [Xsdt.tableAddress_of_lt (List.mem_range.mp hi), visitTable]

theorem flatMap_eq_flatMap_filter {α β : Type*} {p : α → Bool} {f g : α → List β} {as : List α}
    (h : ∀ a ∈ as, g a = if p a then f a else []) : as.flatMap g = (as.filter p).flatMap f := by
  induction as with
  | nil => rfl
  | cons a as ih =>
    rw [List.flatMap_cons, h a List.mem_cons_self, ih fun b hb => h b (List.mem_cons_of_mem a hb)]
    cases hp : p a <;> simp [hp]

/-- Only APIC tables add IOAPICs and overrides, only MCFG tables add allocations. -/
theorem goodTableFound_lists (t : Memory) (p : UInt64) :
    (goodTableFound t p).allocs =
        (if AcpiTableHeader.signature t = mcfgSignature then mcfgRecords t else []) ∧
      (goodTableFound t p).ioapics =
        (if AcpiTableHeader.signature t = apicSignature then ioApicsOf t else []) ∧
      (goodTableFound t p).isos =
        (if AcpiTableHeader.signature t = apicSignature then isosOf t else []) := by
  simp only [goodTableFound]
  generalize AcpiTableHeader.signature t = signature
  by_cases hApic : signature = apicSignature
  · have hNot : ¬ signature = mcfgSignature := by rw [hApic]; decide
    simp only [if_pos hApic, if_neg hNot, madtFound_allocs, madtFound_ioapics, madtFound_isos,
      and_self]
  by_cases hHpet : signature = hpetSignature
  · have hNot : ¬ signature = mcfgSignature := by rw [hHpet]; decide
    rw [if_neg hApic, if_pos hHpet, if_neg hNot, if_neg hApic, if_neg hApic]
    exact ⟨rfl, rfl, rfl⟩
  · rw [if_neg hApic, if_neg hHpet, if_neg hApic, if_neg hApic]
    by_cases hMcfg : signature = mcfgSignature <;> simp [hMcfg]

/-- The lists of `tableFound`, in terms of good tables. -/
theorem tableFound_lists (image : Memory) (off p : UInt64) :
    (tableFound off p (image.drop p.toNat)).allocs =
        (if goodTable image off mcfgSignature p then mcfgRecords (image.drop p.toNat) else []) ∧
      (tableFound off p (image.drop p.toNat)).ioapics =
        (if goodTable image off apicSignature p then ioApicsOf (image.drop p.toNat) else []) ∧
      (tableFound off p (image.drop p.toNat)).isos =
        (if goodTable image off apicSignature p then isosOf (image.drop p.toNat) else []) := by
  simp only [tableFound, goodTable, ne_eq, decide_not, Bool.and_eq_true, Bool.not_eq_true',
    decide_eq_false_iff_not, decide_eq_true_eq]
  by_cases hGood : ¬ (p + off).toNat = 0 ∧ AcpiTableHeader.checksumValid (image.drop p.toNat) = true
  · have hLists := goodTableFound_lists (image.drop p.toNat) p
    simpa only [if_pos hGood, and_iff_right hGood] using hLists
  · simp only [hGood, false_and, if_false, and_self]

/-- **The walk over the ACPI tables.** For every image with a valid RSDP and a sound root
table, the walk visits the listed tables in order. Tables with a bad checksum
contribute nothing; the allocation list grows by the records of the good MCFG tables,
the IOAPIC and override lists by the entries of the good APIC tables. -/
theorem parseRsdtXsdt_listedTables {image : Memory} {off : UInt64} {rsdpAddr : Nat}
    (h : ValidImage image off rsdpAddr) (s : State δ) :
    let mem := directMap image off
    let tables := listedTables (rootTable image rsdpAddr)
    let t := parseRsdtXsdt mem (mem.drop (rsdpAddr + off.toNat)) off s
    t = tables.foldl (fun s p => printTableInfo mem p off s) s ∧
    (∀ p ∈ tables, AcpiTableHeader.checksumValid (image.drop p.toNat) = false →
      ∀ s : State δ, printTableInfo mem p off s = s) ∧
    t.mcfgAllocs = s.mcfgAllocs ++ (tables.filter (goodTable image off mcfgSignature)).flatMap
      (fun p => mcfgRecords (image.drop p.toNat)) ∧
    t.ioapics = s.ioapics ++ (tables.filter (goodTable image off apicSignature)).flatMap
      (fun p => ioApicsOf (image.drop p.toNat)) ∧
    t.isos = s.isos ++ (tables.filter (goodTable image off apicSignature)).flatMap
      (fun p => isosOf (image.drop p.toNat)) := by
  intro mem tables t
  have hRsdp : mem.drop (rsdpAddr + off.toNat) = image.drop rsdpAddr := by
    funext i
    simp only [mem, Memory.drop, directMap]
    congr 1
    omega
  have hRoot : mem.drop (Rsdp.tableAddress (image.drop rsdpAddr) + off).toNat =
      rootTable image rsdpAddr := directMap_drop image h.rootFits
  have hWalk : t = tables.foldl (fun s p => printTableInfo mem p off s) s := by
    simp only [t, hRsdp]
    rw [parseRsdtXsdt_eq_foldl mem (image.drop rsdpAddr) off s] <;> rw [hRoot]
    · exact h.checksum
    · exact h.signature
    · exact h.length
  have hTable : ∀ p ∈ tables, mem.drop (p + off).toNat = image.drop p.toNat :=
    fun p hp => directMap_drop image (h.tablesFit p hp)
  have hFound := Appends.foldl (fun s p => printTableInfo_appends (δ := δ) mem p off s) tables s
  rw [← hWalk] at hFound
  refine ⟨hWalk, ?_, ?_, ?_, ?_⟩
  · intro p hp hBad s
    simp only [printTableInfo, hTable p hp, hBad, Bool.false_eq_true, if_false, ite_self]
  · refine hFound.allocs.trans (congrArg _ (flatMap_eq_flatMap_filter fun p hp => ?_))
    simp only [hTable p hp, (tableFound_lists image off p).1]
  · refine hFound.ioapics.trans (congrArg _ (flatMap_eq_flatMap_filter fun p hp => ?_))
    simp only [hTable p hp, (tableFound_lists image off p).2.1]
  · refine hFound.isos.trans (congrArg _ (flatMap_eq_flatMap_filter fun p hp => ?_))
    simp only [hTable p hp, (tableFound_lists image off p).2.2]

/-- A header of revision 1 with zero OEM fields. -/
def sampleHeader (signature : List UInt8) (len checksum : UInt8) : List UInt8 :=
  signature ++ [len, 0, 0, 0, 1, checksum] ++ List.replicate 26 0

/-- An RSDP at 0, an RSDT at 36 that lists an MCFG table with a wrong checksum at 80 and
a good one with one record at 116. -/
def sampleImage : Memory := fun i =>
  (ascii ['R', 'S', 'D', ' ', 'P', 'T', 'R', ' '] ++ [189] ++ List.replicate 7 0 ++
    [36, 0, 0, 0] ++ List.replicate 16 0 ++
    sampleHeader rsdtSignature 44 210 ++ [80, 0, 0, 0, 116, 0, 0, 0] ++
    sampleHeader mcfgSignature 36 0 ++
    sampleHeader mcfgSignature 60 199 ++ List.replicate 8 0 ++
      [0, 0, 0, 0xE0, 0, 0, 0, 0, 0, 0, 0, 255, 0, 0, 0, 0]).getD i 0

theorem sampleImage_valid : ValidImage sampleImage 0xFFFF800000000000 0 where
  rsdpValid := by decide
  rsdpChecksum := by decide
  checksum := by decide
  signature := by decide
  length := by decide
  rootFits := by decide
  tablesFit p hp := by
    have hList : listedTables (rootTable sampleImage 0) = [80, 116] := by decide
    rw [hList, List.mem_cons, List.mem_singleton] at hp
    rcases hp with rfl | rfl <;> decide

/-- The walk over the sample image keeps the record of the good table. -/
theorem parseRsdtXsdt_listedTables_sampleImage :
    ValidImage sampleImage 0xFFFF800000000000 0 ∧
    ∀ s : State Empty,
      (parseRsdtXsdt (directMap sampleImage 0xFFFF800000000000)
        ((directMap sampleImage 0xFFFF800000000000).drop (0 + (0xFFFF800000000000 : UInt64).toNat))
        0xFFFF800000000000 s).mcfgAllocs =
      s.mcfgAllocs ++ [⟨⟨0xE0000000, 0, 0, 255⟩, #v[0, 0, 0, 0]⟩] := by
  refine ⟨sampleImage_valid, fun s => ?_⟩
  rw [(parseRsdtXsdt_listedTables sampleImage_valid s).2.2.1]
  have hRecords : (((listedTables (rootTable sampleImage 0)).filter
      (goodTable sampleImage 0xFFFF800000000000 mcfgSignature)).flatMap
        fun p => mcfgRecords (sampleImage.drop p.toNat)) =
      [⟨⟨0xE0000000, 0, 0, 255⟩, #v[0, 0, 0, 0]⟩] := by
    decide +kernel
  rw [hRecords]

-- ---------------------------------------------------------------------------
-- The registered devices
-- ---------------------------------------------------------------------------

/-- Every device found has memory-mapped resources only. -/
def Found.MmioOnly (f : Found) : Prop :=
  ∀ info ∈ f.devices, ∀ r ∈ info.resources, r.kind = .memoryMapped

theorem mmioDevice_resources {deviceId : UInt16} {class_ : UInt8} {addr len : UInt64}
    {description : String} {r : Resource}
    (h : r ∈ (mmioDevice deviceId class_ addr len description).resources) :
    r.kind = .memoryMapped := by
  rw [List.mem_singleton.mp h]

theorem Found.MmioOnly.empty : ({} : Found).MmioOnly := by
  intro info hInfo
  nomatch hInfo

theorem Found.MmioOnly.flat {α : Type*} {f : α → Found} (h : ∀ a, (f a).MmioOnly) (as : List α) :
    (Found.flat f as).MmioOnly := by
  intro info hInfo
  obtain ⟨a, -, hMem⟩ := List.mem_flatMap.mp hInfo
  exact h a info hMem

theorem entryFound_mmioOnly (entry : Memory) : (entryFound entry).MmioOnly := by
  intro info hInfo r hr
  obtain ⟨ioapic, -, rfl⟩ := List.mem_map.mp hInfo
  exact mmioDevice_resources hr

theorem hpetFound_mmioOnly (t : Memory) : (hpetFound t).MmioOnly := by
  intro info hInfo r hr
  simp only [hpetFound] at hInfo
  split at hInfo
  · rw [List.mem_singleton.mp hInfo] at hr
    exact mmioDevice_resources hr
  · nomatch hInfo

theorem allocFound_mmioOnly (alloc : McfgAllocation) : (allocFound alloc).MmioOnly := by
  intro info hInfo r hr
  rw [List.mem_singleton.mp hInfo] at hr
  exact mmioDevice_resources hr

theorem goodTableFound_mmioOnly (t : Memory) (p : UInt64) : (goodTableFound t p).MmioOnly := by
  intro info hInfo r hr
  rcases List.mem_cons.mp hInfo with rfl | hInner
  · exact mmioDevice_resources hr
  · split_ifs at hInner
    · exact Found.MmioOnly.flat entryFound_mmioOnly _ info hInner r hr
    · exact hpetFound_mmioOnly t info hInner r hr
    · exact Found.MmioOnly.flat allocFound_mmioOnly _ info hInner r hr
    · nomatch hInner

theorem tableFound_mmioOnly (off p : UInt64) (t : Memory) : (tableFound off p t).MmioOnly := by
  unfold tableFound
  split_ifs
  · exact goodTableFound_mmioOnly t p
  · exact Found.MmioOnly.empty

/-- A walk over optional pointers registers devices with memory-mapped resources. -/
theorem foldl_visitTable_registers {α : Type*} (mem : Memory) (off : UInt64)
    (pointer : α → Option UInt64) (as : List α) (s : State δ) :
    ∃ f : Found, f.MmioOnly ∧
      Appends s (as.foldl (fun s a => visitTable mem off (pointer a) s) s) f := by
  let found (a : α) : Found :=
    (pointer a).elim {} fun p => tableFound off p (mem.drop (p + off).toNat)
  have hFound : ∀ a, (found a).MmioOnly := by
    intro a
    simp only [found]
    cases pointer a with
    | none => exact Found.MmioOnly.empty
    | some p => exact tableFound_mmioOnly off p _
  refine ⟨Found.flat found as, Found.MmioOnly.flat hFound as, Appends.foldl (fun s a => ?_) as s⟩
  simp only [found]
  cases pointer a with
  | none => exact Appends.refl s
  | some p => exact printTableInfo_appends mem p off s

theorem parseRsdtXsdt_registers (mem rsdp : Memory) (off : UInt64) (s : State δ) :
    ∃ f : Found, f.MmioOnly ∧ Appends s (parseRsdtXsdt mem rsdp off s) f := by
  have hNothing : ∃ f : Found, f.MmioOnly ∧ Appends s s f :=
    ⟨{}, Found.MmioOnly.empty, Appends.refl s⟩
  simp only [parseRsdtXsdt]
  split_ifs
  · exact hNothing
  · exact foldl_visitTable_registers mem off _ _ s
  · exact foldl_visitTable_registers mem off _ _ s
  · exact hNothing

/-- Whatever is in memory, the devices the parser registers have memory-mapped
resources only. -/
theorem initWithOffset_registers (mem : Memory) (off : UInt64) (s : State δ) :
    ∃ f : Found, f.MmioOnly ∧ Appends s (initWithOffset mem off s) f := by
  unfold initWithOffset
  generalize findRsdp mem off = rsdp
  cases rsdp with
  | none => exact ⟨{}, Found.MmioOnly.empty, Appends.refl s⟩
  | some ptr => exact parseRsdtXsdt_registers mem _ off s

end Neutrix.Acpi
