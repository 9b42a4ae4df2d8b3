import Neutrix.Devices.AcpiImage

/-!
# Neutrix — a firmware image, from the RSDP to the tables

What a firmware leaves in memory for `init_with_offset` of
`src/devices/acpi/acpi.rs`: an RSDP at one of the places where it is looked
for, the root table it points to, an RSDT or an XSDT, and the tables the root
lists, anywhere in physical memory.

* `findRsdp_placed` — the search ends at the first of its candidates that is
  an RSDP, in the extended BIOS data area before the BIOS area.
* `listedTables_encode` — the root table's pointers are read back.
* `initWithOffset_decodes` — the parser leaves exactly what the image says:
  the whole state is what the contents of the listed tables make of it, one
  after the other.
-/

namespace Neutrix.Acpi

open Neutrix.Lib
open Neutrix.Lib.Memory (le32 le64)

variable {δ : Type*}

-- ---------------------------------------------------------------------------
-- The root table
-- ---------------------------------------------------------------------------

inductive RootContents where
  | rsdt (pointers : List UInt32) (rest : List UInt8) (hRest : rest.length < 4)
  | xsdt (pointers : List UInt64) (rest : List UInt8) (hRest : rest.length < 8)

namespace RootContents

def signature : RootContents → List UInt8
  | rsdt .. => rsdtSignature
  | xsdt .. => xsdtSignature

def body : RootContents → List UInt8
  | rsdt pointers rest _ => pointers.flatMap le32 ++ rest
  | xsdt pointers rest _ => pointers.flatMap le64 ++ rest

def pointers : RootContents → List UInt64
  | rsdt pointers _ _ => pointers.map UInt32.toUInt64
  | xsdt pointers _ _ => pointers

end RootContents

theorem listedTables_encode {t : Memory} {c : RootContents} (h : SdtHeld t c.signature c.body) :
    listedTables t = c.pointers := by
  have hBody := h.body
  have hLen := h.length
  rw [listedTables, h.signature, hLen]
  cases c with
  | rsdt pointers rest hRest =>
    simp only [RootContents.body, Memory.holds_append] at hBody
    have hCount : (36 + (RootContents.rsdt pointers rest hRest).body.length - 36) / 4 =
        pointers.length := by
      simp [RootContents.body, List.length_flatMap]
      omega
    have hReads : (List.range pointers.length).map (fun i => t.read32 (36 + 4 * i)) = pointers :=
      Memory.reads_of_holds Memory.length_le32 (fun _ _ _ => Memory.read32_of_holds) hBody.1
    rw [RootContents.signature, if_pos rfl, hCount, RootContents.pointers]
    conv_rhs => rw [← hReads]
    rw [List.map_map]
    rfl
  | xsdt pointers rest hRest =>
    simp only [RootContents.body, Memory.holds_append] at hBody
    have hCount : (36 + (RootContents.xsdt pointers rest hRest).body.length - 36) / 8 =
        pointers.length := by
      simp [RootContents.body, List.length_flatMap]
      omega
    rw [RootContents.signature, if_neg (by decide), hCount]
    exact Memory.reads_of_holds Memory.length_le64 (fun _ _ _ => Memory.read64_of_holds) hBody.1

structure RootTable where
  contents : RootContents
  sdt      : Sdt contents.signature contents.body

def RootTable.bytes (root : RootTable) : List UInt8 := root.sdt.bytes

-- ---------------------------------------------------------------------------
-- The RSDP
-- ---------------------------------------------------------------------------

/-- From revision 2 on the structure goes on with a second pointer. -/
inductive RsdpVersion where
  | first (revision : UInt8) (hRevision : revision < 2)
  | later (revision : UInt8) (hRevision : 2 ≤ revision) (length : UInt32) (xsdtAddress : UInt64)
      (extendedChecksum : UInt8) (reserved : Vector UInt8 3)

def RsdpVersion.revision : RsdpVersion → UInt8
  | first revision _ => revision
  | later revision .. => revision

def RsdpVersion.encode : RsdpVersion → List UInt8
  | first .. => []
  | later _ _ length xsdtAddress extendedChecksum reserved =>
    le32 length ++ le64 xsdtAddress ++ [extendedChecksum] ++ reserved.toList

/-- The checksum is over the first 20 bytes. -/
def encodeRsdp (checksum : UInt8) (oemId : Vector UInt8 6) (revision : UInt8)
    (rsdtAddress : UInt32) : List UInt8 :=
  ascii ['R', 'S', 'D', ' ', 'P', 'T', 'R', ' '] ++ [checksum] ++ oemId.toList ++ [revision] ++
    le32 rsdtAddress

structure RsdpImage where
  checksum    : UInt8
  oemId       : Vector UInt8 6
  rsdtAddress : UInt32
  version     : RsdpVersion
  sums        : sumsToZero (encodeRsdp checksum oemId version.revision rsdtAddress) = true

namespace RsdpImage

def bytes (r : RsdpImage) : List UInt8 :=
  encodeRsdp r.checksum r.oemId r.version.revision r.rsdtAddress ++ r.version.encode

def tableAddress (r : RsdpImage) : UInt64 :=
  match r.version with
  | .first .. => r.rsdtAddress.toUInt64
  | .later _ _ _ xsdtAddress _ _ => xsdtAddress

end RsdpImage

/-- What the search asks of a candidate. -/
def isRsdp (t : Memory) : Bool := Rsdp.isValid t && Rsdp.checksumValid t

theorem RsdpImage.held {t : Memory} {r : RsdpImage} (h : t.Holds 0 r.bytes) :
    isRsdp t = true ∧ Rsdp.tableAddress t = r.tableAddress := by
  obtain ⟨hFirst, hLater⟩ := (Memory.holds_append ..).mp h
  have hTwenty := Memory.bytes_of_holds hFirst
  have hLen : (encodeRsdp r.checksum r.oemId r.version.revision r.rsdtAddress).length = 20 := by
    simp [encodeRsdp, ascii]
  rw [hLen] at hTwenty hLater
  have hParts := hFirst
  simp only [encodeRsdp, Memory.holds_append, Memory.holds_cons] at hParts
  obtain ⟨⟨⟨⟨hSig, -⟩, -⟩, hRevision, -⟩, hRsdt⟩ := hParts
  replace hRevision : t 15 = r.version.revision := by simpa [ascii] using hRevision
  have hAddress : t.read32 16 = r.rsdtAddress :=
    Memory.read32_of_holds (by simpa [ascii] using hRsdt)
  refine ⟨?_, ?_⟩
  · rw [isRsdp, Rsdp.isValid, Rsdp.checksumValid, hTwenty, r.sums, Bool.and_true,
      decide_eq_true_eq]
    exact Memory.bytes_of_holds hSig
  · rw [Rsdp.tableAddress, RsdpImage.tableAddress, Rsdp.revision, hRevision]
    cases hVersion : r.version with
    | first revision hFirst =>
      rw [RsdpVersion.revision, if_neg (UInt8.not_le.mpr hFirst), hAddress]
    | later revision hSecond length xsdtAddress extendedChecksum reserved =>
      rw [hVersion, RsdpVersion.encode] at hLater
      simp only [Memory.holds_append] at hLater
      have hXsdt : t.read64 24 = xsdtAddress := Memory.read64_of_holds hLater.1.1.2
      rw [RsdpVersion.revision, if_pos hSecond, hXsdt]

-- ---------------------------------------------------------------------------
-- The search
-- ---------------------------------------------------------------------------

section Search

variable {image : Memory} {off endPtr : UInt64}

theorem directMap_drop_add (image : Memory) (off : UInt64) (a : Nat) :
    (directMap image off).drop (a + off.toNat) = image.drop a := by
  funext i
  simp only [Memory.drop, directMap]
  congr 1
  omega

/-- The pointer to the candidate at `a`, and the next one. -/
theorem ofNat_candidate {a n : Nat} (hEnd : endPtr.toNat = a + 16 * (n + 1) + off.toNat) :
    (UInt64.ofNat (a + off.toNat)).toNat = a + off.toNat ∧
      UInt64.ofNat (a + off.toNat) < endPtr ∧
      UInt64.ofNat (a + off.toNat) + 16 = UInt64.ofNat (a + 16 + off.toNat) := by
  have hLt := endPtr.toNat_lt
  have hPtr : (UInt64.ofNat (a + off.toNat)).toNat = a + off.toNat := by
    rw [UInt64.toNat_ofNat', Nat.mod_eq_of_lt (by omega)]
  refine ⟨hPtr, ?_, ?_⟩
  · rw [UInt64.lt_iff_toNat_lt, hPtr]
    omega
  · apply UInt64.toNat_inj.mp
    rw [UInt64.toNat_add, hPtr, UInt64.toNat_ofNat', show (16 : UInt64).toNat = 16 from rfl]
    congr 1
    omega

theorem searchLoop_found {a i n : Nat} (hi : i < n)
    (hEnd : endPtr.toNat = a + 16 * n + off.toNat)
    (hHere : isRsdp (image.drop (a + 16 * i)) = true)
    (hBefore : ∀ j < i, isRsdp (image.drop (a + 16 * j)) = false) :
    searchLoop (directMap image off) endPtr n (UInt64.ofNat (a + off.toNat)) =
      some (UInt64.ofNat (a + 16 * i + off.toNat)) := by
  induction n generalizing a i with
  | zero => omega
  | succ n ih =>
    obtain ⟨hPtr, hLt, hNext⟩ := ofNat_candidate hEnd
    rw [searchLoop, if_pos hLt]
    simp only [hPtr, directMap_drop_add, hNext]
    cases i with
    | zero => exact if_pos hHere
    | succ i =>
      have hNot := hBefore 0 (Nat.zero_lt_succ i)
      rw [if_neg (by simpa [isRsdp] using hNot), ih (Nat.lt_of_succ_lt_succ hi) (by omega)]
      · congr 2
        omega
      · rwa [show a + 16 + 16 * i = a + 16 * (i + 1) by omega]
      · intro j hj
        rw [show a + 16 + 16 * j = a + 16 * (j + 1) by omega]
        exact hBefore (j + 1) (Nat.succ_lt_succ hj)

theorem searchLoop_none {a n : Nat} (hEnd : endPtr.toNat = a + 16 * n + off.toNat)
    (hNone : ∀ j < n, isRsdp (image.drop (a + 16 * j)) = false) :
    searchLoop (directMap image off) endPtr n (UInt64.ofNat (a + off.toNat)) = none := by
  induction n generalizing a with
  | zero => rfl
  | succ n ih =>
    obtain ⟨hPtr, hLt, hNext⟩ := ofNat_candidate hEnd
    have hNot := hNone 0 (Nat.zero_lt_succ n)
    rw [searchLoop, if_pos hLt]
    simp only [hPtr, directMap_drop_add, hNext]
    rw [if_neg (by simpa [isRsdp] using hNot), ih (by omega)]
    intro j hj
    rw [show a + 16 + 16 * j = a + 16 * (j + 1) by omega]
    exact hNone (j + 1) (Nat.succ_lt_succ hj)

theorem searchRsdpInRange_eq (mem : Memory) (start stop : UInt64) {a n : Nat}
    (hStart : start.toNat = a) (hStop : stop.toNat = a + 16 * n)
    (hFits : stop.toNat + off.toNat < 2 ^ 64) :
    searchRsdpInRange mem start stop off =
        searchLoop mem (stop + off) n (UInt64.ofNat (a + off.toNat)) ∧
      (stop + off).toNat = a + 16 * n + off.toNat := by
  have hCount : ((stop - start) / 16).toNat = n := by
    have hLe : start ≤ stop := UInt64.le_iff_toNat_le.mpr (by omega)
    rw [UInt64.toNat_div, UInt64.toNat_sub_of_le _ _ hLe, hStop, hStart]
    simp
  have hSum : start + off = UInt64.ofNat (a + off.toNat) := by
    rw [UInt64.ofNat_add, ← hStart, UInt64.ofNat_toNat, UInt64.ofNat_toNat]
  refine ⟨by rw [searchRsdpInRange, hCount, hSum], ?_⟩
  rw [UInt64.toNat_add, Nat.mod_eq_of_lt hFits, hStop]

/-- The places where the RSDP is looked for, in order: 64 in the extended BIOS data
area, 8192 in the BIOS area. -/
def candidate (n : Nat) : Nat := if n < 64 then 0x9FC00 + 16 * n else 0xE0000 + 16 * (n - 64)

/-- **The search** ends at the first candidate that is an RSDP. -/
theorem findRsdp_placed {n : Nat} (hn : n < 64 + 8192) (hFits : 0x100000 + off.toNat < 2 ^ 64)
    (hHere : isRsdp (image.drop (candidate n)) = true)
    (hBefore : ∀ j < n, isRsdp (image.drop (candidate j)) = false) :
    findRsdp (directMap image off) off = some (UInt64.ofNat (candidate n + off.toNat)) := by
  have hEbda : ∀ j < 64, candidate j = 0x9FC00 + 16 * j := fun j hj => if_pos hj
  have hBios : ∀ j, candidate (64 + j) = 0xE0000 + 16 * j := by
    intro j
    rw [candidate, if_neg (by omega), Nat.add_sub_cancel_left]
  have hFirstFits : (0xA0000 : UInt64).toNat + off.toNat < 2 ^ 64 := by simp; omega
  have hSecondFits : (0x100000 : UInt64).toNat + off.toNat < 2 ^ 64 := by simpa using hFits
  obtain ⟨hFirst, hFirstEnd⟩ := searchRsdpInRange_eq (directMap image off) 0x9FC00 0xA0000
    (a := 0x9FC00) (n := 64) rfl rfl hFirstFits
  obtain ⟨hSecond, hSecondEnd⟩ := searchRsdpInRange_eq (directMap image off) 0xE0000 0x100000
    (a := 0xE0000) (n := 8192) rfl rfl hSecondFits
  rw [findRsdp, hFirst, hSecond]
  by_cases hArea : n < 64
  · rw [hEbda n hArea] at hHere ⊢
    rw [searchLoop_found hArea hFirstEnd hHere fun j hj => by
      rw [← hEbda j (Nat.lt_trans hj hArea)]
      exact hBefore j hj]
  · obtain ⟨i, rfl⟩ := Nat.exists_eq_add_of_le (Nat.not_lt.mp hArea)
    have hNone := searchLoop_none hFirstEnd fun j hj => by
      rw [← hEbda j hj]
      exact hBefore j (by omega)
    rw [hBios] at hHere ⊢
    rw [hNone, searchLoop_found (show i < 8192 by omega) hSecondEnd hHere fun j hj => by
      rw [← hBios j]
      exact hBefore (64 + j) (by omega)]

end Search

-- ---------------------------------------------------------------------------
-- The whole image
-- ---------------------------------------------------------------------------

/-- The RSDP, the root table, and the tables it lists with their addresses. -/
structure Firmware where
  rsdp   : RsdpImage
  root   : RootTable
  tables : List (UInt64 × Table)
  lists  : root.contents.pointers = tables.map Prod.fst

/-- The image holds the firmware's tables, with the RSDP at the `n`-th candidate and none
before it. No address wraps when the offset is added, and none becomes null. -/
structure Firmware.Placed (fw : Firmware) (image : Memory) (off : UInt64) (n : Nat) : Prop where
  candidate_lt : n < 64 + 8192
  first        : ∀ j < n, isRsdp (image.drop (candidate j)) = false
  rsdp         : image.Holds (candidate n) fw.rsdp.bytes
  root         : image.Holds fw.rsdp.tableAddress.toNat fw.root.bytes
  tables       : ∀ t ∈ fw.tables, image.Holds t.1.toNat t.2.bytes
  areaFits     : 0x100000 + off.toNat < 2 ^ 64
  rootFits     : fw.rsdp.tableAddress.toNat + off.toNat < 2 ^ 64
  tablesFit    : ∀ t ∈ fw.tables, t.1.toNat + off.toNat < 2 ^ 64
  notNull      : ∀ t ∈ fw.tables, (t.1 + off).toNat ≠ 0

section Whole

variable {fw : Firmware} {image : Memory} {off : UInt64} {n : Nat}

theorem holds_directMap {p : UInt64} {bs : List UInt8} (hFits : p.toNat + off.toNat < 2 ^ 64)
    (h : image.Holds p.toNat bs) : (directMap image off).Holds (p + off).toNat bs := by
  have hDrop := (Memory.holds_drop image p.toNat 0 bs).mpr h
  rw [← directMap_drop image hFits] at hDrop
  exact (Memory.holds_drop ..).mp hDrop

/-- The tables are recorded one after the other. -/
theorem Firmware.Placed.foldl_eq (h : fw.Placed image off n) (s : State δ) :
    (fw.tables.map Prod.fst).foldl (fun s p => printTableInfo (directMap image off) p off s) s =
      fw.tables.foldl (fun s t => t.2.record image t.1 s) s := by
  rw [List.foldl_map]
  apply List.foldl_ext
  intro s t ht
  exact Table.printTableInfo_eq (h.notNull t ht)
    (holds_directMap (h.tablesFit t ht) (h.tables t ht)) (directMap_drop image (h.tablesFit t ht)) s

/-- The parser goes from the RSDP to the root table and from there to each table. -/
theorem Firmware.Placed.initWithOffset_eq (h : fw.Placed image off n) (s : State δ) :
    initWithOffset (directMap image off) off s =
      fw.tables.foldl (fun s t => t.2.record image t.1 s) s := by
  obtain ⟨hIs, hAddress⟩ :=
    RsdpImage.held ((Memory.holds_drop image (candidate n) 0 _).mpr h.rsdp)
  have hFind := findRsdp_placed h.candidate_lt h.areaFits hIs h.first
  have hPtr : (UInt64.ofNat (candidate n + off.toNat)).toNat = candidate n + off.toNat := by
    have hLt := h.candidate_lt
    have hArea := h.areaFits
    rw [UInt64.toNat_ofNat', Nat.mod_eq_of_lt]
    rw [candidate]
    split_ifs <;> omega
  have hRoot : SdtHeld (image.drop fw.rsdp.tableAddress.toNat) fw.root.contents.signature
      fw.root.contents.body :=
    fw.root.sdt.held ((Memory.holds_drop image _ 0 _).mpr h.root)
  have hDrop : (directMap image off).drop (fw.rsdp.tableAddress + off).toNat =
      image.drop fw.rsdp.tableAddress.toNat := directMap_drop image h.rootFits
  have hSig : fw.root.contents.signature = rsdtSignature ∨
      fw.root.contents.signature = xsdtSignature := by
    cases fw.root.contents with
    | rsdt => exact .inl rfl
    | xsdt => exact .inr rfl
  simp only [initWithOffset, hFind, hPtr, directMap_drop_add]
  rw [parseRsdtXsdt_eq_foldl, hAddress, hDrop, listedTables_encode hRoot, fw.lists, h.foldl_eq]
  · rw [hAddress, hDrop]
    exact hRoot.checksum
  · rw [hAddress, hDrop, hRoot.signature]
    exact hSig
  · rw [hAddress, hDrop, hRoot.length]
    exact Nat.le_add_right 36 _

/-- **The image is parsed into what it says.** Wherever the tables lie, the parser leaves
the state that recording their contents one after the other leaves, in the order of the
root table; in particular the devices are registered and the three lists grow in that
order. Only what an HPET table comes to is not up to its contents alone. -/
theorem initWithOffset_decodes (h : fw.Placed image off n) (s : State δ) :
    initWithOffset (directMap image off) off s =
        fw.tables.foldl (fun s t => t.2.record image t.1 s) s ∧
      Appends s (initWithOffset (directMap image off) off s)
        (Found.flat (fun t => t.2.found image t.1) fw.tables) := by
  have hEq := h.initWithOffset_eq s
  refine ⟨hEq, ?_⟩
  rw [hEq]
  exact Appends.foldl (fun s t => t.2.record_appends image t.1 s) fw.tables s

end Whole

-- ---------------------------------------------------------------------------
-- A small machine
-- ---------------------------------------------------------------------------

def plainFields (checksum : UInt8) : SdtFields :=
  ⟨1, checksum, .replicate 6 0, .replicate 8 0, 0, 0, 0⟩

/-- An IOAPIC, and the override of the timer interrupt. -/
def smallMadt : Table where
  contents := .madt 0xFEE00000 1
    [⟨.ioApic ⟨2, 0xFEC00000, 0⟩ 0 [], by decide⟩, ⟨.iso ⟨0, 0, 2, 5⟩ [], by decide⟩]
  sdt := ⟨plainFields 225, by decide, by decide, by decide +kernel⟩

/-- Buses 0 to 127 at 0xB0000000. -/
def smallMcfg : Table where
  contents := .mcfg (.replicate 8 0) [⟨⟨0xB0000000, 0, 0, 127⟩, .replicate 4 0⟩] [] (by decide)
  sdt := ⟨plainFields 119, by decide, by decide, by decide +kernel⟩

/-- The timer block at 0xFED00000, with a minimum tick of 0x37EE. -/
def smallHpet : Table where
  contents := .hpet 0x8086A201 0 64 0 0 0xFED00000 0 0x37EE 0
  sdt := ⟨plainFields 186, by decide, by decide, by decide +kernel⟩

def smallFirmware : Firmware where
  rsdp := ⟨223, .replicate 6 0, 0, .later 2 (by decide) 36 0x7000 0 (.replicate 3 0), by decide⟩
  root := ⟨.xsdt [0x7100, 0x7200, 0x7300] [] (by decide),
    ⟨plainFields 42, by decide, by decide, by decide +kernel⟩⟩
  tables := [(0x7100, smallMadt), (0x7200, smallMcfg), (0x7300, smallHpet)]
  lists := rfl

/-- The RSDP is the third candidate. -/
def smallImage : Memory := fun a =>
  if a ≥ 0x9FC20 then smallFirmware.rsdp.bytes.getD (a - 0x9FC20) 0
  else if a ≥ 0x7300 then smallHpet.bytes.getD (a - 0x7300) 0
  else if a ≥ 0x7200 then smallMcfg.bytes.getD (a - 0x7200) 0
  else if a ≥ 0x7100 then smallMadt.bytes.getD (a - 0x7100) 0
  else smallFirmware.root.bytes.getD (a - 0x7000) 0

theorem mem_smallFirmware {t : UInt64 × Table} (h : t ∈ smallFirmware.tables) :
    t = (0x7100, smallMadt) ∨ t = (0x7200, smallMcfg) ∨ t = (0x7300, smallHpet) := by
  simpa [smallFirmware] using h

theorem smallFirmware_placed : smallFirmware.Placed smallImage 0xFFFF800000000000 2 where
  candidate_lt := by decide
  first := by decide +kernel
  rsdp := by decide +kernel
  root := by decide +kernel
  tables := by
    intro t ht
    rcases mem_smallFirmware ht with rfl | rfl | rfl <;> decide +kernel
  areaFits := by decide
  rootFits := by decide
  tablesFit := by
    intro t ht
    rcases mem_smallFirmware ht with rfl | rfl | rfl <;> decide
  notNull := by
    intro t ht
    rcases mem_smallFirmware ht with rfl | rfl | rfl <;> decide

/-- The timer block is recorded at its tick. -/
theorem initWithOffset_decodes_smallImage :
    smallFirmware.Placed smallImage 0xFFFF800000000000 2 ∧
    let s := initWithOffset (directMap smallImage 0xFFFF800000000000) 0xFFFF800000000000 emptyState
    s.ioapics = [⟨2, 0xFEC00000, 0⟩] ∧ s.isos = [⟨0, 0, 2, 5⟩] ∧
      getMcfgAllocs s = [⟨0xB0000000, 0, 0, 127⟩] ∧ s.madtLocalApicAddr = 0xFEE00000 ∧
      s.hpetBase = some 0x37EE0000 := by
  refine ⟨smallFirmware_placed, ?_⟩
  obtain ⟨hEq, hAppends⟩ := initWithOffset_decodes smallFirmware_placed emptyState
  intro s
  refine ⟨hAppends.ioapics, hAppends.isos, congrArg (List.map _) hAppends.allocs, ?_, ?_⟩
  · rw [show s = _ from hEq]
    decide +kernel
  · rw [show s = _ from hEq]
    decide +kernel

end Neutrix.Acpi
