import Neutrix.Devices.Pci
import Neutrix.Hal.Ioapic
import Neutrix.Lib.ByteMemory

/-!
# Neutrix — the ACPI table parser

Model of `src/devices/acpi/acpi.rs`: the search for the RSDP, the walk over
the RSDT or XSDT, and the parsers of the tables the kernel knows. The
statics are fields of `State`.

A reference to a packed structure is the memory from its address on
(`Memory.drop`), fields are read at their offsets. Pointers are byte
addresses; the sums the source writes on `u64` wrap. The two waiting loops
of `enable_acpi` only read, so the model keeps the port writes. Log lines
are left out.
-/

namespace Neutrix.Acpi

open Neutrix.Lib
open Neutrix.Ioapic (IoApicInfo IsoInfo)

-- ---------------------------------------------------------------------------
-- Structures
-- ---------------------------------------------------------------------------

/-- An allocation record of the MCFG table with its reserved bytes; the PCI scan
uses the other fields. -/
structure McfgAllocation extends Pci.McfgAllocation where
  reserved : Vector UInt8 4
deriving DecidableEq, Repr

def ascii (cs : List Char) : List UInt8 := cs.map fun c => c.val.toUInt8

/-- The wrapping sum of the bytes is zero. -/
def sumsToZero (bytes : List UInt8) : Bool := bytes.foldl (· + ·) 0 = 0

namespace Rsdp

def isValid (rsdp : Memory) : Bool :=
  rsdp.bytes 8 = ascii ['R', 'S', 'D', ' ', 'P', 'T', 'R', ' ']

def checksumValid (rsdp : Memory) : Bool := sumsToZero (rsdp.bytes 20)

def revision (rsdp : Memory) : UInt8 := rsdp 15

/-- The RSDT of ACPI 1.0, the XSDT from 2.0 on. -/
def tableAddress (rsdp : Memory) : UInt64 :=
  if revision rsdp ≥ 2 then rsdp.read64 24 else (rsdp.read32 16).toUInt64

end Rsdp

/-- `size_of::<AcpiTableHeader>()`. -/
def headerSize : Nat := 36

namespace AcpiTableHeader

def signature (header : Memory) : List UInt8 := header.bytes 4

def length (header : Memory) : UInt32 := header.read32 4

def checksumValid (header : Memory) : Bool := sumsToZero (header.bytes (length header).toNat)

def signatureStr (header : Memory) : String :=
  (String.fromUTF8? ⟨(signature header).toArray⟩).getD "INVALID"

end AcpiTableHeader

/-- `Rsdt::entry_count` and `Xsdt::entry_count`; a length below the header's wraps. -/
def entryCount (root : Memory) (width : UInt64) : Nat :=
  (((AcpiTableHeader.length root).toUInt64 - 36) / width).toNat

def Rsdt.tableAddress (rsdt : Memory) (index : Nat) : Option UInt32 :=
  if index ≥ entryCount rsdt 4 then none else some (rsdt.read32 (headerSize + 4 * index))

def Xsdt.tableAddress (xsdt : Memory) (index : Nat) : Option UInt64 :=
  if index ≥ entryCount xsdt 8 then none else some (xsdt.read64 (headerSize + 8 * index))

-- ---------------------------------------------------------------------------
-- What the parser keeps
-- ---------------------------------------------------------------------------

/-- The statics of the module, the device manager, and the bytes written to ports
in order. -/
structure State (δ : Type*) where
  mgr                : DeviceManager δ
  ioapics            : List IoApicInfo
  isos               : List IsoInfo
  mcfgAllocs         : List McfgAllocation
  madtLocalApicAddr  : UInt64
  hpetBase           : Option UInt64
  hpetPeriodFs       : UInt64
  portWrites         : List (UInt16 × UInt8)

variable {δ : Type*}

def State.registerDevice (s : State δ) (info : DeviceInfo) : State δ :=
  { s with mgr := (s.mgr.registerDevice info).2 }

/-- The devices the parser registers have one memory-mapped resource. -/
def mmioDevice (deviceId : UInt16) (class_ : UInt8) (addr len : UInt64) (description : String) :
    DeviceInfo :=
  { vendorId := 0xffff, deviceId, class_, subclass := 0, progIf := 0
    resources := [⟨.memoryMapped, addr, len⟩], capabilities := [], description }

-- ---------------------------------------------------------------------------
-- FACP
-- ---------------------------------------------------------------------------

def enableAcpi (facp : Memory) (s : State δ) : State δ :=
  let smiCmd := facp.read32 48
  let acpiEnable := facp 52
  let acpiDisable := facp 53
  let disable := if smiCmd ≠ 0 ∧ acpiDisable ≠ 0 then [(smiCmd.toUInt16, acpiDisable)] else []
  let enable := if smiCmd ≠ 0 ∧ acpiEnable ≠ 0 then [(smiCmd.toUInt16, acpiEnable)] else []
  { s with portWrites := s.portWrites ++ disable ++ enable }

def parseFacp (mem : Memory) (tablePtr : Nat) (s : State δ) : State δ :=
  enableAcpi (mem.drop tablePtr) s

-- ---------------------------------------------------------------------------
-- MADT
-- ---------------------------------------------------------------------------

def ioApicOf (entry : Memory) : IoApicInfo :=
  { id := entry 2, addr := entry.read32 4, gsiBase := entry.read32 8 }

def isoOf (entry : Memory) : IsoInfo :=
  { bus := entry 2, source := entry 3, gsi := entry.read32 4, flags := entry.read16 8 }

def ioApicDevice (ioapic : IoApicInfo) : DeviceInfo :=
  mmioDevice ioapic.id.toUInt16 0x08 ioapic.addr.toUInt64 0x100
    ("ACPI IOAPIC id=" ++ toString ioapic.id.toNat ++ " gsi_base=" ++ toString ioapic.gsiBase.toNat)

/-- The `match` on the entry type. -/
def madtEntry (entry : Memory) (entryLen : Nat) (s : State δ) : State δ :=
  if entry 0 = 1 then
    if entryLen ≥ 12 then
      State.registerDevice { s with ioapics := s.ioapics ++ [ioApicOf entry] }
        (ioApicDevice (ioApicOf entry))
    else s
  else if entry 0 = 2 then
    if entryLen ≥ 10 then { s with isos := s.isos ++ [isoOf entry] } else s
  else s

/-- The entry loop. An entry is at least one byte long, so `table_len` rounds
suffice. -/
def madtLoop (mem : Memory) (tablePtr tableLen : Nat) : Nat → Nat → State δ → State δ
  | 0, _, s => s
  | fuel + 1, offset, s =>
    if offset < tableLen then
      let entryPtr := tablePtr + offset
      if entryPtr = 0 then s
      else
        let entry := mem.drop entryPtr
        let entryLen := (entry 1).toNat
        if entryLen = 0 then s -- malformed
        else madtLoop mem tablePtr tableLen fuel (offset + entryLen) (madtEntry entry entryLen s)
    else s

def parseMadt (mem : Memory) (tablePtr : Nat) (s : State δ) : State δ :=
  if tablePtr = 0 then s
  else
    let madt := mem.drop tablePtr
    if !AcpiTableHeader.checksumValid madt then s
    else
      let tableLen := (AcpiTableHeader.length madt).toNat
      madtLoop mem tablePtr tableLen tableLen 44
        { s with madtLocalApicAddr := (madt.read32 36).toUInt64 }

-- ---------------------------------------------------------------------------
-- HPET
-- ---------------------------------------------------------------------------

def hpetDevice (addr : UInt64) : DeviceInfo :=
  mmioDevice 0xffff 0x04 addr 0x1000 ("ACPI HPET @ 0x" ++ Pci.hex 1 addr.toNat)

def parseHpet (mem : Memory) (tablePtr : Nat) (s : State δ) : State δ :=
  if tablePtr = 0 then s
  else
    let hpet := mem.drop tablePtr
    if !AcpiTableHeader.checksumValid hpet then s
    else
      -- the address field of the generic address structure
      let addr := hpet.read64 51
      if addr ≠ 0 then
        State.registerDevice
          { s with hpetBase := some addr, hpetPeriodFs := (hpet.read32 63).toUInt64 }
          (hpetDevice addr)
      else s

-- ---------------------------------------------------------------------------
-- MCFG
-- ---------------------------------------------------------------------------

def mcfgAllocationOf (alloc : Memory) : McfgAllocation :=
  { baseAddress := alloc.read64 0, pciSegmentGroup := alloc.read16 8
    startBus := alloc 10, endBus := alloc 11
    reserved := #v[alloc 12, alloc 13, alloc 14, alloc 15] }

def mcfgDevice (alloc : McfgAllocation) : DeviceInfo :=
  mmioDevice alloc.pciSegmentGroup 0x06 alloc.baseAddress 0
    ("ACPI MCFG ECAM seg=" ++ toString alloc.pciSegmentGroup.toNat
      ++ " buses=" ++ toString alloc.startBus.toNat ++ ".." ++ toString alloc.endBus.toNat
      ++ " @ 0x" ++ Pci.hex 1 alloc.baseAddress.toNat)

def mcfgEntry (alloc : McfgAllocation) (s : State δ) : State δ :=
  let s := s.registerDevice (mcfgDevice alloc)
  { s with mcfgAllocs := s.mcfgAllocs ++ [alloc] }

/-- The record loop; `total_len` rounds are more than it takes. -/
def mcfgLoop (mem : Memory) (tablePtr totalLen : Nat) : Nat → Nat → State δ → State δ
  | 0, _, s => s
  | fuel + 1, offset, s =>
    if offset + 16 ≤ totalLen then
      let alloc := mcfgAllocationOf (mem.drop (tablePtr + offset))
      mcfgLoop mem tablePtr totalLen fuel (offset + 16) (mcfgEntry alloc s)
    else s

/-- Unlike its siblings it does not check the checksum again. -/
def parseMcfg (mem : Memory) (tablePtr : Nat) (s : State δ) : State δ :=
  if tablePtr = 0 then s
  else
    let totalLen := (AcpiTableHeader.length (mem.drop tablePtr)).toNat
    mcfgLoop mem tablePtr totalLen totalLen 44 s

-- ---------------------------------------------------------------------------
-- The walk
-- ---------------------------------------------------------------------------

def facpSignature : List UInt8 := ascii ['F', 'A', 'C', 'P']
def apicSignature : List UInt8 := ascii ['A', 'P', 'I', 'C']
def hpetSignature : List UInt8 := ascii ['H', 'P', 'E', 'T']
def mcfgSignature : List UInt8 := ascii ['M', 'C', 'F', 'G']
def rsdtSignature : List UInt8 := ascii ['R', 'S', 'D', 'T']
def xsdtSignature : List UInt8 := ascii ['X', 'S', 'D', 'T']

def parseSpecificTable (mem : Memory) (signature : List UInt8) (tablePhysAddr physOffset : UInt64)
    (s : State δ) : State δ :=
  let tablePtr := (tablePhysAddr + physOffset).toNat
  if signature = facpSignature then parseFacp mem tablePtr s
  else if signature = apicSignature then parseMadt mem tablePtr s
  else if signature = hpetSignature then parseHpet mem tablePtr s
  else if signature = mcfgSignature then parseMcfg mem tablePtr s
  else s

def tableDevice (header : Memory) (tablePhysAddr : UInt64) : DeviceInfo :=
  mmioDevice 0xffff 0xFF tablePhysAddr (AcpiTableHeader.length header).toUInt64
    ("ACPI table: " ++ AcpiTableHeader.signatureStr header)

def printTableInfo (mem : Memory) (tablePhysAddr physOffset : UInt64) (s : State δ) : State δ :=
  let tableVirtAddr := (tablePhysAddr + physOffset).toNat
  if tableVirtAddr = 0 then s
  else
    let header := mem.drop tableVirtAddr
    if AcpiTableHeader.checksumValid header then
      parseSpecificTable mem (AcpiTableHeader.signature header) tablePhysAddr physOffset
        (s.registerDevice (tableDevice header tablePhysAddr))
    else s

/-- `if let Some(table_phys_addr) = ..`. -/
def visitTable (mem : Memory) (physOffset : UInt64) (tableAddress : Option UInt64) (s : State δ) :
    State δ :=
  match tableAddress with
  | some tablePhysAddr => printTableInfo mem tablePhysAddr physOffset s
  | none => s

def parseRsdtXsdt (mem : Memory) (rsdp : Memory) (physOffset : UInt64) (s : State δ) : State δ :=
  let tableAddr := Rsdp.tableAddress rsdp
  let header := mem.drop (tableAddr + physOffset).toNat
  if !AcpiTableHeader.checksumValid header then s
  else if AcpiTableHeader.signature header = rsdtSignature then
    (List.range (entryCount header 4)).foldl (fun s i =>
      visitTable mem physOffset ((Rsdt.tableAddress header i).map UInt32.toUInt64) s) s
  else if AcpiTableHeader.signature header = xsdtSignature then
    (List.range (entryCount header 8)).foldl (fun s i =>
      visitTable mem physOffset (Xsdt.tableAddress header i) s) s
  else s

-- ---------------------------------------------------------------------------
-- Finding the RSDP
-- ---------------------------------------------------------------------------

/-- Every 16 bytes from `ptr` on, for `fuel` candidates at most. -/
def searchLoop (mem : Memory) (endPtr : UInt64) : Nat → UInt64 → Option UInt64
  | 0, _ => none
  | fuel + 1, ptr =>
    if ptr < endPtr then
      let rsdp := mem.drop ptr.toNat
      if Rsdp.isValid rsdp && Rsdp.checksumValid rsdp then some ptr
      else searchLoop mem endPtr fuel (ptr + 16)
    else none

/-- `start` and `end` are 16 bytes times the number of candidates apart. -/
def searchRsdpInRange (mem : Memory) (start stop physOffset : UInt64) : Option UInt64 :=
  searchLoop mem (stop + physOffset) ((stop - start) / 16).toNat (start + physOffset)

/-- The extended BIOS data area first, then the BIOS area. -/
def findRsdp (mem : Memory) (physOffset : UInt64) : Option UInt64 :=
  match searchRsdpInRange mem 0x9FC00 0xA0000 physOffset with
  | some ptr => some ptr
  | none => searchRsdpInRange mem 0xE0000 0x100000 physOffset

def initWithOffset (mem : Memory) (physOffset : UInt64) (s : State δ) : State δ :=
  match findRsdp mem physOffset with
  | some ptr => parseRsdtXsdt mem (mem.drop ptr.toNat) physOffset s
  | none => s

/-- What the PCI scan is given. -/
def getMcfgAllocs (s : State δ) : List Pci.McfgAllocation :=
  s.mcfgAllocs.map McfgAllocation.toMcfgAllocation

end Neutrix.Acpi
