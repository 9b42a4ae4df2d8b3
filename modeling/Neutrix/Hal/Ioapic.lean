import Mathlib.Data.List.Nodup
import Neutrix.Lib.WindowFile

/-!
# Neutrix — the IOAPIC driver

Model of `src/hal/ioapic.rs`. The statics become fields of `Hal`: what
ACPI found (`IOAPICS`, `ISOS`), the driver's `IOAPIC_TABLE`, and the
memory-mapped registers of all IOAPICs, keyed by virtual base address. The
source's integer types are kept (`UInt8`, `UInt32`, `UInt64`), so sums and
casts wrap and truncate as they do in the release image. Log lines are
left out, except that the one in `init_from_acpi` reads the version
register of every IOAPIC.
-/

namespace Neutrix.Ioapic

open Neutrix.Lib

/-- `devices::acpi::IoApicInfo`: a type-1 MADT entry. -/
structure IoApicInfo where
  id      : UInt8
  addr    : UInt32
  gsiBase : UInt32
deriving DecidableEq, Repr

/-- `devices::acpi::IsoInfo`: an Interrupt Source Override. -/
structure IsoInfo where
  bus    : UInt8
  source : UInt8
  gsi    : UInt32
  flags  : UInt16
deriving DecidableEq, Repr

/-- A discovered IOAPIC. -/
structure IoApic where
  id           : UInt8
  physAddr     : UInt32
  gsiBase      : UInt32
  redirEntries : UInt32
deriving DecidableEq, Repr

structure Hal where
  ioapics     : List IoApicInfo
  isos        : List IsoInfo
  ioapicTable : List IoApic
  mmio        : WindowBus

/-- `(phys_addr as u64 + phys_offset.as_u64()) as *mut u8`. -/
def virtAddr (physAddr : UInt32) (physOffset : UInt64) : UInt64 :=
  physAddr.toUInt64 + physOffset

-- ---------------------------------------------------------------------------
-- Register access
-- ---------------------------------------------------------------------------

def readReg (mmio : WindowBus) (base : UInt64) (reg : UInt8) : UInt32 × WindowBus :=
  mmio.read base reg.toUInt32

def writeReg (mmio : WindowBus) (base : UInt64) (reg : UInt8) (val : UInt32) : WindowBus :=
  mmio.write base reg.toUInt32 val

/-- `IoApic::read_version`. -/
def IoApic.readVersion (io : IoApic) (mmio : WindowBus) (physOffset : UInt64) :
    Option UInt8 × WindowBus :=
  let virt := virtAddr io.physAddr physOffset
  if virt = 0 then (none, mmio)
  else
    let (ver, mmio) := readReg mmio virt 1
    (some (ver &&& 0xFF).toUInt8, mmio)

/-- `reg_low = 0x10 + (local as usize * 2) as u8`. -/
def regLow (loc : UInt32) : UInt8 := 0x10 + UInt8.ofNat (loc.toNat * 2)

/-- `reg_high = reg_low + 1`. -/
def regHigh (loc : UInt32) : UInt8 := regLow loc + 1

-- ---------------------------------------------------------------------------
-- Discovery
-- ---------------------------------------------------------------------------

/-- One round of the discovery loop: size the IOAPIC, push it to the table. -/
def discover (physOffset : UInt64) (hal : Hal) (info : IoApicInfo) : Hal :=
  let virt := virtAddr info.addr physOffset
  if virt = 0 then
    { hal with ioapicTable := hal.ioapicTable ++ [⟨info.id, info.addr, info.gsiBase, 24⟩] }
  else
    let (reg, mmio) := readReg hal.mmio virt 1
    let maxRedir := (reg >>> 16) &&& 0xFF
    { hal with
      ioapicTable := hal.ioapicTable ++ [⟨info.id, info.addr, info.gsiBase, maxRedir + 1⟩]
      mmio := mmio }

/-- One round of the log loop: it reads the version register. -/
def logVersion (physOffset : UInt64) (hal : Hal) (io : IoApic) : Hal :=
  { hal with mmio := (io.readVersion hal.mmio physOffset).2 }

def initFromAcpi (physOffset : UInt64) (hal : Hal) : Hal :=
  if hal.ioapics.isEmpty then hal
  else
    let hal := hal.ioapics.foldl (discover physOffset) hal
    hal.ioapicTable.foldl (logVersion physOffset) hal

/-- The search loop of `find_ioapic_for_gsi` from table index `i` on. -/
def findFrom (gsi : UInt32) : Nat → List IoApic → Option (Nat × UInt32)
  | _, [] => none
  | i, io :: rest =>
    let start := io.gsiBase
    let stop := start + io.redirEntries
    if gsi ≥ start ∧ gsi < stop then some (i, gsi - start) else findFrom gsi (i + 1) rest

def findIoapicForGsi (hal : Hal) (gsi : UInt32) : Option (Nat × UInt32) :=
  findFrom gsi 0 hal.ioapicTable

-- ---------------------------------------------------------------------------
-- Redirection entries
-- ---------------------------------------------------------------------------

def writeRedirectionEntryForGsi (physOffset : UInt64) (hal : Hal) (gsi low high : UInt32) :
    Bool × Hal :=
  match findIoapicForGsi hal gsi with
  | none => (false, hal)
  | some (idx, loc) =>
    match hal.ioapicTable[idx]? with
    | none => (false, hal)
    | some io =>
      let virt := virtAddr io.physAddr physOffset
      if virt = 0 then (false, hal)
      else
        let mmio := writeReg hal.mmio virt (regHigh loc) high
        let mmio := writeReg mmio virt (regLow loc) low
        (true, { hal with mmio := mmio })

/-- Mask bit of the low dword. -/
def maskBit : UInt32 := (1 : UInt32) <<< 16

/-- `(0x20u32.wrapping_add(irq) & 0xFF) | (1 << 16)`: fixed, physical, edge,
active high, masked. -/
def maskedEntry (irq : UInt32) : UInt32 := ((0x20 + irq) &&& 0xFF) ||| maskBit

/-- One round of `apply_isos_from_acpi`. -/
def applyIso (physOffset : UInt64) (hal : Hal) (iso : IsoInfo) : Hal :=
  match findIoapicForGsi hal iso.gsi with
  | none => hal
  | some _ =>
    (writeRedirectionEntryForGsi physOffset hal iso.gsi (maskedEntry iso.source.toUInt32) 0).2

def applyIsosFromAcpi (physOffset : UInt64) (hal : Hal) : Hal :=
  if hal.isos.isEmpty then hal else hal.isos.foldl (applyIso physOffset) hal

/-- `0u32..16u32`. -/
def legacyIrqs : List UInt32 := (List.range 16).map UInt32.ofNat

def applyLegacyIsaFallback (physOffset : UInt64) (hal : Hal) : Hal :=
  legacyIrqs.foldl
    (fun hal irq => (writeRedirectionEntryForGsi physOffset hal irq (maskedEntry irq) 0).2) hal

/-- The body shared by both loops of `enable_isos_for_local`: aim the entry of
`gsi` at the local APIC and clear its mask bit. -/
def enableGsi (physOffset : UInt64) (localApicId : UInt8) (hal : Hal) (gsi : UInt32) : Hal :=
  match findIoapicForGsi hal gsi with
  | none => hal
  | some (idx, loc) =>
    match hal.ioapicTable[idx]? with
    | none => hal
    | some io =>
      let virt := virtAddr io.physAddr physOffset
      if virt = 0 then hal
      else
        let (_, mmio) := readReg hal.mmio virt (regHigh loc)
        let (low, mmio) := readReg mmio virt (regLow loc)
        let high := localApicId.toUInt32 <<< 24
        let low := low &&& ~~~ maskBit
        let mmio := writeReg mmio virt (regHigh loc) high
        let mmio := writeReg mmio virt (regLow loc) low
        { hal with mmio := mmio }

def enableIsosForLocal (physOffset : UInt64) (localApicId : UInt8) (hal : Hal) : Hal :=
  if hal.isos.isEmpty then hal
  else
    let hal := hal.isos.foldl (fun hal iso => enableGsi physOffset localApicId hal iso.gsi) hal
    legacyIrqs.foldl (enableGsi physOffset localApicId) hal

def unmaskGsi (physOffset : UInt64) (hal : Hal) (gsi : UInt32) (vector localApicId : UInt8) :
    Bool × Hal :=
  match findIoapicForGsi hal gsi with
  | none => (false, hal)
  | some (idx, loc) =>
    match hal.ioapicTable[idx]? with
    | none => (false, hal)
    | some io =>
      let virt := virtAddr io.physAddr physOffset
      if virt = 0 then (false, hal)
      else
        let (_, mmio) := readReg hal.mmio virt (regHigh loc)
        let (low, mmio) := readReg mmio virt (regLow loc)
        let low := (low &&& ~~~ 0xFF) ||| (vector.toUInt32 &&& 0xFF)
        let high := localApicId.toUInt32 <<< 24
        let low := low &&& ~~~ maskBit
        let mmio := writeReg mmio virt (regHigh loc) high
        let mmio := writeReg mmio virt (regLow loc) low
        (true, { hal with mmio := mmio })

def readRedirectionEntry (physOffset : UInt64) (hal : Hal) (gsi : UInt32) :
    Option (UInt32 × UInt32) × Hal :=
  match findIoapicForGsi hal gsi with
  | none => (none, hal)
  | some (idx, loc) =>
    match hal.ioapicTable[idx]? with
    | none => (none, hal)
    | some io =>
      let virt := virtAddr io.physAddr physOffset
      if virt = 0 then (none, hal)
      else
        let (low, mmio) := readReg hal.mmio virt (regLow loc)
        let (high, mmio) := readReg mmio virt (regHigh loc)
        (some (low, high), { hal with mmio := mmio })

/-- The IOAPIC part of `init_hardware`. -/
def initHardware (physOffset : UInt64) (hal : Hal) : Hal :=
  let hal := initFromAcpi physOffset hal
  let hal := applyIsosFromAcpi physOffset hal
  applyLegacyIsaFallback physOffset hal

end Neutrix.Ioapic
