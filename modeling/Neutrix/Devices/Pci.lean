import Neutrix.DriverFramework.Manager
import Neutrix.Lib.MaskedReg

/-!
# Neutrix — the PCI enumerator

Model of `src/devices/pci.rs`. A `Machine` is what the scan talks to: the
configuration spaces of all functions, the address decoding of the ECAM
windows, and device memory. Configuration spaces are any type `σ` with
32-bit reads and writes (`ConfigAccess`); the standard one is a bank of
registers with hard-wired bits. An absent function reads as all ones.

ECAM pointers are `physical_memory_offset + physical address`, so the
machine subtracts the offset before it decodes. Ports 0xCF8/0xCFC reach
segment group 0 only. Outside the ECAM windows nobody answers and loads
read all ones, which the scan takes for an absent function. The log lines
are left out.
-/

namespace Neutrix.Pci

open Neutrix.Lib

-- ---------------------------------------------------------------------------
-- The machine
-- ---------------------------------------------------------------------------

/-- Configuration space of one function; offsets are bytes, accesses dwords. -/
class ConfigAccess (σ : Type*) where
  read  : σ → UInt8 → UInt32
  write : σ → UInt8 → UInt32 → σ

/-- `((off & 0xFC) / 4) as usize`. -/
def dwordIndex (off : UInt8) : Nat := ((off &&& 0xFC) / 4).toNat

instance : ConfigAccess RegBank where
  read b off    := b.read (dwordIndex off)
  write b off v := b.write (dwordIndex off) v

structure FuncAddr where
  segment : UInt16
  bus     : UInt8
  slot    : UInt8
  func    : UInt8
deriving DecidableEq, Repr

structure Machine (σ : Type*) where
  funcs  : FuncAddr → σ
  -- function whose configuration space starts at a physical address
  ecam   : UInt64 → Option FuncAddr
  memory : UInt64 → UInt32

/-- `devices::acpi::McfgAllocation`. -/
structure McfgAllocation where
  baseAddress     : UInt64
  pciSegmentGroup : UInt16
  startBus        : UInt8
  endBus          : UInt8
deriving DecidableEq, Repr

variable {σ δ : Type*} [ConfigAccess σ]

def Machine.setFunc (m : Machine σ) (a : FuncAddr) (cfg : σ) : Machine σ :=
  { m with funcs := fun a' => if a' = a then cfg else m.funcs a' }

-- ---------------------------------------------------------------------------
-- Configuration access
-- ---------------------------------------------------------------------------

/-- `base + (bus << 20) + (slot << 15) + (func << 12)`. -/
def cfgAddr (base : UInt64) (bus slot func : UInt8) : UInt64 :=
  base + (bus.toUInt64 <<< 20) + (slot.toUInt64 <<< 15) + (func.toUInt64 <<< 12)

/-- The function that answers loads and stores at pointer `phys`. -/
def Machine.ecamAt (m : Machine σ) (physOffset phys : UInt64) : Option FuncAddr :=
  m.ecam (phys - physOffset)

def pciConfigAddress (bus slot func offset : UInt8) : UInt32 :=
  (0x80000000 : UInt32)
    ||| (bus.toUInt32 <<< 16)
    ||| (slot.toUInt32 <<< 11)
    ||| (func.toUInt32 <<< 8)
    ||| (offset.toUInt32 &&& 0xfc)

/-- What port 0xCFC shows while port 0xCF8 holds `addr`: enable bit 31, bus
23..16, device 15..11, function 10..8, register 7..2. -/
def Machine.portRead (m : Machine σ) (addr : UInt32) : UInt32 :=
  if addr >>> 31 = 1 then
    ConfigAccess.read
      (m.funcs ⟨0, (addr >>> 16).toUInt8, ((addr >>> 11) &&& 0x1F).toUInt8,
        ((addr >>> 8) &&& 0x7).toUInt8⟩)
      (addr &&& 0xFC).toUInt8
  else 0xFFFFFFFF

def pciRead (m : Machine σ) (bus slot func offset : UInt8) : UInt32 :=
  m.portRead (pciConfigAddress bus slot func offset)

-- ---------------------------------------------------------------------------
-- Base address registers
-- ---------------------------------------------------------------------------

/-- The BAR loop; `ecam_read` and `ecam_write` act on the function's own space.
Every round advances `bar_index`, so six rounds suffice. -/
def barLoop : Nat → UInt8 → List Resource → σ → List Resource × σ
  | 0, _, resources, cfg => (resources, cfg)
  | fuel + 1, barIndex, resources, cfg =>
    if barIndex < 6 then
      let off := 0x10 + barIndex * 4
      let orig := ConfigAccess.read cfg off
      if orig = 0 ∨ orig = 0xFFFFFFFF then barLoop fuel (barIndex + 1) resources cfg
      else if orig &&& 0x1 = 0x1 then
        -- IO BAR
        let cfg := ConfigAccess.write cfg off 0xFFFFFFFF
        let mask := ConfigAccess.read cfg off
        let cfg := ConfigAccess.write cfg off orig
        let mask32 := mask &&& 0xFFFFFFFC
        let size := (~~~ mask32 + 1).toUInt64
        let addr := (orig &&& 0xFFFFFFFC).toUInt64
        barLoop fuel (barIndex + 1) (resources ++ [⟨.io, addr, size⟩]) cfg
      else if (orig >>> 1) &&& 0x3 = 0x2 then
        -- 64-bit BAR consumes this and the next
        let offHigh := 0x10 + (barIndex + 1) * 4
        let origHigh := ConfigAccess.read cfg offHigh
        let cfg := ConfigAccess.write cfg off 0xFFFFFFFF
        let cfg := ConfigAccess.write cfg offHigh 0xFFFFFFFF
        let maskLow := ConfigAccess.read cfg off
        let maskHigh := ConfigAccess.read cfg offHigh
        let cfg := ConfigAccess.write cfg off orig
        let cfg := ConfigAccess.write cfg offHigh origHigh
        let mask64 := (maskHigh.toUInt64 <<< 32) ||| maskLow.toUInt64
        let mask64Base := mask64 &&& ~~~ 0xF
        let size := ~~~ mask64Base + 1
        let addr := (origHigh.toUInt64 <<< 32) ||| (orig.toUInt64 &&& 0xFFFFFFF0)
        barLoop fuel (barIndex + 2) (resources ++ [⟨.memoryMapped, addr, size⟩]) cfg
      else
        -- 32-bit memory BAR
        let cfg := ConfigAccess.write cfg off 0xFFFFFFFF
        let mask := ConfigAccess.read cfg off
        let cfg := ConfigAccess.write cfg off orig
        let mask32 := mask &&& ~~~ 0xF
        let size := (~~~ mask32 + 1).toUInt64
        let addr := (orig &&& 0xFFFFFFF0).toUInt64
        barLoop fuel (barIndex + 1) (resources ++ [⟨.memoryMapped, addr, size⟩]) cfg
    else (resources, cfg)

def readBars (cfg : σ) : List Resource × σ := barLoop 6 0 [] cfg

/-- Interrupt line at offset 0x3C. -/
def interruptResource (intrDword : UInt32) : List Resource :=
  let irqLine := (intrDword &&& 0xFF).toUInt8
  if irqLine ≠ 0 ∧ irqLine ≠ 0xFF then [⟨.interrupt irqLine, 0, 0⟩] else []

-- ---------------------------------------------------------------------------
-- Capability list
-- ---------------------------------------------------------------------------

/-- The dword around `off`, shifted down to the byte at `off`:
`pci_read(.., off & 0xFC) >> ((off & 3) * 8)`. -/
def shifted (read : UInt8 → UInt32) (off : UInt8) : UInt32 :=
  read (off &&& 0xFC) >>> ((off &&& 3) * 8).toUInt32

/-- The MSI capability at `capPtr`. -/
def msiResource (read : UInt8 → UInt32) (capPtr : UInt8) : Resource :=
  let ctrl := (shifted read (capPtr + 2) &&& 0xFFFF).toUInt16
  let multipleMessageCapable := (ctrl >>> 1) &&& 0x7
  let vectors := (1 : UInt8) <<< multipleMessageCapable.toUInt8
  let addr64 := ctrl &&& ((1 : UInt16) <<< 7) ≠ 0
  let maskable := ctrl &&& ((1 : UInt16) <<< 8) ≠ 0
  let offAddr := capPtr + 4
  let msgAddrLow := shifted read offAddr
  let msgAddrHigh := if addr64 then shifted read (offAddr + 4) else 0
  -- message data follows the upper address half, if there is one
  let offData := if addr64 then offAddr + 8 else offAddr + 4
  let msgData := (shifted read offData &&& 0xFFFF).toUInt16
  let msgAddr :=
    if addr64 then (msgAddrHigh.toUInt64 <<< 32) ||| msgAddrLow.toUInt64 else msgAddrLow.toUInt64
  ⟨.msi vectors addr64 maskable msgAddr msgData, 0, 0⟩

/-- The MSI-X capability at `capPtr`. The table is probed through the `bir`-th
memory BAR recorded so far. -/
def msixResource (physOffset : UInt64) (memory : UInt64 → UInt32) (read : UInt8 → UInt32)
    (capPtr : UInt8) (resources : List Resource) : Resource :=
  let dword1 := shifted read (capPtr + 4)
  let bir := (dword1 &&& 0x7).toUInt8
  let tableOffset := dword1 &&& 0xFFFFFFF8
  let tableSize := (shifted read (capPtr + 2) &&& 0x7FF).toUInt16 + 1
  let mmioBars := resources.filter fun r => r.kind = .memoryMapped
  let (tablePresent, firstEntryMasked) :=
    if physOffset ≠ 0 then
      match mmioBars[bir.toNat]? with
      | some bar =>
        let tablePhys := bar.addr + tableOffset.toUInt64
        let virt := physOffset + tablePhys
        let vctrl := memory (virt + 12 - physOffset)
        (true, vctrl &&& 0x1 ≠ 0)
      | none => (false, false)
    else (false, false)
  ⟨.msix bir tableOffset tableSize tablePresent firstEntryMasked, 0, 0⟩

/-- Capabilities go to the capability list, MSI and MSI-X to the resources. -/
def decodeCapability (physOffset : UInt64) (memory : UInt64 → UInt32) (read : UInt8 → UInt32)
    (capPtr : UInt8) (acc : List Resource × List Capability) : List Resource × List Capability :=
  let (resources, capabilities) := acc
  let capDword := read (capPtr &&& 0xFC)
  match (capDword &&& 0xFF).toUInt8 with
  | 0x01 =>
    let pmCap := ((capDword >>> 16) &&& 0xFFFF).toUInt16
    let pmcsr := (shifted read (capPtr + 4) &&& 0xFFFF).toUInt16
    (resources, capabilities ++ [.powerManagement pmCap pmcsr])
  | 0x05 => (resources ++ [msiResource read capPtr], capabilities)
  | 0x10 =>
    (resources,
      capabilities ++ [.pciExpress (read (capPtr &&& 0xFC)) (read ((capPtr + 4) &&& 0xFC))])
  | 0x11 => (resources ++ [msixResource physOffset memory read capPtr resources], capabilities)
  | capId =>
    (resources,
      capabilities ++ [.other capId (read (capPtr &&& 0xFC)) (read ((capPtr + 4) &&& 0xFC))])

/-- The capability loop with `caps_searched` counted down from 48. -/
def capLoop (physOffset : UInt64) (memory : UInt64 → UInt32) (read : UInt8 → UInt32) :
    Nat → UInt8 → List Resource × List Capability → List Resource × List Capability
  | 0, _, acc => acc
  | left + 1, capPtr, acc =>
    if capPtr = 0 then acc
    else
      let nextPtr := ((read (capPtr &&& 0xFC) >>> 8) &&& 0xFF).toUInt8
      capLoop physOffset memory read left nextPtr
        (decodeCapability physOffset memory read capPtr acc)

/-- The capability list, if Status bit 4 says there is one. -/
def readCapabilities (physOffset : UInt64) (memory : UInt64 → UInt32) (read : UInt8 → UInt32)
    (resources : List Resource) : List Resource × List Capability :=
  let statusWord := (read 0x04 >>> 16) &&& 0xFFFF
  if statusWord &&& ((1 : UInt32) <<< 4) ≠ 0 then
    capLoop physOffset memory read 48 (read 0x34 &&& 0xFF).toUInt8 (resources, [])
  else (resources, [])

-- ---------------------------------------------------------------------------
-- One function
-- ---------------------------------------------------------------------------

/-- Lower-case hexadecimal, at least `width` digits. -/
def hex (width n : Nat) : String :=
  let digits := Nat.toDigits 16 n
  String.ofList (List.replicate (width - digits.length) '0' ++ digits)

def describe (bus slot func : UInt8) : String :=
  "PCI " ++ hex 2 bus.toNat ++ ":" ++ hex 2 slot.toNat ++ "." ++ hex 1 func.toNat

/-- The record built for a present function out of its header dwords, its BARs,
its interrupt dword and its capability list, which is read through `read`. -/
def functionInfo (physOffset : UInt64) (memory : UInt64 → UInt32) (dword classDword : UInt32)
    (bars : List Resource) (intrDword : UInt32) (read : UInt8 → UInt32)
    (bus slot func : UInt8) : DeviceInfo :=
  let resources := bars ++ interruptResource intrDword
  let (resources, capabilities) := readCapabilities physOffset memory read resources
  { vendorId := (dword &&& 0xFFFF).toUInt16
    deviceId := ((dword >>> 16) &&& 0xFFFF).toUInt16
    class_ := ((classDword >>> 24) &&& 0xFF).toUInt8
    subclass := ((classDword >>> 16) &&& 0xFF).toUInt8
    progIf := ((classDword >>> 8) &&& 0xFF).toUInt8
    resources, capabilities
    description := describe bus slot func }

/-- `vendor == 0xFFFF || vendor == 0x0000`. -/
def absent (dword : UInt32) : Bool :=
  let vendor := (dword &&& 0xFFFF).toUInt16
  vendor = 0xFFFF || vendor = 0

/-- `max_funcs`, from the header type at offset 0x0E. -/
def maxFuncs (headerDword : UInt32) : Nat :=
  let headerType := ((headerDword >>> 16) &&& 0xFF).toUInt8
  if headerType &&& 0x80 ≠ 0 then 8 else 1

/-- `0u8..n`. -/
def upTo (n : Nat) : List UInt8 := (List.range n).map UInt8.ofNat

/-- `start..=end`. -/
def busRange (start stop : UInt8) : List UInt8 :=
  (List.range' start.toNat (stop.toNat + 1 - start.toNat)).map UInt8.ofNat

-- ---------------------------------------------------------------------------
-- The scan
-- ---------------------------------------------------------------------------

def scanFunction (physOffset : UInt64) (alloc : McfgAllocation) (bus slot : UInt8)
    (s : Machine σ × DeviceManager δ) (func : UInt8) : Machine σ × DeviceManager δ :=
  let physF := physOffset + cfgAddr alloc.baseAddress bus slot func
  match s.1.ecamAt physOffset physF with
  | none => s -- all ones
  | some a =>
    let cfg := s.1.funcs a
    let dword := ConfigAccess.read cfg 0x00
    if absent dword then s
    else
      let classDword := ConfigAccess.read cfg 0x08
      let (bars, cfg) := readBars cfg
      let m := s.1.setFunc a cfg
      -- the capability list is read through the ports
      let info := functionInfo physOffset m.memory dword classDword bars
        (ConfigAccess.read cfg 0x3C) (pciRead m bus slot func) bus slot func
      (m, s.2.add info)

def scanSlot (physOffset : UInt64) (alloc : McfgAllocation) (bus : UInt8)
    (s : Machine σ × DeviceManager δ) (slot : UInt8) : Machine σ × DeviceManager δ :=
  let phys := physOffset + cfgAddr alloc.baseAddress bus slot 0
  match s.1.ecamAt physOffset phys with
  | none => s
  | some a =>
    let cfg := s.1.funcs a
    if absent (ConfigAccess.read cfg 0x00) then s
    else
      (upTo (maxFuncs (ConfigAccess.read cfg 0x0C))).foldl
        (scanFunction physOffset alloc bus slot) s

def scanBus (physOffset : UInt64) (alloc : McfgAllocation) (s : Machine σ × DeviceManager δ)
    (bus : UInt8) : Machine σ × DeviceManager δ :=
  (upTo 32).foldl (scanSlot physOffset alloc bus) s

def scanAlloc (physOffset : UInt64) (s : Machine σ × DeviceManager δ) (alloc : McfgAllocation) :
    Machine σ × DeviceManager δ :=
  (busRange alloc.startBus alloc.endBus).foldl (scanBus physOffset alloc) s

/-- The innermost body of the legacy scan: it ends after the vendor check. -/
def legacyFunction (bus slot : UInt8) (s : Machine σ × DeviceManager δ) (func : UInt8) :
    Machine σ × DeviceManager δ :=
  if absent (pciRead s.1 bus slot func 0x00) then s else s

def legacySlot (bus : UInt8) (s : Machine σ × DeviceManager δ) (slot : UInt8) :
    Machine σ × DeviceManager δ :=
  if absent (pciRead s.1 bus slot 0 0x00) then s
  else
    (upTo (maxFuncs (pciRead s.1 bus slot 0 0x0C))).foldl (legacyFunction bus slot) s

def legacyScan (s : Machine σ × DeviceManager δ) : Machine σ × DeviceManager δ :=
  (busRange 0 255).foldl (fun s bus => (upTo 32).foldl (legacySlot bus) s) s

def scanAndRegisterWithPhysOffset (physOffset : UInt64) (mcfgs : List McfgAllocation)
    (s : Machine σ × DeviceManager δ) : Machine σ × DeviceManager δ :=
  if mcfgs.isEmpty then legacyScan s else mcfgs.foldl (scanAlloc physOffset) s

end Neutrix.Pci
