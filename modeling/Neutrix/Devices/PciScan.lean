import Mathlib.Algebra.Group.Nat.Defs
import Neutrix.Devices.Pci

/-!
# Neutrix — what the PCI scan registers

The loops of the scan boil down to a list: `visited` enumerates the
functions the scan builds a record for, and `scan_eq` says that the scan
adds their records to the registry one after the other and leaves the
machine as it was (sizing a BAR restores it).
-/

namespace Neutrix.Pci

open Neutrix.Lib

-- ---------------------------------------------------------------------------
-- Ports
-- ---------------------------------------------------------------------------

/-- Fields that do not overlap: `|` is `+`. -/
theorem mul_two_pow_or {x y k : Nat} (h : y < 2 ^ k) : x * 2 ^ k ||| y = x * 2 ^ k + y := by
  rw [← Nat.shiftLeft_eq, Nat.shiftLeft_add_eq_or_of_lt h]

theorem and_fc_lt (n : Nat) : n &&& 0xFC < 2 ^ 8 := Nat.and_lt_two_pow n (by decide)

theorem pciConfigAddress_toNat (bus offset : UInt8) {slot func : UInt8} (hSlot : slot.toNat < 32)
    (hFunc : func.toNat < 8) :
    (pciConfigAddress bus slot func offset).toNat =
      2 ^ 31 + bus.toNat * 2 ^ 16 + slot.toNat * 2 ^ 11 + func.toNat * 2 ^ 8 +
        (offset.toNat &&& 0xFC) := by
  have hBus := bus.toNat_lt
  have hOff := and_fc_lt offset.toNat
  have h1 : 1 * 2 ^ 31 ||| bus.toNat * 2 ^ 16 = (2 ^ 15 + bus.toNat) * 2 ^ 16 := by
    rw [mul_two_pow_or (by omega)]
    omega
  have h2 : (2 ^ 15 + bus.toNat) * 2 ^ 16 ||| slot.toNat * 2 ^ 11 =
      (2 ^ 20 + bus.toNat * 2 ^ 5 + slot.toNat) * 2 ^ 11 := by
    rw [mul_two_pow_or (by omega)]
    omega
  have h3 : (2 ^ 20 + bus.toNat * 2 ^ 5 + slot.toNat) * 2 ^ 11 ||| func.toNat * 2 ^ 8 =
      (2 ^ 23 + bus.toNat * 2 ^ 8 + slot.toNat * 2 ^ 3 + func.toNat) * 2 ^ 8 := by
    rw [mul_two_pow_or (by omega)]
    omega
  have hOr : (pciConfigAddress bus slot func offset).toNat =
      1 * 2 ^ 31 ||| bus.toNat * 2 ^ 16 ||| slot.toNat * 2 ^ 11 ||| func.toNat * 2 ^ 8 |||
        (offset.toNat &&& 0xFC) := by
    simp only [pciConfigAddress, UInt32.toNat_or, UInt32.toNat_and, UInt32.toNat_shiftLeft,
      UInt8.toNat_toUInt32, Nat.shiftLeft_eq]
    have hb : bus.toNat * 2 ^ ((16 : UInt32).toNat % 32) % 2 ^ 32 = bus.toNat * 2 ^ 16 :=
      Nat.mod_eq_of_lt (by simp; omega)
    have hs : slot.toNat * 2 ^ ((11 : UInt32).toNat % 32) % 2 ^ 32 = slot.toNat * 2 ^ 11 :=
      Nat.mod_eq_of_lt (by simp; omega)
    have hf : func.toNat * 2 ^ ((8 : UInt32).toNat % 32) % 2 ^ 32 = func.toNat * 2 ^ 8 :=
      Nat.mod_eq_of_lt (by simp; omega)
    rw [hb, hs, hf]
    rfl
  rw [hOr, h1, h2, h3, mul_two_pow_or hOff]
  omega

/-- **Port access.** The ports reach the function that the address names, in
segment group 0. -/
theorem pciRead_eq {σ : Type*} [ConfigAccess σ] (m : Machine σ) (bus offset : UInt8)
    {slot func : UInt8} (hSlot : slot.toNat < 32) (hFunc : func.toNat < 8) :
    pciRead m bus slot func offset =
      ConfigAccess.read (m.funcs ⟨0, bus, slot, func⟩) (offset &&& 0xFC) := by
  have hBus := bus.toNat_lt
  have hOff := and_fc_lt offset.toNat
  have hAddr := pciConfigAddress_toNat bus offset hSlot hFunc
  rw [pciRead, Machine.portRead]
  generalize pciConfigAddress bus slot func offset = addr at hAddr
  have hEnable : addr >>> 31 = 1 := by
    apply UInt32.toNat_inj.mp
    simp [Nat.shiftRight_eq_div_pow]
    omega
  have hB : (addr >>> 16).toUInt8 = bus := by
    apply UInt8.toNat_inj.mp
    simp [Nat.shiftRight_eq_div_pow]
    omega
  have hS : ((addr >>> 11) &&& 0x1F).toUInt8 = slot := by
    apply UInt8.toNat_inj.mp
    have hMask : ∀ n : Nat, n &&& 31 = n % 32 := fun n => Nat.and_two_pow_sub_one_eq_mod n 5
    simp [Nat.shiftRight_eq_div_pow, hMask]
    omega
  have hF : ((addr >>> 8) &&& 0x7).toUInt8 = func := by
    apply UInt8.toNat_inj.mp
    have hMask : ∀ n : Nat, n &&& 7 = n % 8 := fun n => Nat.and_two_pow_sub_one_eq_mod n 3
    simp [Nat.shiftRight_eq_div_pow, hMask]
    omega
  have hO : (addr &&& 0xFC).toUInt8 = offset &&& 0xFC := by
    apply UInt8.toNat_inj.mp
    -- only the low byte matters
    have hLow : addr.toNat &&& 0xFC = (addr.toNat % 2 ^ 8) &&& 0xFC := by
      rw [← Nat.and_two_pow_sub_one_eq_mod, Nat.and_assoc]
      rfl
    have hByte : addr.toNat % 2 ^ 8 = offset.toNat &&& 0xFC := by omega
    rw [UInt32.toNat_toUInt8, UInt32.toNat_and, UInt8.toNat_and]
    show (addr.toNat &&& 0xFC) % 2 ^ 8 = offset.toNat &&& 0xFC
    rw [hLow, hByte, Nat.and_assoc, Nat.and_self, Nat.mod_eq_of_lt hOff]
  rw [if_pos hEnable, hB, hS, hF, hO]

-- ---------------------------------------------------------------------------
-- Sizing leaves no trace
-- ---------------------------------------------------------------------------

/-- The two halves of a 64-bit BAR are different registers. -/
theorem dwordIndex_bar_ne {barIndex : UInt8} (h : barIndex < 6) :
    dwordIndex (0x10 + barIndex * 4) ≠ dwordIndex (0x10 + (barIndex + 1) * 4) := by
  have hLt : barIndex.toNat < 6 := by simpa [UInt8.lt_iff_toNat_lt] using h
  have hEq : barIndex = UInt8.ofNat barIndex.toNat := by simp
  rw [hEq]
  generalize barIndex.toNat = n at hLt
  decide +revert

/-- The BAR loop puts every register back. -/
theorem barLoop_restores (fuel : Nat) (barIndex : UInt8) (resources : List Resource)
    (cfg : RegBank) : (barLoop fuel barIndex resources cfg).2 = cfg := by
  have hOne : ∀ off v, ConfigAccess.write (ConfigAccess.write cfg off v) off
      (ConfigAccess.read cfg off) = cfg := fun off v => cfg.write_restore (dwordIndex off) v
  induction fuel generalizing barIndex resources with
  | zero => rfl
  | succ fuel ih =>
    simp only [barLoop]
    split_ifs with hIndex
    · exact ih ..
    · simp only [hOne]
      exact ih ..
    · have hTwo : ∀ v, ConfigAccess.write (ConfigAccess.write (ConfigAccess.write
          (ConfigAccess.write cfg (0x10 + barIndex * 4) v) (0x10 + (barIndex + 1) * 4) v)
          (0x10 + barIndex * 4) (ConfigAccess.read cfg (0x10 + barIndex * 4)))
          (0x10 + (barIndex + 1) * 4) (ConfigAccess.read cfg (0x10 + (barIndex + 1) * 4)) = cfg :=
        fun v => cfg.write_restore_two (dwordIndex_bar_ne hIndex) v v
      simp only [hTwo]
      exact ih ..
    · simp only [hOne]
      exact ih ..
    · rfl

theorem setFunc_self {σ : Type*} (m : Machine σ) (a : FuncAddr) : m.setFunc a (m.funcs a) = m := by
  have : (fun a' => if a' = a then m.funcs a else m.funcs a') = m.funcs := by
    funext a'
    split_ifs with h
    · rw [h]
    · rfl
  rw [Machine.setFunc, this]

-- ---------------------------------------------------------------------------
-- Reachable functions and their records
-- ---------------------------------------------------------------------------

/-- The allocation gives access to the function. -/
structure McfgAllocation.Covers (alloc : McfgAllocation) (a : FuncAddr) : Prop where
  segment : a.segment = alloc.pciSegmentGroup
  lower   : alloc.startBus ≤ a.bus
  upper   : a.bus ≤ alloc.endBus
  slot    : a.slot.toNat < 32
  func    : a.func.toNat < 8

/-- The MCFG table is right about the machine: each covered function answers at
its place in the window. -/
def EcamOk (m : Machine RegBank) (mcfgs : List McfgAllocation) : Prop :=
  ∀ alloc ∈ mcfgs, ∀ a, alloc.Covers a →
    m.ecam (cfgAddr alloc.baseAddress a.bus a.slot a.func) = some a

section Scan

variable {δ : Type*} (physOffset : UInt64) (m : Machine RegBank)

def Machine.present (a : FuncAddr) : Bool := ! absent (ConfigAccess.read (m.funcs a) 0x00)

/-- Vendor and device id. -/
def Machine.ids (a : FuncAddr) : UInt16 × UInt16 :=
  let dword := ConfigAccess.read (m.funcs a) 0x00
  ((dword &&& 0xFFFF).toUInt16, ((dword >>> 16) &&& 0xFFFF).toUInt16)

/-- The function's record, with its capability list read through `read`. -/
def Machine.record (a : FuncAddr) (read : UInt8 → UInt32) : DeviceInfo :=
  let cfg := m.funcs a
  functionInfo physOffset m.memory (ConfigAccess.read cfg 0x00) (ConfigAccess.read cfg 0x08)
    (readBars cfg).1 (ConfigAccess.read cfg 0x3C) read a.bus a.slot a.func

/-- The record the function's own registers describe. -/
def Machine.ownRecord (a : FuncAddr) : DeviceInfo :=
  m.record physOffset a (ConfigAccess.read (m.funcs a))

/-- The record the scan builds. -/
def Machine.scanRecord (a : FuncAddr) : DeviceInfo :=
  m.record physOffset a (pciRead m a.bus a.slot a.func)

@[simp] theorem record_key (a : FuncAddr) (read : UInt8 → UInt32) :
    (m.record physOffset a read).key = m.ids a := rfl

variable {m} in
/-- In segment group 0 the ports show the function's own registers. -/
theorem scanRecord_eq_ownRecord {a : FuncAddr} (hSeg : a.segment = 0) (hSlot : a.slot.toNat < 32)
    (hFunc : a.func.toNat < 8) : m.scanRecord physOffset a = m.ownRecord physOffset a := by
  have hRead : pciRead m a.bus a.slot a.func = ConfigAccess.read (m.funcs a) := by
    funext off
    rw [pciRead_eq m a.bus off hSlot hFunc, ← hSeg]
    show (m.funcs a).read (dwordIndex (off &&& 0xFC)) = (m.funcs a).read (dwordIndex off)
    rw [dwordIndex, dwordIndex, UInt8.and_assoc, UInt8.and_self]
  rw [Machine.scanRecord, hRead, Machine.ownRecord]

-- ---------------------------------------------------------------------------
-- The loops
-- ---------------------------------------------------------------------------

def slotFuncs (alloc : McfgAllocation) (bus slot : UInt8) : List FuncAddr :=
  let addr func : FuncAddr := ⟨alloc.pciSegmentGroup, bus, slot, func⟩
  if m.present (addr 0) then
    (upTo (maxFuncs (ConfigAccess.read (m.funcs (addr 0)) 0x0C))).flatMap fun func =>
      [addr func].filter m.present
  else []

/-- The functions the scan builds a record for, in its order. -/
def visited (mcfgs : List McfgAllocation) : List FuncAddr :=
  mcfgs.flatMap fun alloc =>
    (busRange alloc.startBus alloc.endBus).flatMap fun bus =>
      (upTo 32).flatMap fun slot => slotFuncs m alloc bus slot

/-- What a loop of the scan does when each round leaves the machine alone and
adds the records of the functions `g x`. -/
theorem foldl_scan {ι : Type*} {step : Machine RegBank × DeviceManager δ → ι →
      Machine RegBank × DeviceManager δ} {g : ι → List FuncAddr} {xs : List ι}
    (hStep : ∀ x ∈ xs, ∀ mgr, step (m, mgr) x =
      (m, ((g x).map (m.scanRecord physOffset)).foldl DeviceManager.add mgr))
    (mgr : DeviceManager δ) :
    xs.foldl step (m, mgr) =
      (m, ((xs.flatMap g).map (m.scanRecord physOffset)).foldl DeviceManager.add mgr) := by
  induction xs generalizing mgr with
  | nil => rfl
  | cons x xs ih =>
    rw [List.foldl_cons, hStep x (List.mem_cons_self ..),
      ih fun y hy => hStep y (List.mem_cons_of_mem _ hy), List.flatMap_cons, List.map_append,
      List.foldl_append]

theorem mem_upTo {n : Nat} (hn : n ≤ 256) {x : UInt8} : x ∈ upTo n ↔ x.toNat < n := by
  rw [upTo, List.mem_map]
  constructor
  · rintro ⟨k, hk, rfl⟩
    rw [List.mem_range] at hk
    rw [UInt8.toNat_ofNat_of_lt' (lt_of_lt_of_le hk hn)]
    exact hk
  · intro h
    exact ⟨x.toNat, List.mem_range.mpr h, by simp⟩

theorem mem_busRange {start stop x : UInt8} : x ∈ busRange start stop ↔ start ≤ x ∧ x ≤ stop := by
  have hStop := stop.toNat_lt
  rw [busRange, List.mem_map, UInt8.le_iff_toNat_le, UInt8.le_iff_toNat_le]
  constructor
  · rintro ⟨k, hk, rfl⟩
    rw [List.mem_range'_1] at hk
    rw [UInt8.toNat_ofNat_of_lt' (by show k < 256; omega)]
    omega
  · intro h
    exact ⟨x.toNat, List.mem_range'_1.mpr (by omega), by simp⟩

theorem maxFuncs_le (headerDword : UInt32) : maxFuncs headerDword ≤ 8 := by
  rw [maxFuncs]
  split_ifs <;> decide

theorem maxFuncs_pos (headerDword : UInt32) : 0 < maxFuncs headerDword := by
  rw [maxFuncs]
  split_ifs <;> decide

variable {m}

theorem ecamAt_eq {mcfgs : List McfgAllocation} (hE : EcamOk m mcfgs) {alloc : McfgAllocation}
    (hAlloc : alloc ∈ mcfgs) {bus slot func : UInt8}
    (hCov : alloc.Covers ⟨alloc.pciSegmentGroup, bus, slot, func⟩) :
    m.ecamAt physOffset (physOffset + cfgAddr alloc.baseAddress bus slot func) =
      some ⟨alloc.pciSegmentGroup, bus, slot, func⟩ := by
  rw [Machine.ecamAt, UInt64.add_comm, UInt64.add_sub_cancel]
  exact hE alloc hAlloc ⟨alloc.pciSegmentGroup, bus, slot, func⟩ hCov

/-- One function. -/
theorem scanFunction_eq {mcfgs : List McfgAllocation} (hE : EcamOk m mcfgs)
    {alloc : McfgAllocation} (hAlloc : alloc ∈ mcfgs) {bus slot func : UInt8}
    (hCov : alloc.Covers ⟨alloc.pciSegmentGroup, bus, slot, func⟩) (mgr : DeviceManager δ) :
    scanFunction physOffset alloc bus slot (m, mgr) func =
      (m, (([⟨alloc.pciSegmentGroup, bus, slot, func⟩].filter m.present).map
        (m.scanRecord physOffset)).foldl DeviceManager.add mgr) := by
  simp only [scanFunction, ecamAt_eq physOffset hE hAlloc hCov]
  by_cases hAbs : absent (ConfigAccess.read (m.funcs ⟨alloc.pciSegmentGroup, bus, slot, func⟩) 0x00)
  · simp [Machine.present, hAbs]
  · have hCfg := barLoop_restores 6 0 [] (m.funcs ⟨alloc.pciSegmentGroup, bus, slot, func⟩)
    simp [Machine.present, hAbs, readBars, hCfg, setFunc_self, Machine.scanRecord, Machine.record]

/-- One slot. -/
theorem scanSlot_eq {mcfgs : List McfgAllocation} (hE : EcamOk m mcfgs)
    {alloc : McfgAllocation} (hAlloc : alloc ∈ mcfgs) {bus slot : UInt8}
    (hBus : alloc.startBus ≤ bus ∧ bus ≤ alloc.endBus) (hSlot : slot.toNat < 32)
    (mgr : DeviceManager δ) :
    scanSlot physOffset alloc bus (m, mgr) slot =
      (m, ((slotFuncs m alloc bus slot).map (m.scanRecord physOffset)).foldl
        DeviceManager.add mgr) := by
  have hCov : ∀ func : UInt8, func.toNat < 8 →
      alloc.Covers ⟨alloc.pciSegmentGroup, bus, slot, func⟩ :=
    fun func hFunc => ⟨rfl, hBus.1, hBus.2, hSlot, hFunc⟩
  simp only [scanSlot, ecamAt_eq physOffset hE hAlloc (hCov 0 (by decide)), slotFuncs]
  by_cases hAbs : absent (ConfigAccess.read (m.funcs ⟨alloc.pciSegmentGroup, bus, slot, 0⟩) 0x00)
  · simp [Machine.present, hAbs]
  · have hMax := maxFuncs_le
      (ConfigAccess.read (m.funcs ⟨alloc.pciSegmentGroup, bus, slot, 0⟩) 0x0C)
    rw [if_neg hAbs, if_pos (by simpa [Machine.present] using hAbs)]
    exact foldl_scan physOffset m (fun func hFunc mgr => scanFunction_eq physOffset hE hAlloc
      (hCov func (lt_of_lt_of_le ((mem_upTo (by omega)).mp hFunc) hMax)) mgr) mgr

/-- **The scan.** It adds the records of the visited functions. -/
theorem scan_eq {mcfgs : List McfgAllocation} (hE : EcamOk m mcfgs) (hNe : mcfgs ≠ [])
    (mgr : DeviceManager δ) :
    scanAndRegisterWithPhysOffset physOffset mcfgs (m, mgr) =
      (m, ((visited m mcfgs).map (m.scanRecord physOffset)).foldl DeviceManager.add mgr) := by
  have hEmpty : ¬ mcfgs.isEmpty := by simpa using hNe
  rw [scanAndRegisterWithPhysOffset, if_neg hEmpty]
  refine foldl_scan physOffset m (fun alloc hAlloc mgr => ?_) mgr
  refine foldl_scan physOffset m (fun bus hBus mgr => ?_) mgr
  refine foldl_scan physOffset m (fun slot hSlot mgr => ?_) mgr
  exact scanSlot_eq physOffset hE hAlloc (mem_busRange.mp hBus) ((mem_upTo (by decide)).mp hSlot) mgr

-- ---------------------------------------------------------------------------
-- Which functions are visited
-- ---------------------------------------------------------------------------

/-- Present, and reachable through an allocation. -/
structure Reachable (m : Machine RegBank) (mcfgs : List McfgAllocation) (a : FuncAddr) : Prop where
  present : m.present a
  covered : ∃ alloc ∈ mcfgs, alloc.Covers a

/-- Function 0 of the slot is present, and it has the multifunction bit set
unless `a` is function 0 itself. -/
structure Announced (m : Machine RegBank) (a : FuncAddr) : Prop where
  zero  : m.present { a with func := 0 }
  multi : a.func.toNat < maxFuncs (ConfigAccess.read (m.funcs { a with func := 0 }) 0x0C)

theorem mem_slotFuncs {alloc : McfgAllocation} {bus slot : UInt8} {a : FuncAddr} :
    a ∈ slotFuncs m alloc bus slot ↔
      a.segment = alloc.pciSegmentGroup ∧ a.bus = bus ∧ a.slot = slot ∧ m.present a ∧
        Announced m a := by
  have hMax := maxFuncs_le
    (ConfigAccess.read (m.funcs ⟨alloc.pciSegmentGroup, bus, slot, 0⟩) 0x0C)
  simp only [slotFuncs]
  constructor
  · intro h
    split_ifs at h with hZero
    · obtain ⟨func, hFunc, hIn⟩ := List.mem_flatMap.mp h
      obtain ⟨hEq, hPresent⟩ := List.mem_filter.mp hIn
      obtain rfl := List.mem_singleton.mp hEq
      exact ⟨rfl, rfl, rfl, hPresent, hZero, (mem_upTo (hMax.trans (by decide))).mp hFunc⟩
    · simp at h
  · obtain ⟨segment, bus', slot', func⟩ := a
    rintro ⟨rfl, rfl, rfl, hPresent, hAnn⟩
    rw [if_pos hAnn.zero, List.mem_flatMap]
    exact ⟨func, (mem_upTo (hMax.trans (by decide))).mpr hAnn.multi,
      List.mem_filter.mpr ⟨List.mem_singleton_self _, hPresent⟩⟩

theorem mem_visited {mcfgs : List McfgAllocation} {a : FuncAddr} :
    a ∈ visited m mcfgs ↔ Reachable m mcfgs a ∧ Announced m a := by
  simp only [visited, List.mem_flatMap]
  constructor
  · rintro ⟨alloc, hAlloc, bus, hBus, slot, hSlot, hIn⟩
    obtain ⟨hSeg, rfl, rfl, hPresent, hAnn⟩ := mem_slotFuncs.mp hIn
    have hMax := maxFuncs_le (ConfigAccess.read (m.funcs { a with func := 0 }) 0x0C)
    have hCov : alloc.Covers a :=
      ⟨hSeg, (mem_busRange.mp hBus).1, (mem_busRange.mp hBus).2,
        (mem_upTo (by decide)).mp hSlot, lt_of_lt_of_le hAnn.multi hMax⟩
    exact ⟨⟨hPresent, alloc, hAlloc, hCov⟩, hAnn⟩
  · rintro ⟨⟨hPresent, alloc, hAlloc, hCov⟩, hAnn⟩
    exact ⟨alloc, hAlloc, a.bus, mem_busRange.mpr ⟨hCov.lower, hCov.upper⟩, a.slot,
      (mem_upTo (by decide)).mpr hCov.slot,
      mem_slotFuncs.mpr ⟨hCov.segment, rfl, rfl, hPresent, hAnn⟩⟩

end Scan

end Neutrix.Pci
