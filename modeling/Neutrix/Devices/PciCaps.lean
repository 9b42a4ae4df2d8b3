import Mathlib.Data.Finset.Card
import Mathlib.Data.Nat.Bitwise
import Mathlib.Order.Interval.Finset.Nat
import Neutrix.Devices.Pci
import Neutrix.Lib.ByteMemory
import Neutrix.Lib.Run
import Neutrix.Lib.SizingMask

/-!
# Neutrix — the capability list

The capability loop follows pointers through configuration space. Which
pointers it follows depends on the space only (`capVisits`), and what it
records for one of them does not depend on what it recorded before, since an
MSI-X capability looks at the memory BARs only; `capLoop_eq` splits the loop
into the two.

A capability list is a chain of different dword-aligned offsets from 0x40 on.
There are 48 of these, which is the loop's bound.

* `loopRuns_capStep` — the loop ends, after one round for each pointer it
  follows, and these are at most 48 (`length_capVisits_le`).
* `capabilities_decoded` — on a capability list the loop visits the chain in
  order, and records for each structure that fits into the space what its bytes
  say.
-/

namespace Neutrix.Pci

open Neutrix.Lib

-- ---------------------------------------------------------------------------
-- One capability
-- ---------------------------------------------------------------------------

section

variable (physOffset : UInt64) (memory : UInt64 → UInt32) (read : UInt8 → UInt32)

def capId (capPtr : UInt8) : UInt8 := (read (capPtr &&& 0xFC) &&& 0xFF).toUInt8

def nextPtr (capPtr : UInt8) : UInt8 := ((read (capPtr &&& 0xFC) >>> 8) &&& 0xFF).toUInt8

/-- The resource recorded for a capability, given those recorded before. -/
def capResource (resources : List Resource) (capPtr : UInt8) : Option Resource :=
  match capId read capPtr with
  | 0x05 => some (msiResource read capPtr)
  | 0x11 => some (msixResource physOffset memory read capPtr resources)
  | _ => none

/-- The entry of the capability list recorded for a capability. -/
def capEntry (capPtr : UInt8) : Option Capability :=
  match capId read capPtr with
  | 0x01 => some (.powerManagement ((read (capPtr &&& 0xFC) >>> 16) &&& 0xFFFF).toUInt16
      (shifted read (capPtr + 4) &&& 0xFFFF).toUInt16)
  | 0x05 => none
  | 0x10 => some (.pciExpress (read (capPtr &&& 0xFC)) (read ((capPtr + 4) &&& 0xFC)))
  | 0x11 => none
  | id => some (.other id (read (capPtr &&& 0xFC)) (read ((capPtr + 4) &&& 0xFC)))

theorem decodeCapability_eq (capPtr : UInt8) (resources : List Resource)
    (capabilities : List Capability) :
    decodeCapability physOffset memory read capPtr (resources, capabilities) =
      (resources ++ (capResource physOffset memory read resources capPtr).toList,
        capabilities ++ (capEntry read capPtr).toList) := by
  unfold decodeCapability capResource capEntry capId
  dsimp only
  split <;> simp_all

/-- The memory BARs among the resources. -/
def memoryBars (resources : List Resource) : List Resource :=
  resources.filter fun r => r.kind = .memoryMapped

/-- An MSI-X capability looks at the memory BARs only. -/
theorem capResource_congr {resources resources' : List Resource}
    (h : memoryBars resources = memoryBars resources') (capPtr : UInt8) :
    capResource physOffset memory read resources capPtr =
      capResource physOffset memory read resources' capPtr := by
  unfold memoryBars at h
  unfold capResource msixResource
  rw [h]

/-- Capabilities are no BARs. -/
theorem kind_capResource {resources : List Resource} {capPtr : UInt8} {r : Resource}
    (h : capResource physOffset memory read resources capPtr = some r) :
    r.kind ≠ .memoryMapped ∧ r.kind ≠ .io := by
  unfold capResource at h
  split at h
  · cases h
    simp [msiResource]
  · cases h
    simp [msixResource]
  · cases h

theorem memoryBars_append_capResource (resources : List Resource) (capPtr : UInt8) :
    memoryBars (resources ++ (capResource physOffset memory read resources capPtr).toList) =
      memoryBars resources := by
  cases hRes : capResource physOffset memory read resources capPtr with
  | none => simp
  | some r =>
    have hKind := (kind_capResource physOffset memory read hRes).1
    simp [memoryBars, hKind]

end

-- ---------------------------------------------------------------------------
-- The loop
-- ---------------------------------------------------------------------------

section

variable (physOffset : UInt64) (memory : UInt64 → UInt32) (read : UInt8 → UInt32)

/-- The pointers the loop follows, with `left` rounds left. -/
def capVisits : Nat → UInt8 → List UInt8
  | 0, _ => []
  | left + 1, capPtr => if capPtr = 0 then [] else capPtr :: capVisits left (nextPtr read capPtr)

theorem length_capVisits_le (left : Nat) (capPtr : UInt8) :
    (capVisits read left capPtr).length ≤ left := by
  induction left generalizing capPtr with
  | zero => exact Nat.le_refl 0
  | succ left ih =>
    rw [capVisits]
    split_ifs
    · exact Nat.zero_le _
    · exact Nat.succ_le_succ (ih _)

/-- The loop decodes what it visits. -/
theorem capLoop_eq_foldl (left : Nat) (capPtr : UInt8) (acc : List Resource × List Capability) :
    capLoop physOffset memory read left capPtr acc =
      (capVisits read left capPtr).foldl
        (fun acc p => decodeCapability physOffset memory read p acc) acc := by
  induction left generalizing capPtr acc with
  | zero => rfl
  | succ left ih =>
    rw [capLoop, capVisits]
    split_ifs with hEnd
    · rfl
    · exact ih _ _

/-- What the loop records, capability by capability. -/
theorem foldl_decodeCapability (capPtrs : List UInt8) (resources : List Resource)
    (capabilities : List Capability) :
    capPtrs.foldl (fun acc p => decodeCapability physOffset memory read p acc)
        (resources, capabilities) =
      (resources ++ capPtrs.filterMap (capResource physOffset memory read resources),
        capabilities ++ capPtrs.filterMap (capEntry read)) := by
  induction capPtrs generalizing resources capabilities with
  | nil => simp
  | cons p ps ih =>
    rw [List.foldl_cons, decodeCapability_eq, ih]
    -- the resources recorded for `p` do not matter for the rest
    rw [List.filterMap_congr fun q _ => capResource_congr physOffset memory read
      (memoryBars_append_capResource physOffset memory read resources p) q]
    cases hRes : capResource physOffset memory read resources p <;>
      cases hEntry : capEntry read p <;>
        simp [hRes, hEntry]

theorem capLoop_eq (left : Nat) (capPtr : UInt8) (resources : List Resource)
    (capabilities : List Capability) :
    capLoop physOffset memory read left capPtr (resources, capabilities) =
      (resources ++ (capVisits read left capPtr).filterMap
          (capResource physOffset memory read resources),
        capabilities ++ (capVisits read left capPtr).filterMap (capEntry read)) := by
  rw [capLoop_eq_foldl, foldl_decodeCapability]

/-- The loop variables. -/
structure CapState where
  capPtr       : UInt8
  capsSearched : Nat
  acc          : List Resource × List Capability

/-- The loop body. -/
def capStep (s : CapState) : CapState :=
  { capPtr := nextPtr read s.capPtr
    capsSearched := s.capsSearched + 1
    acc := decodeCapability physOffset memory read s.capPtr s.acc }

/-- `while cap_ptr != 0 && caps_searched < 48`: the loop runs once for each visited
pointer and ends. -/
theorem loopRuns_capStep (left : Nat) (capPtr : UInt8) (searched : Nat)
    (hLeft : searched + left = 48) (acc : List Resource × List Capability) :
    ∃ t : CapState, t.acc = capLoop physOffset memory read left capPtr acc ∧
      LoopRuns (fun s : CapState => s.capPtr ≠ 0 ∧ s.capsSearched < 48)
        (capStep physOffset memory read) (capVisits read left capPtr).length
        ⟨capPtr, searched, acc⟩ t := by
  induction left generalizing capPtr searched acc with
  | zero =>
    refine ⟨⟨capPtr, searched, acc⟩, rfl, .done fun h => ?_⟩
    have hSearched : searched < 48 := h.2
    omega
  | succ left ih =>
    rw [capLoop, capVisits]
    split_ifs with hEnd
    · exact ⟨⟨capPtr, searched, acc⟩, rfl, .done fun h => h.1 hEnd⟩
    · obtain ⟨t, hAcc, hRuns⟩ := ih (nextPtr read capPtr) (searched + 1) (by omega)
        (decodeCapability physOffset memory read capPtr acc)
      exact ⟨t, hAcc, .round ⟨hEnd, by show searched < 48; omega⟩ hRuns⟩

end

-- ---------------------------------------------------------------------------
-- Capability lists
-- ---------------------------------------------------------------------------

/-- Reads show the dwords of the configuration space `space`. -/
def Shows (read : UInt8 → UInt32) (space : Memory) : Prop :=
  ∀ off : UInt8, read off = space.read32 (off &&& 0xFC).toNat

/-- The pointer byte leads along the offsets and ends in 0. -/
def Linked (space : Memory) : UInt8 → List UInt8 → Prop
  | capPtr, [] => capPtr = 0
  | capPtr, q :: qs => capPtr = q ∧ q ≠ 0 ∧ Linked space (space (q.toNat + 1)) qs

/-- A capability list: Status bit 4 is set, and the pointer at 0x34 leads along
different dword-aligned offsets from 0x40 on. -/
structure CapList (space : Memory) (chain : List UInt8) : Prop where
  status  : (space.read16 0x06).toNat / 2 ^ 4 % 2 = 1
  linked  : Linked space (space 0x34) chain
  acyclic : chain.Nodup
  aligned : ∀ q ∈ chain, q.toNat % 4 = 0
  placed  : ∀ q ∈ chain, 0x40 ≤ q.toNat

/-- There are 48 places. -/
theorem CapList.length_le {space : Memory} {chain : List UInt8} (h : CapList space chain) :
    chain.length ≤ 48 := by
  have hInj : (chain.map fun q => q.toNat / 4).Nodup := by
    refine h.acyclic.map_on fun q hq q' hq' hEq => ?_
    have hAligned := h.aligned q hq
    have hAligned' := h.aligned q' hq'
    exact UInt8.toNat_inj.mp (by omega)
  have hSub : (chain.map fun q => q.toNat / 4).toFinset ⊆ Finset.Ico 16 64 := by
    intro k hk
    obtain ⟨q, hq, rfl⟩ := List.mem_map.mp (List.mem_toFinset.mp hk)
    have hPlaced := h.placed q hq
    have hLt := q.toNat_lt
    rw [Finset.mem_Ico]
    omega
  have hCard := Finset.card_le_card hSub
  rw [List.toFinset_card_of_nodup hInj, List.length_map, Nat.card_Ico] at hCard
  exact hCard

theorem aligned_facts {p : UInt8} (h : p.toNat % 4 = 0) :
    p &&& 0xFC = p ∧ p &&& 3 = 0 ∧ (p + 2) &&& 0xFC = p ∧ (p + 2) &&& 3 = 2 := by
  revert h
  refine forall_byte p ?_
  decide +kernel

section Shows

variable {read : UInt8 → UInt32} {space : Memory} (hRead : Shows read space)
include hRead

theorem Shows.dword {p : UInt8} (h : p.toNat % 4 = 0) :
    read (p &&& 0xFC) = space.read32 p.toNat := by
  rw [hRead, UInt8.and_assoc, UInt8.and_self, (aligned_facts h).1]

theorem Shows.capId_eq {p : UInt8} (h : p.toNat % 4 = 0) : capId read p = space p.toNat := by
  rw [capId, hRead.dword h, Memory.byte0_read32]

theorem Shows.nextPtr_eq {p : UInt8} (h : p.toNat % 4 = 0) :
    nextPtr read p = space (p.toNat + 1) := by
  rw [nextPtr, hRead.dword h, Memory.byte1_read32]

/-- The loop visits a chain that is not longer than its bound. -/
theorem Shows.capVisits_eq {left : Nat} {capPtr : UInt8} {chain : List UInt8}
    (hLinked : Linked space capPtr chain) (hAligned : ∀ q ∈ chain, q.toNat % 4 = 0)
    (hLeft : chain.length ≤ left) : capVisits read left capPtr = chain := by
  induction chain generalizing left capPtr with
  | nil =>
    obtain rfl : capPtr = 0 := hLinked
    cases left <;> rfl
  | cons q qs ih =>
    obtain ⟨rfl, hNonzero, hRest⟩ := hLinked
    obtain ⟨left, rfl⟩ := Nat.exists_eq_add_of_le' hLeft
    rw [List.length_cons, ← Nat.add_assoc, capVisits, if_neg hNonzero,
      hRead.nextPtr_eq (hAligned capPtr List.mem_cons_self),
      ih hRest (fun p hp => hAligned p (List.mem_cons_of_mem capPtr hp)) (Nat.le_add_left _ _)]

end Shows

-- ---------------------------------------------------------------------------
-- Structures
-- ---------------------------------------------------------------------------

/-- Bit 7 of the message control word. -/
def msiAddr64 (space : Memory) (q : Nat) : Bool := (space.read16 (q + 2)).toNat.testBit 7

/-- The bytes of the structure at `q` that say what it is: up to the PMCSR, up to the
message data, or two dwords. -/
def structSize (space : Memory) (q : Nat) : Nat :=
  if space q = 0x01 then 6
  else if space q = 0x05 then if msiAddr64 space q then 14 else 10
  else 8

/-- The MSI structure at `q`: message control at 2, the address at 4, and the message
data behind it. -/
def decodedMsi (space : Memory) (q : Nat) : Resource :=
  let ctrl := (space.read16 (q + 2)).toNat
  if msiAddr64 space q then
    ⟨.msi (UInt8.ofNat (2 ^ (ctrl / 2 % 8))) true (ctrl.testBit 8) (space.read64 (q + 4))
      (space.read16 (q + 12)), 0, 0⟩
  else
    ⟨.msi (UInt8.ofNat (2 ^ (ctrl / 2 % 8))) false (ctrl.testBit 8)
      (space.read32 (q + 4)).toUInt64 (space.read16 (q + 8)), 0, 0⟩

/-- The MSI-X structure at `q`: the table's size in the control word at 2, the BAR and
the offset in the dword at 4. What was seen in the table is given. -/
def decodedMsix (space : Memory) (q : Nat) (tablePresent firstEntryMasked : Bool) : Resource :=
  ⟨.msix (UInt8.ofNat ((space.read32 (q + 4)).toNat % 8))
    (UInt32.ofNat ((space.read32 (q + 4)).toNat / 8 * 8))
    (UInt16.ofNat ((space.read16 (q + 2)).toNat % 2 ^ 11 + 1)) tablePresent firstEntryMasked, 0, 0⟩

/-- The entry and the resource are what the structure at `q` says. -/
def Decodes (space : Memory) (q : Nat) (entry : Option Capability) (resource : Option Resource) :
    Prop :=
  if space q = 0x01 then
    entry = some (.powerManagement (space.read16 (q + 2)) (space.read16 (q + 4))) ∧ resource = none
  else if space q = 0x05 then entry = none ∧ resource = some (decodedMsi space q)
  else if space q = 0x10 then
    entry = some (.pciExpress (space.read32 q) (space.read32 (q + 4))) ∧ resource = none
  else if space q = 0x11 then
    entry = none ∧ ∃ present masked, resource = some (decodedMsix space q present masked)
  else
    entry = some (.other (space q) (space.read32 q) (space.read32 (q + 4))) ∧ resource = none

theorem vectors_eq (ctrl : UInt16) :
    (1 : UInt8) <<< ((ctrl >>> 1) &&& 0x7).toUInt8 = UInt8.ofNat (2 ^ (ctrl.toNat / 2 % 8)) := by
  have hMask : ∀ n : Nat, n &&& 7 = n % 8 := fun n => Nat.and_two_pow_sub_one_eq_mod n 3
  have hField : ((ctrl >>> 1) &&& 0x7).toUInt8 = UInt8.ofNat (ctrl.toNat / 2 % 8) := by
    apply UInt8.toNat_inj.mp
    simp [hMask, Nat.shiftRight_eq_div_pow]
    omega
  have hLt : ctrl.toNat / 2 % 8 < 8 := Nat.mod_lt _ (by decide)
  rw [hField]
  generalize ctrl.toNat / 2 % 8 = k at hLt
  clear hField
  decide +revert

theorem and_bit_ne_zero (ctrl : UInt16) {k : Nat} (hk : k < 16) :
    ctrl &&& UInt16.ofNat (2 ^ k) ≠ 0 ↔ ctrl.toNat.testBit k = true := by
  have hLt : 2 ^ k < 2 ^ 16 := Nat.pow_lt_pow_right (by decide) hk
  have hNat : (ctrl &&& UInt16.ofNat (2 ^ k)).toNat = (ctrl.toNat.testBit k).toNat * 2 ^ k := by
    rw [UInt16.toNat_and, UInt16.toNat_ofNat', Nat.mod_eq_of_lt hLt, Nat.and_two_pow]
  rw [ne_eq, ← UInt16.toNat_inj, hNat]
  cases ctrl.toNat.testBit k <;> simp

/-- A dword without its lowest three bits. -/
theorem and_fffffff8 (x : UInt32) : x &&& 0xFFFFFFF8 = UInt32.ofNat (x.toNat / 8 * 8) := by
  have hMask : (0xFFFFFFF8 : UInt32).toBitVec = ~~~ lowBits 32 3 := rfl
  have hShift : x &&& (0xFFFFFFF8 : UInt32) = (x >>> (3 : UInt32)) <<< (3 : UInt32) := by
    apply UInt32.toBitVec_inj.mp
    rw [UInt32.toBitVec_and, hMask]
    ext i hi
    by_cases hLow : i < 3
    · simp [hLow]
    · have hBack : 3 + (i - 3) = i := by omega
      simp [hLow, hBack, hi]
  rw [hShift]
  apply UInt32.toNat_inj.mp
  simp [Nat.shiftRight_eq_div_pow, Nat.shiftLeft_eq]

/-- The BIR and the table size of an MSI-X capability. -/
theorem bir_eq (x : UInt32) : (x &&& 0x7).toUInt8 = UInt8.ofNat (x.toNat % 8) := by
  have hMask : ∀ n : Nat, n &&& 7 = n % 8 := fun n => Nat.and_two_pow_sub_one_eq_mod n 3
  apply UInt8.toNat_inj.mp
  simp [hMask]
  omega

theorem tableSize_eq (x : UInt32) :
    (x &&& 0x7FF).toUInt16 + 1 = UInt16.ofNat (x.toNat % 2 ^ 11 + 1) := by
  have hMask : ∀ n : Nat, n &&& 2047 = n % 2 ^ 11 :=
    fun n => Nat.and_two_pow_sub_one_eq_mod n 11
  apply UInt16.toNat_inj.mp
  simp [hMask]

section Decoding

variable {read : UInt8 → UInt32} {space : Memory} (hRead : Shows read space) {q : UInt8}
  (hq : q.toNat % 4 = 0)
include hRead hq

theorem Shows.shifted_eq : shifted read q = space.read32 q.toNat := by
  rw [shifted, hRead.dword hq, (aligned_facts hq).2.1]
  exact UInt32.shiftRight_zero

theorem Shows.ctrl_eq : (shifted read (q + 2) &&& 0xFFFF).toUInt16 = space.read16 (q.toNat + 2) := by
  obtain ⟨hSelf, -, hHigh, hLow⟩ := aligned_facts hq
  have hDword := hRead.dword hq
  rw [hSelf] at hDword
  rw [shifted, hHigh, hLow, hDword]
  exact Memory.word1_read32 space q.toNat

/-- The dwords behind `q`, as far as they lie in the space. -/
theorem Shows.shifted_add {k : Nat} (hk : k % 4 = 0) (hIn : q.toNat + k < 256) :
    shifted read (q + UInt8.ofNat k) = space.read32 (q.toNat + k) := by
  have hNat : (q + UInt8.ofNat k).toNat = q.toNat + k := by
    rw [UInt8.toNat_add, UInt8.toNat_ofNat']
    omega
  have hAligned : (q + UInt8.ofNat k).toNat % 4 = 0 := by omega
  rw [hRead.shifted_eq hAligned, hNat]

theorem Shows.msi_eq (hFits : q.toNat + (if msiAddr64 space q.toNat then 14 else 10) ≤ 256) :
    msiResource read q = decodedMsi space q.toNat := by
  have hAddr : shifted read (q + 4) = space.read32 (q.toNat + 4) :=
    hRead.shifted_add hq (k := 4) rfl (by split at hFits <;> omega)
  have hNext : shifted read (q + 4 + 4) = space.read32 (q.toNat + 8) := by
    rw [UInt8.add_assoc]
    exact hRead.shifted_add hq (k := 8) rfl (by split at hFits <;> omega)
  unfold msiResource decodedMsi
  dsimp only
  rw [hRead.ctrl_eq hq, vectors_eq, hAddr]
  have h64 := and_bit_ne_zero (space.read16 (q.toNat + 2)) (k := 7) (by decide)
  have hMaskable : decide (space.read16 (q.toNat + 2) &&& ((1 : UInt16) <<< 8) ≠ 0) =
      (space.read16 (q.toNat + 2)).toNat.testBit 8 := by
    rw [Bool.eq_iff_iff, decide_eq_true_iff]
    exact and_bit_ne_zero (space.read16 (q.toNat + 2)) (k := 8) (by decide)
  rw [hMaskable]
  cases hFlag : msiAddr64 space q.toNat with
  | true =>
    have hBit : space.read16 (q.toNat + 2) &&& ((1 : UInt16) <<< 7) ≠ 0 := h64.mpr hFlag
    have hData : shifted read (q + 4 + 8) = space.read32 (q.toNat + 12) := by
      rw [UInt8.add_assoc]
      rw [hFlag, if_pos rfl] at hFits
      exact hRead.shifted_add hq (k := 12) rfl (by omega)
    simp only [if_pos hBit]
    rw [hData, hNext, Memory.word0_read32, UInt64.or_comm, decide_eq_true hBit, if_pos trivial]
    rfl
  | false =>
    have hBit : ¬ space.read16 (q.toNat + 2) &&& ((1 : UInt16) <<< 7) ≠ 0 :=
      fun hBit => Bool.false_ne_true (hFlag.symm.trans (h64.mp hBit))
    simp only [if_neg hBit]
    rw [hNext, Memory.word0_read32, decide_eq_false hBit, if_neg Bool.false_ne_true]

theorem Shows.msix_eq (hFits : q.toNat + 8 ≤ 256) (physOffset : UInt64)
    (memory : UInt64 → UInt32) (resources : List Resource) :
    ∃ present masked, msixResource physOffset memory read q resources =
      decodedMsix space q.toNat present masked := by
  have hTable : shifted read (q + 4) = space.read32 (q.toNat + 4) :=
    hRead.shifted_add hq (k := 4) rfl (by omega)
  have hSize : (shifted read (q + 2)).toNat % 2 ^ 11 =
      (space.read16 (q.toNat + 2)).toNat % 2 ^ 11 := by
    rw [← hRead.ctrl_eq hq, toUInt16_and_ffff, UInt32.toNat_toUInt16]
    omega
  unfold msixResource decodedMsix
  dsimp only
  rw [hTable, bir_eq, and_fffffff8, tableSize_eq, hSize]
  exact ⟨_, _, rfl⟩

/-- One capability: what is recorded is what the structure says. -/
theorem Shows.decodes (hFits : q.toNat + structSize space q.toNat ≤ 256) (physOffset : UInt64)
    (memory : UInt64 → UInt32) (resources : List Resource) :
    Decodes space q.toNat (capEntry read q)
      (capResource physOffset memory read resources q) := by
  have hId := hRead.capId_eq hq
  have hDword := hRead.dword hq
  unfold structSize at hFits
  unfold Decodes
  by_cases hPm : space q.toNat = 0x01
  · rw [if_pos hPm] at hFits ⊢
    have hNext : shifted read (q + 4) = space.read32 (q.toNat + 4) :=
      hRead.shifted_add hq (k := 4) rfl (by omega)
    rw [capEntry, capResource, hId, hPm, hDword, hNext, Memory.word1_read32, Memory.word0_read32]
    exact ⟨rfl, rfl⟩
  rw [if_neg hPm] at hFits ⊢
  by_cases hMsi : space q.toNat = 0x05
  · rw [if_pos hMsi] at hFits ⊢
    rw [capEntry, capResource, hId, hMsi]
    exact ⟨rfl, congrArg some (hRead.msi_eq hq hFits)⟩
  rw [if_neg hMsi] at hFits ⊢
  have hNext : read ((q + 4) &&& 0xFC) = space.read32 (q.toNat + 4) := by
    have hNat : (q + 4).toNat = q.toNat + 4 := by
      rw [UInt8.toNat_add]
      show (q.toNat + 4) % 2 ^ 8 = _
      omega
    rw [hRead.dword (by omega), hNat]
  by_cases hExpress : space q.toNat = 0x10
  · rw [if_pos hExpress]
    rw [capEntry, capResource, hId, hExpress, hDword, hNext]
    exact ⟨rfl, rfl⟩
  rw [if_neg hExpress]
  by_cases hMsix : space q.toNat = 0x11
  · rw [if_pos hMsix]
    rw [capEntry, capResource, hId, hMsix]
    obtain ⟨present, masked, hEq⟩ := hRead.msix_eq hq hFits physOffset memory resources
    exact ⟨rfl, present, masked, congrArg some hEq⟩
  rw [if_neg hMsix, capEntry, capResource, hId, hDword, hNext]
  -- none of the other patterns matches
  constructor
  · split <;> first | rfl | contradiction
  · split <;> first | rfl | contradiction

end Decoding

-- ---------------------------------------------------------------------------
-- The list of a function
-- ---------------------------------------------------------------------------

/-- The status check of the scan. -/
def HasCapList (read : UInt8 → UInt32) : Prop :=
  ((read 0x04 >>> 16) &&& (0xFFFF : UInt32)) &&& ((1 : UInt32) <<< 4) ≠ 0

theorem Shows.hasCapList {read : UInt8 → UInt32} {space : Memory} (hRead : Shows read space)
    {chain : List UInt8} (h : CapList space chain) : HasCapList read := by
  have hMask : ∀ n : Nat, n &&& 65535 = n % 2 ^ 16 :=
    fun n => Nat.and_two_pow_sub_one_eq_mod n 16
  have hStatus := h.status
  have hWord : (space.read16 0x06).toNat = (space.read32 0x04).toNat / 2 ^ 16 % 2 ^ 16 := by
    rw [← Memory.word1_read32 space 4, toUInt16_and_ffff]
    simp [Nat.shiftRight_eq_div_pow]
  have hDword : read 0x04 = space.read32 0x04 := hRead 0x04
  have hNat : (((read 0x04 >>> 16) &&& (0xFFFF : UInt32)) &&& ((1 : UInt32) <<< 4)).toNat =
      ((space.read16 0x06).toNat.testBit 4).toNat * 2 ^ 4 := by
    rw [hWord, ← Nat.and_two_pow, hDword]
    simp [hMask, Nat.shiftRight_eq_div_pow]
  intro hZero
  rw [hZero, Nat.testBit_eq_decide_div_mod_eq, hStatus] at hNat
  exact absurd hNat (by decide)

theorem readCapabilities_of_hasCapList {physOffset : UInt64} {memory : UInt64 → UInt32}
    {read : UInt8 → UInt32} {resources : List Resource} (h : HasCapList read) :
    readCapabilities physOffset memory read resources =
      capLoop physOffset memory read 48 (read 0x34 &&& 0xFF).toUInt8 (resources, []) :=
  if_pos h

theorem readCapabilities_of_not_hasCapList {physOffset : UInt64} {memory : UInt64 → UInt32}
    {read : UInt8 → UInt32} {resources : List Resource} (h : ¬ HasCapList read) :
    readCapabilities physOffset memory read resources = (resources, []) :=
  if_neg h

/-- The BARs among the resources are those from before the capability list. -/
theorem mem_of_mem_readCapabilities {physOffset : UInt64} {memory : UInt64 → UInt32}
    {read : UInt8 → UInt32} {resources : List Resource} {r : Resource}
    (h : r ∈ (readCapabilities physOffset memory read resources).1)
    (hKind : r.kind = .io ∨ r.kind = .memoryMapped) : r ∈ resources := by
  by_cases hList : HasCapList read
  · rw [readCapabilities_of_hasCapList hList, capLoop_eq] at h
    rcases List.mem_append.mp h with hBefore | hCap
    · exact hBefore
    · obtain ⟨p, -, hRes⟩ := List.mem_filterMap.mp hCap
      have hNot := kind_capResource physOffset memory read hRes
      exact absurd hKind (not_or.mpr ⟨hNot.2, hNot.1⟩)
  · rw [readCapabilities_of_not_hasCapList hList] at h
    exact h

/-- **The capability list.** On a capability list the loop makes one round for each
capability, in the order of the chain, and records what the structures say. On any
configuration space it ends after at most 48 rounds. -/
theorem capabilities_decoded (physOffset : UInt64) (memory : UInt64 → UInt32)
    (read : UInt8 → UInt32) (resources : List Resource) :
    (∀ space chain, Shows read space → CapList space chain →
      (∃ t : CapState, t.acc = readCapabilities physOffset memory read resources ∧
        LoopRuns (fun s : CapState => s.capPtr ≠ 0 ∧ s.capsSearched < 48)
          (capStep physOffset memory read) chain.length ⟨space 0x34, 0, (resources, [])⟩ t) ∧
      readCapabilities physOffset memory read resources =
        (resources ++ chain.filterMap (capResource physOffset memory read resources),
          chain.filterMap (capEntry read)) ∧
      ∀ q ∈ chain, q.toNat + structSize space q.toNat ≤ 0x100 →
        Decodes space q.toNat (capEntry read q)
          (capResource physOffset memory read resources q)) ∧
    ∀ capPtr acc, ∃ n ≤ 48, ∃ t : CapState,
      t.acc = capLoop physOffset memory read 48 capPtr acc ∧
      LoopRuns (fun s : CapState => s.capPtr ≠ 0 ∧ s.capsSearched < 48)
        (capStep physOffset memory read) n ⟨capPtr, 0, acc⟩ t := by
  refine ⟨fun space chain hRead h => ?_, fun capPtr acc => ?_⟩
  · have hPtr : (read 0x34 &&& 0xFF).toUInt8 = space 0x34 := by
      rw [hRead 0x34]
      exact Memory.byte0_read32 space 0x34
    have hVisits : capVisits read 48 (space 0x34) = chain :=
      hRead.capVisits_eq h.linked h.aligned h.length_le
    have hList : readCapabilities physOffset memory read resources =
        capLoop physOffset memory read 48 (space 0x34) (resources, []) := by
      rw [readCapabilities_of_hasCapList (hRead.hasCapList h), hPtr]
    refine ⟨?_, ?_, fun q hq hFits =>
      hRead.decodes (h.aligned q hq) hFits physOffset memory resources⟩
    · obtain ⟨t, hAcc, hRuns⟩ :=
        loopRuns_capStep physOffset memory read 48 (space 0x34) 0 rfl (resources, [])
      rw [hVisits] at hRuns
      exact ⟨t, hAcc.trans hList.symm, hRuns⟩
    · rw [hList, capLoop_eq, hVisits, List.nil_append]
  · obtain ⟨t, hAcc, hRuns⟩ := loopRuns_capStep physOffset memory read 48 capPtr 0 rfl acc
    exact ⟨_, length_capVisits_le read 48 capPtr, t, hAcc, hRuns⟩

/-- A configuration space with a power management, an MSI and an MSI-X capability. -/
def sampleSpace : Memory
  | 0x06 => 0x10
  | 0x34 => 0x40
  | 0x40 => 0x01 | 0x41 => 0x50 | 0x42 => 0x03 | 0x44 => 0x08
  | 0x50 => 0x05 | 0x51 => 0x70 | 0x52 => 0x86 | 0x56 => 0xE0 | 0x57 => 0xFE | 0x5C => 0x41
  | 0x70 => 0x11 | 0x72 => 0x07 | 0x75 => 0x20
  | _ => 0

/-- What the ports and the ECAM window show of a space. -/
def showing (space : Memory) (off : UInt8) : UInt32 := space.read32 (off &&& 0xFC).toNat

theorem shows_showing (space : Memory) : Shows (showing space) space := fun _ => rfl

theorem sampleSpace_capList : CapList sampleSpace [0x40, 0x50, 0x70] where
  status := by decide
  linked := ⟨rfl, by decide, rfl, by decide, rfl, by decide, rfl⟩
  acyclic := by decide
  aligned := by simp
  placed := by simp

theorem capabilities_decoded_sampleSpace :
    CapList sampleSpace [0x40, 0x50, 0x70] ∧
    readCapabilities 0 (fun _ => 0) (showing sampleSpace) [] =
      ([⟨.msi 8 true false 0xFEE00000 0x41, 0, 0⟩, ⟨.msix 0 0x2000 8 false false, 0, 0⟩],
        [.powerManagement 3 8]) :=
  ⟨sampleSpace_capList,
    ((capabilities_decoded 0 (fun _ => 0) (showing sampleSpace) []).1 sampleSpace _
      (shows_showing sampleSpace) sampleSpace_capList).2.1.trans (by decide)⟩

end Neutrix.Pci
