import Neutrix.Devices.PciCaps
import Neutrix.Lib.FilterMap

/-!
# Neutrix — the fields of a capability

What the scan records for a power management, MSI or MSI-X structure is a
function of the fields it decodes (`recorded_showing`), and the fields can be
told from the record (`Fields.eq_of_recorded`). The fields are numbers taken
from the bytes of configuration space, for any pointer, aligned or not: a field
behind the first dword is read at the unmasked offset, from the dword that
contains it, and is cut off at the end of that dword (`tailAt`).

* `readCapabilities_showing` — the record, by the places of the pointers that
  lead to the structures.
-/

namespace Neutrix.Pci

open Neutrix.Lib

-- ---------------------------------------------------------------------------
-- Offsets and bytes
-- ---------------------------------------------------------------------------

theorem offset_facts (p : UInt8) :
    (p &&& 0xFC).toNat % 4 = 0 ∧ (p &&& 0xFC) &&& 0xFC = p &&& 0xFC ∧
    ((p + 4) &&& 0xFC = (p &&& 0xFC) + 4 ∧ (p + 4) &&& 3 = p &&& 3) ∧
    ((p + 8) &&& 0xFC = (p &&& 0xFC) + 8 ∧ (p + 8) &&& 3 = p &&& 3) ∧
    ((p &&& 3 = 0 ∧ (p + 2) &&& 0xFC = p &&& 0xFC ∧ (p + 2) &&& 3 = 2) ∨
      (p &&& 3 = 1 ∧ (p + 2) &&& 0xFC = p &&& 0xFC ∧ (p + 2) &&& 3 = 3) ∨
      (p &&& 3 = 2 ∧ (p + 2) &&& 0xFC = (p &&& 0xFC) + 4 ∧ (p + 2) &&& 3 = 0) ∨
      (p &&& 3 = 3 ∧ (p + 2) &&& 0xFC = (p &&& 0xFC) + 4 ∧ (p + 2) &&& 3 = 1)) := by
  refine forall_byte p ?_
  decide +kernel

/-- The bytes of a dword, as a number. -/
theorem toNat_showing (space : Memory) (off : UInt8) :
    (showing space off).toNat = (space (off &&& 0xFC).toNat).toNat +
      (space ((off &&& 0xFC).toNat + 1)).toNat * 2 ^ 8 +
      (space ((off &&& 0xFC).toNat + 2)).toNat * 2 ^ 16 +
      (space ((off &&& 0xFC).toNat + 3)).toNat * 2 ^ 24 :=
  Memory.toNat_read32 space _

theorem showing_congr (space : Memory) {off off' : UInt8} (h : off &&& 0xFC = off' &&& 0xFC) :
    showing space off = showing space off' := by
  rw [showing, showing, h]

theorem showing_eq_zero_iff (space : Memory) (off : UInt8) :
    showing space off = 0 ↔ space (off &&& 0xFC).toNat = 0 ∧
      space ((off &&& 0xFC).toNat + 1) = 0 ∧ space ((off &&& 0xFC).toNat + 2) = 0 ∧
      space ((off &&& 0xFC).toNat + 3) = 0 := by
  rw [← UInt32.toNat_inj, toNat_showing, ← UInt8.toNat_inj, ← UInt8.toNat_inj, ← UInt8.toNat_inj,
    ← UInt8.toNat_inj]
  simp only [UInt32.toNat_zero, UInt8.toNat_zero]
  omega

/-- The dword at `off`, from byte `off` on. -/
def tailAt (space : Memory) (off : UInt8) : Nat :=
  (showing space off).toNat / 2 ^ (8 * (off &&& 3).toNat)

theorem toNat_shifted (space : Memory) (off : UInt8) :
    (shifted (showing space) off).toNat = tailAt space off := by
  have hShift : ((off &&& 3) * 8).toUInt32.toNat = 8 * (off &&& 3).toNat ∧ (off &&& 3).toNat < 4 := by
    refine forall_byte off ?_
    decide +kernel
  rw [shifted, UInt32.toNat_shiftRight, hShift.1, Nat.mod_eq_of_lt (by omega),
    Nat.shiftRight_eq_div_pow, showing_congr space (offset_facts off).2.1, tailAt]

theorem toUInt16_shifted (space : Memory) (off : UInt8) :
    (shifted (showing space) off &&& 0xFFFF).toUInt16 = UInt16.ofNat (tailAt space off % 2 ^ 16) := by
  rw [toUInt16_and_ffff]
  apply UInt16.toNat_inj.mp
  simp [toNat_shifted]

theorem tailAt_lt (space : Memory) (off : UInt8) : tailAt space off < 2 ^ 32 := by
  rw [← toNat_shifted]
  exact UInt32.toNat_lt _

/-- The fields behind the first dword of a structure. -/
theorem tailAt_add_four (space : Memory) (p : UInt8) :
    tailAt space (p + 4) = (showing space ((p &&& 0xFC) + 4)).toNat / 2 ^ (8 * (p &&& 3).toNat) := by
  obtain ⟨-, hSelf, ⟨hBase, hLow⟩, -⟩ := offset_facts p
  have hBase' := (offset_facts (p &&& 0xFC)).2.2.1.1
  rw [hSelf] at hBase'
  rw [tailAt, hLow, showing_congr space (hBase.trans hBase'.symm)]

theorem tailAt_add_eight (space : Memory) (p : UInt8) :
    tailAt space (p + 8) = (showing space ((p &&& 0xFC) + 8)).toNat / 2 ^ (8 * (p &&& 3).toNat) := by
  obtain ⟨-, hSelf, -, ⟨hBase, hLow⟩, -⟩ := offset_facts p
  have hBase' := (offset_facts (p &&& 0xFC)).2.2.2.1.1
  rw [hSelf] at hBase'
  rw [tailAt, hLow, showing_congr space (hBase.trans hBase'.symm)]

/-- The control word: in the first dword, cut off at its end, or in the second one. -/
theorem tailAt_add_two (space : Memory) (p : UInt8) :
    (p &&& 3 = 0 ∧ tailAt space (p + 2) = (space ((p &&& 0xFC).toNat + 2)).toNat +
        (space ((p &&& 0xFC).toNat + 3)).toNat * 2 ^ 8) ∨
      (p &&& 3 = 1 ∧ tailAt space (p + 2) = (space ((p &&& 0xFC).toNat + 3)).toNat) ∨
      (p &&& 3 = 2 ∧ tailAt space (p + 2) = (showing space ((p &&& 0xFC) + 4)).toNat) ∨
      (p &&& 3 = 3 ∧ tailAt space (p + 2) = (showing space ((p &&& 0xFC) + 4)).toNat / 2 ^ 8) := by
  obtain ⟨-, hSelf, -, -, hTwo⟩ := offset_facts p
  have hBase' := (offset_facts (p &&& 0xFC)).2.2.1.1
  rw [hSelf] at hBase'
  have h0 := (space (p &&& 0xFC).toNat).toNat_lt
  have h1 := (space ((p &&& 0xFC).toNat + 1)).toNat_lt
  have h2 := (space ((p &&& 0xFC).toNat + 2)).toNat_lt
  have hFirst := toNat_showing space (p + 2)
  rcases hTwo with ⟨hLow, hBase, hTwo⟩ | ⟨hLow, hBase, hTwo⟩ | ⟨hLow, hBase, hTwo⟩ |
    ⟨hLow, hBase, hTwo⟩
  · rw [hBase] at hFirst
    refine Or.inl ⟨hLow, ?_⟩
    rw [tailAt, hTwo, hFirst]
    show _ / 2 ^ 16 = _
    omega
  · rw [hBase] at hFirst
    refine Or.inr (Or.inl ⟨hLow, ?_⟩)
    rw [tailAt, hTwo, hFirst]
    show _ / 2 ^ 24 = _
    omega
  · refine Or.inr (Or.inr (Or.inl ⟨hLow, ?_⟩))
    rw [tailAt, hTwo, showing_congr space (hBase.trans hBase'.symm)]
    exact Nat.div_one _
  · refine Or.inr (Or.inr (Or.inr ⟨hLow, ?_⟩))
    rw [tailAt, hTwo, showing_congr space (hBase.trans hBase'.symm)]
    rfl

-- ---------------------------------------------------------------------------
-- Fields
-- ---------------------------------------------------------------------------

/-- The fields of a power management, MSI or MSI-X structure. -/
inductive Fields where
  | none
  | powerManagement (pmCap pmcsr : Nat)
  | msi (multipleMessageCapable addr64 maskable addrLow addrHigh data : Nat)
  | msix (table size : Nat)

/-- The fields the scan decodes for the pointer `p`. -/
def fieldsAt (space : Memory) (p : UInt8) : Fields :=
  let ctrl := tailAt space (p + 2)
  let wide := ctrl / 2 ^ 7 % 2
  if space (p &&& 0xFC).toNat = 0x01 then
    .powerManagement ((showing space p).toNat / 2 ^ 16) (tailAt space (p + 4) % 2 ^ 16)
  else if space (p &&& 0xFC).toNat = 0x05 then
    .msi (ctrl / 2 % 8) wide (ctrl / 2 ^ 8 % 2) (tailAt space (p + 4))
      (if wide = 1 then tailAt space (p + 8) else 0)
      ((if wide = 1 then tailAt space (p + 12) else tailAt space (p + 8)) % 2 ^ 16)
  else if space (p &&& 0xFC).toNat = 0x11 then .msix (tailAt space (p + 4)) (ctrl % 2 ^ 11)
  else .none

theorem fieldsAt_of_pm {space : Memory} {p : UInt8} (hId : space (p &&& 0xFC).toNat = 0x01) :
    fieldsAt space p =
      .powerManagement ((showing space p).toNat / 2 ^ 16) (tailAt space (p + 4) % 2 ^ 16) := by
  rw [fieldsAt, if_pos hId]

theorem fieldsAt_of_msi {space : Memory} {p : UInt8} (hId : space (p &&& 0xFC).toNat = 0x05) :
    fieldsAt space p =
      .msi (tailAt space (p + 2) / 2 % 8) (tailAt space (p + 2) / 2 ^ 7 % 2)
        (tailAt space (p + 2) / 2 ^ 8 % 2) (tailAt space (p + 4))
        (if tailAt space (p + 2) / 2 ^ 7 % 2 = 1 then tailAt space (p + 8) else 0)
        ((if tailAt space (p + 2) / 2 ^ 7 % 2 = 1 then tailAt space (p + 12)
          else tailAt space (p + 8)) % 2 ^ 16) := by
  rw [fieldsAt, if_neg (by rw [hId]; decide), if_pos hId]

theorem fieldsAt_of_msix {space : Memory} {p : UInt8} (hId : space (p &&& 0xFC).toNat = 0x11) :
    fieldsAt space p = .msix (tailAt space (p + 4)) (tailAt space (p + 2) % 2 ^ 11) := by
  rw [fieldsAt, if_neg (by rw [hId]; decide), if_neg (by rw [hId]; decide), if_pos hId]

theorem pm_of_fieldsAt_eq {space : Memory} {p : UInt8} {pmCap pmcsr : Nat}
    (h : fieldsAt space p = .powerManagement pmCap pmcsr)
    (hId : space (p &&& 0xFC).toNat = 0x01) : tailAt space (p + 4) % 2 ^ 16 = pmcsr := by
  rw [fieldsAt_of_pm hId, Fields.powerManagement.injEq] at h
  exact h.2

/-- Which dword is the upper half of the address and which the message data is told from
the recorded flag. -/
theorem msi_of_fieldsAt_eq {space : Memory} {p : UInt8}
    {multipleMessageCapable addr64 maskable addrLow addrHigh data : Nat}
    (h : fieldsAt space p = .msi multipleMessageCapable addr64 maskable addrLow addrHigh data)
    (hId : space (p &&& 0xFC).toNat = 0x05) :
    tailAt space (p + 2) / 2 % 8 = multipleMessageCapable ∧
      tailAt space (p + 2) / 2 ^ 7 % 2 = addr64 ∧ tailAt space (p + 2) / 2 ^ 8 % 2 = maskable ∧
      tailAt space (p + 4) = addrLow ∧ (addr64 = 1 → tailAt space (p + 8) = addrHigh) ∧
      (if addr64 = 1 then tailAt space (p + 12) else tailAt space (p + 8)) % 2 ^ 16 = data := by
  rw [fieldsAt_of_msi hId, Fields.msi.injEq] at h
  obtain ⟨hCapable, rfl, hMaskable, hLow, hHigh, hData⟩ := h
  refine ⟨hCapable, rfl, hMaskable, hLow, fun hWide => ?_, hData⟩
  rwa [if_pos hWide] at hHigh

theorem msix_of_fieldsAt_eq {space : Memory} {p : UInt8} {table size : Nat}
    (h : fieldsAt space p = .msix table size) (hId : space (p &&& 0xFC).toNat = 0x11) :
    tailAt space (p + 4) = table ∧ tailAt space (p + 2) % 2 ^ 11 = size := by
  rwa [fieldsAt_of_msix hId, Fields.msix.injEq] at h

/-- The ids of power management, MSI and MSI-X. -/
def HasFields (id : UInt8) : Prop := id = 0x01 ∨ id = 0x05 ∨ id = 0x11

instance (id : UInt8) : Decidable (HasFields id) := inferInstanceAs (Decidable (_ ∨ _ ∨ _))

theorem fieldsAt_of_not_hasFields {space : Memory} {p : UInt8}
    (h : ¬ HasFields (space (p &&& 0xFC).toNat)) : fieldsAt space p = .none := by
  obtain ⟨hPm, hMsi, hMsix⟩ : _ ∧ _ ∧ _ := ⟨fun h1 => h (Or.inl h1), fun h5 => h (Or.inr (Or.inl h5)),
    fun h17 => h (Or.inr (Or.inr h17))⟩
  rw [fieldsAt, if_neg hPm, if_neg hMsi, if_neg hMsix]

/-- The entries of the capability list that are power management. -/
def Capability.isPowerManagement : Capability → Bool
  | .powerManagement _ _ => true
  | _ => false

/-- The entry of the capability list for these fields. -/
def Fields.entry : Fields → Option Capability
  | .powerManagement pmCap pmcsr =>
    some (.powerManagement (UInt16.ofNat pmCap) (UInt16.ofNat pmcsr))
  | _ => Option.none

/-- The table seen through the memory BAR that the table dword names. -/
def msixProbe (physOffset : UInt64) (memory : UInt64 → UInt32) (resources : List Resource)
    (table : Nat) : Bool × Bool :=
  if physOffset ≠ 0 then
    match (memoryBars resources)[table % 8]? with
    | some bar => (true, memory (physOffset + (bar.addr + (UInt32.ofNat (table / 8 * 8)).toUInt64) +
        12 - physOffset) &&& 0x1 ≠ 0)
    | Option.none => (false, false)
  else (false, false)

/-- The resource for these fields. -/
def Fields.resource (physOffset : UInt64) (memory : UInt64 → UInt32) (resources : List Resource) :
    Fields → Option Resource
  | .msi multipleMessageCapable addr64 maskable addrLow addrHigh data =>
    some ⟨.msi (UInt8.ofNat (2 ^ multipleMessageCapable)) (addr64 = 1) (maskable = 1)
      (UInt64.ofNat (addrHigh * 2 ^ 32 + addrLow)) (UInt16.ofNat data), 0, 0⟩
  | .msix table size =>
    some ⟨.msix (UInt8.ofNat (table % 8)) (UInt32.ofNat (table / 8 * 8)) (UInt16.ofNat (size + 1))
      (msixProbe physOffset memory resources table).1
      (msixProbe physOffset memory resources table).2, 0, 0⟩
  | _ => Option.none

/-- Two dwords, as one number. -/
theorem toNat_address (high low : UInt32) :
    ((high.toUInt64 <<< 32) ||| low.toUInt64).toNat = high.toNat * 2 ^ 32 + low.toNat := by
  have hHigh := high.toNat_lt
  have hLow := low.toNat_lt
  have hShift : (high.toUInt64 <<< 32).toNat = high.toNat <<< 32 := by
    rw [UInt64.toNat_shiftLeft, UInt32.toNat_toUInt64]
    refine Nat.mod_eq_of_lt ?_
    show high.toNat <<< 32 < 2 ^ 64
    rw [Nat.shiftLeft_eq]
    omega
  rw [UInt64.toNat_or, hShift, UInt32.toNat_toUInt64, ← Nat.shiftLeft_add_eq_or_of_lt hLow,
    Nat.shiftLeft_eq]

theorem msiResource_eq (space : Memory) (p : UInt8) :
    msiResource (showing space) p =
      ⟨.msi (UInt8.ofNat (2 ^ (tailAt space (p + 2) / 2 % 8)))
        (tailAt space (p + 2) / 2 ^ 7 % 2 = 1) (tailAt space (p + 2) / 2 ^ 8 % 2 = 1)
        (UInt64.ofNat ((if tailAt space (p + 2) / 2 ^ 7 % 2 = 1 then tailAt space (p + 8) else 0) *
          2 ^ 32 + tailAt space (p + 4)))
        (UInt16.ofNat ((if tailAt space (p + 2) / 2 ^ 7 % 2 = 1 then tailAt space (p + 12)
          else tailAt space (p + 8)) % 2 ^ 16)), 0, 0⟩ := by
  have hCtrl : (UInt16.ofNat (tailAt space (p + 2) % 2 ^ 16)).toNat =
      tailAt space (p + 2) % 2 ^ 16 := by
    simp
  have hVectors : tailAt space (p + 2) % 2 ^ 16 / 2 % 8 = tailAt space (p + 2) / 2 % 8 := by omega
  have h64 : UInt16.ofNat (tailAt space (p + 2) % 2 ^ 16) &&& ((1 : UInt16) <<< 7) ≠ 0 ↔
      tailAt space (p + 2) / 2 ^ 7 % 2 = 1 := by
    refine (and_bit_ne_zero _ (k := 7) (by decide)).trans ?_
    rw [hCtrl, Nat.testBit_eq_decide_div_mod_eq, decide_eq_true_iff]
    omega
  have hMaskable : UInt16.ofNat (tailAt space (p + 2) % 2 ^ 16) &&& ((1 : UInt16) <<< 8) ≠ 0 ↔
      tailAt space (p + 2) / 2 ^ 8 % 2 = 1 := by
    refine (and_bit_ne_zero _ (k := 8) (by decide)).trans ?_
    rw [hCtrl, Nat.testBit_eq_decide_div_mod_eq, decide_eq_true_iff]
    omega
  have hEight : p + 4 + 4 = p + 8 := UInt8.add_assoc p 4 4
  have hTwelve : p + 4 + 8 = p + 12 := UInt8.add_assoc p 4 8
  unfold msiResource
  dsimp only
  rw [toUInt16_shifted space (p + 2), vectors_eq, hCtrl, hVectors, hEight, hTwelve]
  simp only [h64, hMaskable]
  by_cases hWide : tailAt space (p + 2) / 2 ^ 7 % 2 = 1
  · have hAddr : ((shifted (showing space) (p + 8)).toUInt64 <<< 32) |||
        (shifted (showing space) (p + 4)).toUInt64 =
        UInt64.ofNat (tailAt space (p + 8) * 2 ^ 32 + tailAt space (p + 4)) := by
      rw [← UInt64.ofNat_toNat (x := _ ||| _), toNat_address, toNat_shifted, toNat_shifted]
    simp only [if_pos hWide, toUInt16_shifted, hAddr]
  · have hAddr : (shifted (showing space) (p + 4)).toUInt64 =
        UInt64.ofNat (0 * 2 ^ 32 + tailAt space (p + 4)) := by
      rw [Nat.zero_mul, Nat.zero_add, ← toNat_shifted, UInt64.ofNat_uInt32ToNat]
    simp only [if_neg hWide, toUInt16_shifted, hAddr]

theorem msixResource_eq (physOffset : UInt64) (memory : UInt64 → UInt32)
    (resources : List Resource) (space : Memory) (p : UInt8) :
    msixResource physOffset memory (showing space) p resources =
      ⟨.msix (UInt8.ofNat (tailAt space (p + 4) % 8)) (UInt32.ofNat (tailAt space (p + 4) / 8 * 8))
        (UInt16.ofNat (tailAt space (p + 2) % 2 ^ 11 + 1))
        (msixProbe physOffset memory resources (tailAt space (p + 4))).1
        (msixProbe physOffset memory resources (tailAt space (p + 4))).2, 0, 0⟩ := by
  have hIndex : (UInt8.ofNat (tailAt space (p + 4) % 8)).toNat = tailAt space (p + 4) % 8 := by
    rw [UInt8.toNat_ofNat']
    omega
  unfold msixResource
  dsimp only
  rw [bir_eq, tableSize_eq, and_fffffff8, toNat_shifted, toNat_shifted, hIndex]
  rfl

/-- What is recorded depends on the fields only. -/
theorem recorded_showing (physOffset : UInt64) (memory : UInt64 → UInt32)
    (resources : List Resource) (space : Memory) (p : UInt8) :
    capResource physOffset memory (showing space) resources p =
        (fieldsAt space p).resource physOffset memory resources ∧
      (capEntry (showing space) p).filter Capability.isPowerManagement =
        (fieldsAt space p).entry := by
  have hDword : showing space (p &&& 0xFC) = showing space p :=
    showing_congr space (offset_facts p).2.1
  have hId : capId (showing space) p = space (p &&& 0xFC).toNat := by
    rw [capId, hDword]
    exact Memory.byte0_read32 space _
  have hCap : ((showing space p >>> 16) &&& 0xFFFF).toUInt16 =
      UInt16.ofNat ((showing space p).toNat / 2 ^ 16) := by
    rw [toUInt16_and_ffff]
    apply UInt16.toNat_inj.mp
    simp [Nat.shiftRight_eq_div_pow]
  unfold capResource capEntry fieldsAt
  rw [hId, hDword, hCap, toUInt16_shifted, msiResource_eq, msixResource_eq]
  dsimp only
  by_cases hPm : space (p &&& 0xFC).toNat = 0x01
  · rw [if_pos hPm, hPm]
    exact ⟨rfl, rfl⟩
  by_cases hMsi : space (p &&& 0xFC).toNat = 0x05
  · rw [if_neg hPm, if_pos hMsi, hMsi]
    exact ⟨rfl, rfl⟩
  by_cases hMsix : space (p &&& 0xFC).toNat = 0x11
  · rw [if_neg hPm, if_neg hMsi, if_pos hMsix, hMsix]
    exact ⟨rfl, rfl⟩
  · rw [if_neg hPm, if_neg hMsi, if_neg hMsix]
    -- no other id has fields
    constructor
    · split <;> first | rfl | contradiction
    · split <;> first | rfl | contradiction

/-- The widths of the fields. -/
def Fields.InRange : Fields → Prop
  | .none => True
  | .powerManagement pmCap pmcsr => pmCap < 2 ^ 16 ∧ pmcsr < 2 ^ 16
  | .msi multipleMessageCapable addr64 maskable addrLow addrHigh data =>
    multipleMessageCapable < 8 ∧ addr64 < 2 ∧ maskable < 2 ∧ addrLow < 2 ^ 32 ∧ addrHigh < 2 ^ 32 ∧
      data < 2 ^ 16
  | .msix table size => table < 2 ^ 32 ∧ size < 2 ^ 11

theorem fieldsAt_inRange (space : Memory) (p : UInt8) : (fieldsAt space p).InRange := by
  have hDword := (showing space p).toNat_lt
  have hFour := tailAt_lt space (p + 4)
  have hEight := tailAt_lt space (p + 8)
  unfold fieldsAt
  dsimp only
  split_ifs <;> simp only [Fields.InRange] <;> omega

/-- Fields in range can be told from what is recorded for them. -/
theorem Fields.eq_of_recorded {physOffset : UInt64} {memory : UInt64 → UInt32}
    {resources : List Resource} {f g : Fields} (hf : f.InRange) (hg : g.InRange)
    (hRes : f.resource physOffset memory resources = g.resource physOffset memory resources)
    (hEntry : f.entry = g.entry) : f = g := by
  cases f <;> cases g <;>
    simp only [Fields.resource, Fields.entry, Option.some.injEq, reduceCtorEq,
      Resource.mk.injEq, ResourceKind.msi.injEq, ResourceKind.msix.injEq,
      Capability.powerManagement.injEq, ← UInt16.toNat_inj, ← UInt32.toNat_inj, ← UInt64.toNat_inj,
      UInt16.toNat_ofNat', UInt32.toNat_ofNat', UInt64.toNat_ofNat', decide_eq_decide,
      false_and] at hRes hEntry
  case none.none => rfl
  case powerManagement.powerManagement =>
    obtain ⟨hCap, hCsr⟩ := hf
    obtain ⟨hCap', hCsr'⟩ := hg
    rw [Fields.powerManagement.injEq]
    omega
  case msi.msi m a k lo hi d m' a' k' lo' hi' d' =>
    obtain ⟨⟨hVectors, h64, hMaskable, hAddr, hData⟩, -⟩ := hRes
    obtain ⟨hm, ha, hk, hLo, hHi, hd⟩ := hf
    obtain ⟨hm', ha', hk', hLo', hHi', hd'⟩ := hg
    have hPow : ∀ m < 8, ∀ m' < 8, UInt8.ofNat (2 ^ m) = UInt8.ofNat (2 ^ m') → m = m' := by decide
    have hCapable := hPow m hm m' hm' hVectors
    rw [Fields.msi.injEq]
    omega
  case msix.msix =>
    obtain ⟨hTable, hSize⟩ := hf
    obtain ⟨hTable', hSize'⟩ := hg
    obtain ⟨⟨hBir, hOffset, hCount, -⟩, -⟩ := hRes
    rw [← UInt8.toNat_inj, UInt8.toNat_ofNat', UInt8.toNat_ofNat'] at hBir
    rw [Fields.msix.injEq]
    omega

theorem isSome_resource (physOffset : UInt64) (memory : UInt64 → UInt32)
    (resources : List Resource) (space : Memory) (p : UInt8) :
    ((fieldsAt space p).resource physOffset memory resources).isSome ↔
      space (p &&& 0xFC).toNat = 0x05 ∨ space (p &&& 0xFC).toNat = 0x11 := by
  unfold fieldsAt
  dsimp only
  split_ifs with hPm hMsi hMsix <;> simp_all [Fields.resource]

theorem isSome_entry (space : Memory) (p : UInt8) :
    (fieldsAt space p).entry.isSome ↔ space (p &&& 0xFC).toNat = 0x01 := by
  unfold fieldsAt
  dsimp only
  split_ifs with hPm hMsi hMsix <;> simp_all [Fields.entry]

-- ---------------------------------------------------------------------------
-- The chain
-- ---------------------------------------------------------------------------

/-- The places of the pointers the loop follows. -/
def pointerPlaces (space : Memory) : Nat → Nat → List Nat
  | 0, _ => []
  | left + 1, a =>
    if space a = 0 then [] else a :: pointerPlaces space left ((space a &&& 0xFC).toNat + 1)

theorem capVisits_showing (space : Memory) (left a : Nat) :
    capVisits (showing space) left (space a) =
      (pointerPlaces space left a).map fun a => space a := by
  induction left generalizing a with
  | zero => rfl
  | succ left ih =>
    have hNext : nextPtr (showing space) (space a) = space ((space a &&& 0xFC).toNat + 1) := by
      rw [nextPtr, showing_congr space (offset_facts (space a)).2.1]
      exact Memory.byte1_read32 space _
    rw [capVisits, pointerPlaces, hNext, ih]
    split_ifs <;> rfl

theorem mem_capVisits {space : Memory} {p : UInt8} :
    p ∈ capVisits (showing space) 48 (space 0x34) ↔
      ∃ a ∈ pointerPlaces space 48 0x34, space a = p := by
  rw [capVisits_showing]
  exact List.mem_map

section Records

variable (physOffset : UInt64) (memory : UInt64 → UInt32) (resources : List Resource)

theorem filterMap_recorded (space : Memory) (places : List Nat) :
    (places.map fun a => space a).filterMap
        (capResource physOffset memory (showing space) resources) =
      places.filterMap (fun a => (fieldsAt space (space a)).resource physOffset memory resources) ∧
    ((places.map fun a => space a).filterMap (capEntry (showing space))).filter
        Capability.isPowerManagement =
      places.filterMap (fun a => (fieldsAt space (space a)).entry) := by
  have hMap : ∀ {β : Type} (f : UInt8 → Option β),
      (places.map fun a => space a).filterMap f = places.filterMap fun a => f (space a) :=
    fun f => List.filterMap_map
  rw [List.filter_filterMap, hMap, hMap]
  exact ⟨List.filterMap_congr fun a _ =>
      (recorded_showing physOffset memory resources space (space a)).1,
    List.filterMap_congr fun a _ =>
      (recorded_showing physOffset memory resources space (space a)).2⟩

theorem readCapabilities_showing {space : Memory} (hList : HasCapList (showing space)) :
    (readCapabilities physOffset memory (showing space) resources).1 =
        resources ++ (pointerPlaces space 48 0x34).filterMap
          (fun a => (fieldsAt space (space a)).resource physOffset memory resources) ∧
      (readCapabilities physOffset memory (showing space) resources).2.filter
          Capability.isPowerManagement =
        (pointerPlaces space 48 0x34).filterMap (fun a => (fieldsAt space (space a)).entry) := by
  have hPtr : (showing space 0x34 &&& 0xFF).toUInt8 = space 0x34 := by
    rw [shows_showing space 0x34]
    exact Memory.byte0_read32 space 0x34
  obtain ⟨hRes, hEntry⟩ :=
    filterMap_recorded physOffset memory resources space (pointerPlaces space 48 0x34)
  rw [readCapabilities_of_hasCapList hList, capLoop_eq, hPtr, capVisits_showing, hRes]
  dsimp only
  rw [List.nil_append, hEntry]
  exact ⟨rfl, rfl⟩

end Records

end Neutrix.Pci
