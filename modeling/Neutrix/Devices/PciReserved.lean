import Neutrix.Devices.PciFields
import Neutrix.Lib.FilterMap

/-!
# Neutrix — the reserved bits of capability pointers

The two low bits of a capability pointer are reserved and to be ignored. The
scan masks them off where it looks for the structure, but not where it reads
the fields behind the first dword: these are taken from the dword that the
unmasked offset points into, shifted by the reserved bits. So a set reserved bit
moves the fields by bytes.

A structure does not notice if it has zeros in all places its fields can be
moved to (`ZeroFields`). Two more things can happen on chains that lead through
the header. A pointer below 4 makes the header itself a structure, with the
pointer bytes of others among its fields. And the structure at 0x34 has the
capabilities pointer as its id.

* `reserved_bits_ignored_iff` — the spaces on which no change of reserved bits
  changes what is recorded.
-/

namespace Neutrix.Pci

open Neutrix.Lib

-- ---------------------------------------------------------------------------
-- Changed pointers
-- ---------------------------------------------------------------------------

/-- A pointer of the chain: the capabilities pointer, or the second byte of a visited
structure. -/
def PointerAt (space : Memory) (a : Nat) : Prop :=
  a = 0x34 ∨ ∃ p ∈ capVisits (showing space) 48 (space 0x34), a = (p &&& 0xFC).toNat + 1

/-- A pointer with something in its upper six bits. -/
def Changeable (space : Memory) (a : Nat) : Prop := PointerAt space a ∧ space a &&& 0xFC ≠ 0

/-- The spaces differ in the reserved bits of such pointers only. -/
def ReservedChanged (space space' : Memory) : Prop :=
  ∀ a, space' a = space a ∨ Changeable space a ∧ space' a &&& 0xFC = space a &&& 0xFC

/-- Both spaces give the same MSI and MSI-X resources and the same power management
entries. -/
def SameRecord (physOffset : UInt64) (memory : UInt64 → UInt32) (resources : List Resource)
    (space space' : Memory) : Prop :=
  let before := readCapabilities physOffset memory (showing space) resources
  let after := readCapabilities physOffset memory (showing space') resources
  after.1 = before.1 ∧
    after.2.filter Capability.isPowerManagement = before.2.filter Capability.isPowerManagement

/-- Zeros in all places the fields of the structure at `b` can be moved to. -/
structure ZeroFields (space : Memory) (b : UInt8) : Prop where
  pm   : space b.toNat = 0x01 → showing space (b + 4) = 0
  /-- the capable, 64-bit and maskable bits, also when read one byte further on -/
  msi  : space b.toNat = 0x05 →
           (space (b.toNat + 2) &&& 0x8E = 0 ∧ space (b.toNat + 3) &&& 0x8F = 0) ∧
             showing space (b + 4) = 0 ∧ showing space (b + 8) = 0
  msix : space b.toNat = 0x11 →
           (space (b.toNat + 2) = 0 ∧ space (b.toNat + 3) = 0) ∧ showing space (b + 4) = 0

/-- The offsets at which the fields of the structure at `p` are read. -/
def fieldOffsets (space : Memory) (p : UInt8) : List UInt8 :=
  if space (p &&& 0xFC).toNat = 0x01 then [p + 4]
  else if space (p &&& 0xFC).toNat = 0x05 then
    [p + 2, p + 4, p + 8] ++ if tailAt space (p + 2) / 2 ^ 7 % 2 = 1 then [p + 12] else []
  else if space (p &&& 0xFC).toNat = 0x11 then [p + 2, p + 4]
  else []

/-- What makes the reserved bits irrelevant. -/
structure IgnoresReserved (space : Memory) : Prop where
  /-- structures have zeros wherever their fields can be moved to -/
  zero    : ∀ p ∈ capVisits (showing space) 48 (space 0x34), p &&& 0xFC ≠ 0 →
              ZeroFields space (p &&& 0xFC)
  /-- if the header is taken for a structure, no changeable pointer is in its fields -/
  header  : ∀ p ∈ capVisits (showing space) 48 (space 0x34), p &&& 0xFC = 0 →
              ∀ off ∈ fieldOffsets space p, off &&& 3 ≤ 1 →
                ¬ Changeable space ((off &&& 0xFC).toNat + 1)
  /-- if 0x34 is taken for a structure, its id cannot become that of MSI or MSI-X -/
  pointer : ∀ p ∈ capVisits (showing space) 48 (space 0x34), p &&& 0xFC = 0x34 →
              space 0x34 &&& 0xFC ≠ 0x04 ∧ space 0x34 &&& 0xFC ≠ 0x10

-- ---------------------------------------------------------------------------
-- What stays
-- ---------------------------------------------------------------------------

/-- The places followed are places of pointers. -/
theorem pointerAt_of_mem {space : Memory} {left a b : Nat}
    (hSub : ∀ c ∈ pointerPlaces space left a, c ∈ pointerPlaces space 48 0x34)
    (ha : PointerAt space a) (hb : b ∈ pointerPlaces space left a) : PointerAt space b := by
  induction left generalizing a with
  | zero => cases hb
  | succ left ih =>
    rw [pointerPlaces] at hb hSub
    split_ifs at hb hSub with hEnd
    · cases hb
    · rcases List.mem_cons.mp hb with rfl | hRest
      · exact ha
      · refine ih (fun c hc => hSub c (List.mem_cons_of_mem a hc)) (Or.inr ?_) hRest
        exact ⟨space a, mem_capVisits.mpr ⟨a, hSub a List.mem_cons_self, rfl⟩, rfl⟩

theorem PointerAt.place {space : Memory} {a : Nat} (h : PointerAt space a) :
    a = 0x34 ∨ a % 4 = 1 := by
  rcases h with h | ⟨p, -, rfl⟩
  · exact Or.inl h
  · have hAligned := (offset_facts p).1
    omega

section Changed

variable {space space' : Memory} (h : ReservedChanged space space')
include h

theorem ReservedChanged.upper (a : Nat) : space' a &&& 0xFC = space a &&& 0xFC := by
  rcases h a with hSame | hChanged
  · rw [hSame]
  · exact hChanged.2

theorem ReservedChanged.of_not_changeable {a : Nat} (ha : ¬ Changeable space a) :
    space' a = space a :=
  (h a).resolve_right fun hChanged => ha hChanged.1

theorem ReservedChanged.of_place {a : Nat} (h34 : a ≠ 0x34) (hOne : a % 4 ≠ 1) :
    space' a = space a :=
  h.of_not_changeable fun ha => ha.1.place.elim h34 hOne

theorem ReservedChanged.of_upper {a : Nat} (ha : space a &&& 0xFC = 0) : space' a = space a :=
  h.of_not_changeable fun hChange => hChange.2 ha

theorem ReservedChanged.eq_zero_iff (a : Nat) : space' a = 0 ↔ space a = 0 := by
  constructor
  · intro hZero
    have hUpper := h.upper a
    rw [hZero] at hUpper
    rw [← h.of_upper hUpper.symm, hZero]
  · intro hZero
    rw [h.of_upper (by rw [hZero]; rfl), hZero]

/-- The loop follows the pointers at the same places. -/
theorem ReservedChanged.pointerPlaces_eq (left a : Nat) :
    pointerPlaces space' left a = pointerPlaces space left a := by
  induction left generalizing a with
  | zero => rfl
  | succ left ih => simp only [pointerPlaces, h.upper, h.eq_zero_iff, ih]

theorem ReservedChanged.hasCapList (hList : HasCapList (showing space)) :
    HasCapList (showing space') := by
  have hSix : space' 6 = space 6 := h.of_place (by decide) (by decide)
  have hSeven : space' 7 = space 7 := h.of_place (by decide) (by decide)
  have hWord : ∀ s : Memory, (showing s 0x04 >>> 16).toNat = (s 6).toNat + (s 7).toNat * 2 ^ 8 := by
    intro s
    have h4 := (s 4).toNat_lt
    have h5 := (s 5).toNat_lt
    have hDword : (showing s 0x04).toNat = (s 4).toNat + (s 5).toNat * 2 ^ 8 +
        (s 6).toNat * 2 ^ 16 + (s 7).toNat * 2 ^ 24 := toNat_showing s 0x04
    rw [UInt32.toNat_shiftRight, hDword]
    show _ >>> 16 = _
    rw [Nat.shiftRight_eq_div_pow]
    omega
  have hSame : showing space' 0x04 >>> 16 = showing space 0x04 >>> 16 := by
    apply UInt32.toNat_inj.mp
    rw [hWord, hWord, hSix, hSeven]
  unfold HasCapList at hList ⊢
  rwa [hSame]

end Changed

-- ---------------------------------------------------------------------------
-- Records, place by place
-- ---------------------------------------------------------------------------

/-- The records of two spaces are compared place by place. -/
theorem sameRecord_iff (physOffset : UInt64) (memory : UInt64 → UInt32)
    (resources : List Resource) {space space' : Memory} (hList : HasCapList (showing space))
    (h : ReservedChanged space space') :
    SameRecord physOffset memory resources space space' ↔
      (pointerPlaces space 48 0x34).filterMap
          (fun a => (fieldsAt space' (space' a)).resource physOffset memory resources) =
        (pointerPlaces space 48 0x34).filterMap
          (fun a => (fieldsAt space (space a)).resource physOffset memory resources) ∧
      (pointerPlaces space 48 0x34).filterMap (fun a => (fieldsAt space' (space' a)).entry) =
        (pointerPlaces space 48 0x34).filterMap (fun a => (fieldsAt space (space a)).entry) := by
  obtain ⟨hRes, hEntry⟩ := readCapabilities_showing physOffset memory resources hList
  obtain ⟨hRes', hEntry'⟩ :=
    readCapabilities_showing physOffset memory resources (h.hasCapList hList)
  unfold SameRecord
  dsimp only
  rw [hRes, hEntry, hRes', hEntry', h.pointerPlaces_eq, List.append_cancel_left_eq]

-- ---------------------------------------------------------------------------
-- Ids
-- ---------------------------------------------------------------------------

theorem upper_of_hasFields {id : UInt8} (h : HasFields id) :
    id &&& 0xFC = 0 ∨ id &&& 0xFC = 0x04 ∨ id &&& 0xFC = 0x10 := by
  rcases h with rfl | rfl | rfl <;> decide

/-- Only the structure at 0x34 can change its id, and it gets no fields by that if it
cannot get the id of MSI or MSI-X. -/
theorem ReservedChanged.id_eq {space space' : Memory} (h : ReservedChanged space space')
    {b : UInt8} (hAligned : b.toNat % 4 = 0)
    (hPointer : b = 0x34 → space 0x34 &&& 0xFC ≠ 0x04 ∧ space 0x34 &&& 0xFC ≠ 0x10) :
    space' b.toNat = space b.toNat ∨
      ¬ HasFields (space' b.toNat) ∧ ¬ HasFields (space b.toNat) := by
  by_cases hb : b.toNat = 0x34
  · have hUpper := h.upper 0x34
    rw [hb]
    refine (h 0x34).imp_right fun hChanged => ?_
    obtain ⟨hFour, hSixteen⟩ := hPointer (UInt8.toNat_inj.mp hb)
    have hNot : ∀ id : UInt8, id &&& 0xFC = space 0x34 &&& 0xFC → ¬ HasFields id := by
      intro id hId hFields
      rcases upper_of_hasFields hFields with hZero | hOther | hOther
      · exact hChanged.1.2 (hId.symm.trans hZero)
      · exact hFour (hId.symm.trans hOther)
      · exact hSixteen (hId.symm.trans hOther)
    exact ⟨hNot _ hUpper, hNot _ rfl⟩
  · exact Or.inl (h.of_place hb (by omega))

-- ---------------------------------------------------------------------------
-- One changed pointer
-- ---------------------------------------------------------------------------

/-- The pointer with other reserved bits. -/
def withLow (ptr : UInt8) (low : Nat) : UInt8 := (ptr &&& 0xFC) ||| UInt8.ofNat low

theorem withLow_facts (ptr : UInt8) : ∀ low < 4, withLow ptr low &&& 0xFC = ptr &&& 0xFC ∧
    (withLow ptr low &&& 3).toNat = low ∧
    (withLow ptr low).toNat = (ptr &&& 0xFC).toNat + low := by
  refine forall_byte ptr ?_
  decide +kernel

/-- With the reserved bits 0 such a pointer is not the id of MSI or MSI-X, with 1 it is. -/
theorem withLow_ids {ptr : UInt8} (h : ptr &&& 0xFC = 0x04 ∨ ptr &&& 0xFC = 0x10) :
    ¬ (withLow ptr 0 = 0x05 ∨ withLow ptr 0 = 0x11) ∧
      (withLow ptr 1 = 0x05 ∨ withLow ptr 1 = 0x11) := by
  unfold withLow
  rcases h with hFour | hSixteen
  · rw [hFour]
    decide
  · rw [hSixteen]
    decide

/-- The space with other reserved bits in the pointer at `a`. -/
def changedAt (space : Memory) (a low : Nat) : Memory := space.write8 a (withLow (space a) low)

theorem changedAt_self (space : Memory) (a low : Nat) :
    changedAt space a low a = withLow (space a) low := if_pos rfl

theorem changedAt_of_ne (space : Memory) {a b : Nat} (low : Nat) (h : b ≠ a) :
    changedAt space a low b = space b := if_neg h

theorem reservedChanged_changedAt {space : Memory} {a low : Nat} (ha : Changeable space a)
    (hLow : low < 4) : ReservedChanged space (changedAt space a low) := by
  intro b
  by_cases hb : b = a
  · subst hb
    rw [changedAt_self]
    exact Or.inr ⟨ha, (withLow_facts (space b) low hLow).1⟩
  · exact Or.inl (changedAt_of_ne space low hb)

-- ---------------------------------------------------------------------------
-- Place by place
-- ---------------------------------------------------------------------------

/-- No pointer of the chain changes the fields it leads to. -/
def FieldsKept (space : Memory) : Prop :=
  ∀ space', ReservedChanged space space' → ∀ a ∈ pointerPlaces space 48 0x34,
    fieldsAt space' (space' a) = fieldsAt space (space a)

section Kept

variable {physOffset : UInt64} {memory : UInt64 → UInt32} {resources : List Resource}
  {space : Memory} (hList : HasCapList (showing space))
include hList

/-- A structure at 0x34 that can become MSI or MSI-X, and back, adds a resource. -/
theorem pointer_of_sameRecord
    (hSame : ∀ space', ReservedChanged space space' →
      SameRecord physOffset memory resources space space')
    {a : Nat} (ha : a ∈ pointerPlaces space 48 0x34) (hBase : space a &&& 0xFC = 0x34) :
    space 0x34 &&& 0xFC ≠ 0x04 ∧ space 0x34 &&& 0xFC ≠ 0x10 := by
  rw [← not_or]
  intro hUpper
  have hChangeable : Changeable space 0x34 := by
    refine ⟨Or.inl rfl, fun hZero => ?_⟩
    rw [hZero] at hUpper
    exact absurd hUpper (by decide)
  have hChanged : ∀ low < 4, ReservedChanged space (changedAt space 0x34 low) :=
    fun low hLow => reservedChanged_changedAt hChangeable hLow
  have hRes := fun low (hLow : low < 4) =>
    ((sameRecord_iff physOffset memory resources hList (hChanged low hLow)).mp
      (hSame _ (hChanged low hLow))).1
  have hPlace : ∀ low < 4, ∀ b, changedAt space 0x34 low b &&& 0xFC = space b &&& 0xFC :=
    fun low hLow b => (hChanged low hLow).upper b
  obtain ⟨hPlain, hFields⟩ := withLow_ids hUpper
  have hLt : ((pointerPlaces space 48 0x34).filterMap fun b =>
        (fieldsAt (changedAt space 0x34 0) (changedAt space 0x34 0 b)).resource physOffset memory
          resources).length <
      ((pointerPlaces space 48 0x34).filterMap fun b =>
        (fieldsAt (changedAt space 0x34 1) (changedAt space 0x34 1 b)).resource physOffset memory
          resources).length := by
    refine length_filterMap_lt (fun b _ hSome => ?_) ha ?_ ?_
    · rw [isSome_resource, hPlace _ (by decide)] at hSome ⊢
      by_cases hb34 : (space b &&& 0xFC).toNat = 0x34
      · rw [hb34, changedAt_self] at hSome
        exact absurd hSome hPlain
      · rwa [changedAt_of_ne space _ hb34] at hSome ⊢
    · rw [← Option.not_isSome_iff_eq_none, isSome_resource, hPlace _ (by decide), hBase]
      exact hPlain
    · rw [isSome_resource, hPlace _ (by decide), hBase]
      exact hFields
  rw [hRes 0 (by decide), hRes 1 (by decide)] at hLt
  exact Nat.lt_irrefl _ hLt

/-- The records are the same if and only if the fields are, place by place. -/
theorem sameRecord_iff_fieldsKept :
    (∀ space', ReservedChanged space space' →
        SameRecord physOffset memory resources space space') ↔
      (∀ a ∈ pointerPlaces space 48 0x34, space a &&& 0xFC = 0x34 →
        space 0x34 &&& 0xFC ≠ 0x04 ∧ space 0x34 &&& 0xFC ≠ 0x10) ∧ FieldsKept space := by
  constructor
  · intro hSame
    have hPointer : ∀ a ∈ pointerPlaces space 48 0x34, space a &&& 0xFC = 0x34 →
        space 0x34 &&& 0xFC ≠ 0x04 ∧ space 0x34 &&& 0xFC ≠ 0x10 :=
      fun a ha hBase => pointer_of_sameRecord hList hSame ha hBase
    refine ⟨hPointer, fun space' h a ha => ?_⟩
    obtain ⟨hRes, hEntry⟩ :=
      (sameRecord_iff physOffset memory resources hList h).mp (hSame space' h)
    -- the ids with fields are the same, so the lists can be compared place by place
    have hId : ∀ b ∈ pointerPlaces space 48 0x34, ∀ id : UInt8, HasFields id →
        (space' (space' b &&& 0xFC).toNat = id ↔ space (space b &&& 0xFC).toNat = id) := by
      intro b hb id hFields
      rw [h.upper]
      rcases h.id_eq (offset_facts (space b)).1 (hPointer b hb) with hEq | ⟨hNot, hNot'⟩
      · rw [hEq]
      · exact ⟨fun hEq => absurd (hEq ▸ hFields) hNot, fun hEq => absurd (hEq ▸ hFields) hNot'⟩
    refine Fields.eq_of_recorded (fieldsAt_inRange _ _) (fieldsAt_inRange _ _)
      ((filterMap_eq_iff fun b hb => ?_).mp hRes a ha)
      ((filterMap_eq_iff fun b hb => ?_).mp hEntry a ha)
    · rw [Bool.eq_iff_iff, isSome_resource, isSome_resource, hId b hb 0x05 (by decide),
        hId b hb 0x11 (by decide)]
    · rw [Bool.eq_iff_iff, isSome_entry, isSome_entry, hId b hb 0x01 (by decide)]
  · rintro ⟨-, hKept⟩ space' h
    refine (sameRecord_iff physOffset memory resources hList h).mpr ⟨?_, ?_⟩
    · exact List.filterMap_congr fun a ha => congrArg _ (hKept space' h a ha)
    · exact List.filterMap_congr fun a ha => congrArg Fields.entry (hKept space' h a ha)

end Kept

-- ---------------------------------------------------------------------------
-- Zeros hide the reserved bits
-- ---------------------------------------------------------------------------

/-- The bits of the two control bytes that are read with either alignment. -/
theorem msiCtrl_zero_iff (lower upper : UInt8) :
    lower &&& 0x8E = 0 ∧ upper &&& 0x8F = 0 ↔
      (lower.toNat / 2 % 8 = 0 ∧ lower.toNat / 2 ^ 7 = 0) ∧
        upper.toNat % 2 = 0 ∧ upper.toNat / 2 % 8 = 0 ∧ upper.toNat / 2 ^ 7 = 0 := by
  have hLower : lower &&& 0x8E = 0 ↔ lower.toNat / 2 % 8 = 0 ∧ lower.toNat / 2 ^ 7 = 0 := by
    refine forall_byte lower ?_
    decide +kernel
  have hUpper : upper &&& 0x8F = 0 ↔
      upper.toNat % 2 = 0 ∧ upper.toNat / 2 % 8 = 0 ∧ upper.toNat / 2 ^ 7 = 0 := by
    refine forall_byte upper ?_
    decide +kernel
  rw [hLower, hUpper]

/-- The fields of such a structure, whatever the reserved bits of the pointer are. -/
theorem ZeroFields.fieldsAt_eq {space : Memory} {p : UInt8} (h : ZeroFields space (p &&& 0xFC)) :
    fieldsAt space p =
      if space (p &&& 0xFC).toNat = 0x01 then
        .powerManagement ((showing space p).toNat / 2 ^ 16) 0
      else if space (p &&& 0xFC).toNat = 0x05 then .msi 0 0 0 0 0 0
      else if space (p &&& 0xFC).toNat = 0x11 then .msix 0 0
      else .none := by
  have hFour : showing space ((p &&& 0xFC) + 4) = 0 → tailAt space (p + 4) = 0 := by
    intro hZero
    rw [tailAt_add_four, hZero]
    exact Nat.zero_div _
  unfold fieldsAt
  dsimp only
  by_cases hPm : space (p &&& 0xFC).toNat = 0x01
  · rw [if_pos hPm, if_pos hPm, hFour (h.pm hPm), Nat.zero_mod]
  rw [if_neg hPm, if_neg hPm]
  by_cases hMsi : space (p &&& 0xFC).toNat = 0x05
  · obtain ⟨hCtrl, hAddr, hData⟩ := h.msi hMsi
    have hEight : tailAt space (p + 8) = 0 := by
      rw [tailAt_add_eight, hData]
      exact Nat.zero_div _
    have hBits : tailAt space (p + 2) / 2 % 8 = 0 ∧ tailAt space (p + 2) / 2 ^ 7 % 2 = 0 ∧
        tailAt space (p + 2) / 2 ^ 8 % 2 = 0 := by
      have hBytes := (msiCtrl_zero_iff _ _).mp hCtrl
      have hSecond : (showing space ((p &&& 0xFC) + 4)).toNat = 0 := by rw [hAddr]; rfl
      have hTwo := tailAt_add_two space p
      rw [hSecond] at hTwo
      omega
    rw [if_pos hMsi, if_pos hMsi, hBits.1, hBits.2.1, hBits.2.2, hFour hAddr, hEight]
    rfl
  rw [if_neg hMsi, if_neg hMsi]
  by_cases hMsix : space (p &&& 0xFC).toNat = 0x11
  · obtain ⟨⟨hLower, hUpper⟩, hTable⟩ := h.msix hMsix
    have hSize : tailAt space (p + 2) = 0 := by
      have hSecond : (showing space ((p &&& 0xFC) + 4)).toNat = 0 := by rw [hTable]; rfl
      have hTwo := tailAt_add_two space p
      rw [hSecond, hLower, hUpper, UInt8.toNat_zero] at hTwo
      omega
    rw [if_pos hMsix, if_pos hMsix, hFour hTable, hSize]
    rfl
  · rw [if_neg hMsix, if_neg hMsix]

section Hidden

variable {space space' : Memory} (h : ReservedChanged space space')
include h

theorem ReservedChanged.showing_eq_zero (off : UInt8) :
    showing space' off = 0 ↔ showing space off = 0 := by
  rw [showing_eq_zero_iff, showing_eq_zero_iff, h.eq_zero_iff, h.eq_zero_iff, h.eq_zero_iff,
    h.eq_zero_iff]

/-- The upper half of a dword holds no pointers. -/
theorem ReservedChanged.upper_half {b : Nat} (hAligned : b % 4 = 0) :
    space' (b + 2) = space (b + 2) ∧ space' (b + 3) = space (b + 3) :=
  ⟨h.of_place (by omega) (by omega), h.of_place (by omega) (by omega)⟩

theorem ReservedChanged.zeroFields {b : UInt8} (hAligned : b.toNat % 4 = 0)
    (hId : space' b.toNat = space b.toNat) (hZero : ZeroFields space b) : ZeroFields space' b := by
  obtain ⟨hTwo, hThree⟩ := h.upper_half hAligned
  refine ⟨fun hPm => ?_, fun hMsi => ?_, fun hMsix => ?_⟩
  · exact (h.showing_eq_zero _).mpr (hZero.pm (hId.symm.trans hPm))
  · obtain ⟨hCtrl, hAddr, hData⟩ := hZero.msi (hId.symm.trans hMsi)
    rw [hTwo, hThree]
    exact ⟨hCtrl, (h.showing_eq_zero _).mpr hAddr, (h.showing_eq_zero _).mpr hData⟩
  · obtain ⟨hCtrl, hTable⟩ := hZero.msix (hId.symm.trans hMsix)
    rw [hTwo, hThree]
    exact ⟨hCtrl, (h.showing_eq_zero _).mpr hTable⟩

theorem ReservedChanged.half_eq {p p' : UInt8} (hBase : p' &&& 0xFC = p &&& 0xFC) :
    (showing space' p').toNat / 2 ^ 16 = (showing space p).toNat / 2 ^ 16 := by
  obtain ⟨hTwo, hThree⟩ := h.upper_half (offset_facts p).1
  have h0 := (space (p &&& 0xFC).toNat).toNat_lt
  have h1 := (space ((p &&& 0xFC).toNat + 1)).toNat_lt
  have h0' := (space' (p &&& 0xFC).toNat).toNat_lt
  have h1' := (space' ((p &&& 0xFC).toNat + 1)).toNat_lt
  rw [toNat_showing, toNat_showing, hBase, hTwo, hThree]
  omega

theorem ReservedChanged.fieldsAt_of_zeroFields {p p' : UInt8}
    (hBase : p' &&& 0xFC = p &&& 0xFC) (hId : space' (p &&& 0xFC).toNat = space (p &&& 0xFC).toNat)
    (hZero : ZeroFields space (p &&& 0xFC)) : fieldsAt space' p' = fieldsAt space p := by
  have hZero' : ZeroFields space' (p' &&& 0xFC) := by
    rw [hBase]
    exact h.zeroFields (offset_facts p).1 hId hZero
  rw [hZero.fieldsAt_eq, hZero'.fieldsAt_eq, hBase, hId, h.half_eq hBase]

/-- What is read from `off` on is the same if there is no changeable pointer in it. -/
theorem ReservedChanged.tailAt_eq {off : UInt8} (h34 : off &&& 0xFC ≠ 0x34)
    (hNot : off &&& 3 ≤ 1 → ¬ Changeable space ((off &&& 0xFC).toNat + 1)) :
    tailAt space' off = tailAt space off := by
  have hAligned := (offset_facts off).1
  have h34' : (off &&& 0xFC).toNat ≠ 0x34 := fun hEq => h34 (UInt8.toNat_inj.mp hEq)
  have hFirst : space' (off &&& 0xFC).toNat = space (off &&& 0xFC).toNat :=
    h.of_place h34' (by omega)
  obtain ⟨hTwo, hThree⟩ := h.upper_half hAligned
  by_cases hLow : off &&& 3 ≤ 1
  · have hSecond := h.of_not_changeable (hNot hLow)
    rw [tailAt, tailAt, toNat_showing, toNat_showing, hFirst, hSecond, hTwo, hThree]
  · -- the second byte is cut off
    have hCut : 2 ≤ (off &&& 3).toNat ∧ (off &&& 3).toNat ≤ 3 := by
      clear * - hLow
      revert hLow
      refine forall_byte off ?_
      decide +kernel
    have h0 := (space (off &&& 0xFC).toNat).toNat_lt
    have h1 := (space ((off &&& 0xFC).toNat + 1)).toNat_lt
    have h1' := (space' ((off &&& 0xFC).toNat + 1)).toNat_lt
    rw [tailAt, tailAt, toNat_showing, toNat_showing, hFirst, hTwo, hThree]
    obtain hLow | hLow : (off &&& 3).toNat = 2 ∨ (off &&& 3).toNat = 3 := by omega
    · rw [hLow]
      omega
    · rw [hLow]
      omega

/-- The fields of the header, if it is taken for a structure. -/
theorem ReservedChanged.fieldsAt_header {p : UInt8} (hp : p &&& 0xFC = 0)
    (hNot : ∀ off ∈ fieldOffsets space p, off &&& 3 ≤ 1 →
      ¬ Changeable space ((off &&& 0xFC).toNat + 1)) :
    fieldsAt space' p = fieldsAt space p := by
  have hOffsets : (p + 2) &&& 0xFC ≠ 0x34 ∧ (p + 4) &&& 0xFC ≠ 0x34 ∧ (p + 8) &&& 0xFC ≠ 0x34 ∧
      (p + 12) &&& 0xFC ≠ 0x34 := by
    clear * - hp
    revert hp
    refine forall_byte p ?_
    decide +kernel
  obtain ⟨hTwo, hFour, hEight, hTwelve⟩ := hOffsets
  have hId : space' (p &&& 0xFC).toNat = space (p &&& 0xFC).toNat := by
    rw [hp]
    exact h.of_place (by decide) (by decide)
  unfold fieldOffsets at hNot
  unfold fieldsAt
  dsimp only
  rw [hId, h.half_eq rfl]
  by_cases hPm : space (p &&& 0xFC).toNat = 0x01
  · rw [if_pos hPm] at hNot
    rw [if_pos hPm, if_pos hPm, h.tailAt_eq hFour (hNot (p + 4) (by simp))]
  rw [if_neg hPm] at hNot
  rw [if_neg hPm, if_neg hPm]
  by_cases hMsi : space (p &&& 0xFC).toNat = 0x05
  · rw [if_pos hMsi] at hNot
    rw [if_pos hMsi, if_pos hMsi, h.tailAt_eq hTwo (hNot (p + 2) (by simp)),
      h.tailAt_eq hFour (hNot (p + 4) (by simp)), h.tailAt_eq hEight (hNot (p + 8) (by simp))]
    by_cases hWide : tailAt space (p + 2) / 2 ^ 7 % 2 = 1
    · rw [if_pos hWide] at hNot
      rw [h.tailAt_eq hTwelve (hNot (p + 12) (by simp))]
    · rw [if_neg hWide, if_neg hWide, if_neg hWide]
  rw [if_neg hMsi] at hNot
  rw [if_neg hMsi, if_neg hMsi]
  by_cases hMsix : space (p &&& 0xFC).toNat = 0x11
  · rw [if_pos hMsix] at hNot
    rw [if_pos hMsix, if_pos hMsix, h.tailAt_eq hTwo (hNot (p + 2) (by simp)),
      h.tailAt_eq hFour (hNot (p + 4) (by simp))]
  · rw [if_neg hMsix, if_neg hMsix]

end Hidden

/-- Under these conditions no fields change. -/
theorem IgnoresReserved.fieldsKept {space : Memory} (hIgn : IgnoresReserved space) :
    FieldsKept space := by
  intro space' h a ha
  have hVisited := mem_capVisits.mpr ⟨a, ha, rfl⟩
  by_cases hBase : space a &&& 0xFC = 0
  · rw [h.of_upper hBase]
    exact h.fieldsAt_header hBase (hIgn.header (space a) hVisited hBase)
  · rcases h.id_eq (offset_facts (space a)).1 (hIgn.pointer (space a) hVisited) with
      hId | ⟨hNot', hNot⟩
    · exact h.fieldsAt_of_zeroFields (h.upper a) hId (hIgn.zero (space a) hVisited hBase)
    · rw [← h.upper a] at hNot'
      rw [fieldsAt_of_not_hasFields hNot, fieldsAt_of_not_hasFields hNot']

-- ---------------------------------------------------------------------------
-- Anything else shows them
-- ---------------------------------------------------------------------------

/-- A dword of which the same 16 bits are seen with every shift is zero. -/
theorem ReservedChanged.showing_eq_zero_of_constant {space : Memory} {spaces : Nat → Memory}
    (h : ∀ low < 4, ReservedChanged space (spaces low)) {off : UInt8} {c : Nat}
    (hSeen : ∀ low < 4, (showing (spaces low) off).toNat / 2 ^ (8 * low) % 2 ^ 16 = c) :
    showing space off = 0 := by
  have hHalf : ∀ low < 4, (showing (spaces low) off).toNat / 2 ^ 16 =
      (showing space off).toNat / 2 ^ 16 := fun low hLow => (h low hLow).half_eq rfl
  have hLt := (showing space off).toNat_lt
  have hUpper : (showing space off).toNat / 2 ^ 16 < 2 ^ 16 := by omega
  -- shifts by two and by three bytes see the upper half only
  have hTwo : (showing space off).toNat / 2 ^ 16 = c := by
    have hSecond : (showing (spaces 2) off).toNat / 2 ^ 16 % 2 ^ 16 = c := hSeen 2 (by decide)
    rwa [hHalf 2 (by decide), Nat.mod_eq_of_lt hUpper] at hSecond
  have hThree : (showing space off).toNat / 2 ^ 16 / 2 ^ 8 = c := by
    have hThird : (showing (spaces 3) off).toNat / (2 ^ 16 * 2 ^ 8) % 2 ^ 16 = c :=
      hSeen 3 (by decide)
    rw [← Nat.div_div_eq_div_mul, hHalf 3 (by decide)] at hThird
    omega
  have hFirst : (showing (spaces 0) off).toNat / 1 % 2 ^ 16 = c := hSeen 0 (by decide)
  have hRest := hHalf 0 (by decide)
  rw [Nat.div_one] at hFirst
  rw [← (h 0 (by decide)).showing_eq_zero]
  apply UInt32.toNat_inj.mp
  show _ = 0
  omega

theorem changeable_of_mem {space : Memory} {a : Nat} (ha : a ∈ pointerPlaces space 48 0x34)
    (hBase : space a &&& 0xFC ≠ 0) : Changeable space a :=
  ⟨pointerAt_of_mem (fun _ hc => hc) (Or.inl rfl) ha, hBase⟩

/-- Where the fields are read for each value of the reserved bits. -/
theorem tailAt_withLow (space : Memory) (ptr : UInt8) {low : Nat} (hLow : low < 4) :
    tailAt space (withLow ptr low + 4) =
        (showing space ((ptr &&& 0xFC) + 4)).toNat / 2 ^ (8 * low) ∧
      tailAt space (withLow ptr low + 8) =
        (showing space ((ptr &&& 0xFC) + 8)).toNat / 2 ^ (8 * low) := by
  obtain ⟨hUpper, hLower, -⟩ := withLow_facts ptr low hLow
  rw [tailAt_add_four, tailAt_add_eight, hUpper, hLower]
  exact ⟨rfl, rfl⟩

/-- The control word for three of them. -/
theorem tailAt_withLow_add_two (space : Memory) (ptr : UInt8) :
    tailAt space (withLow ptr 0 + 2) = (space ((ptr &&& 0xFC).toNat + 2)).toNat +
        (space ((ptr &&& 0xFC).toNat + 3)).toNat * 2 ^ 8 ∧
      tailAt space (withLow ptr 1 + 2) = (space ((ptr &&& 0xFC).toNat + 3)).toNat ∧
      tailAt space (withLow ptr 2 + 2) = (showing space ((ptr &&& 0xFC) + 4)).toNat := by
  obtain ⟨hUpper0, hLower0, -⟩ := withLow_facts ptr 0 (by decide)
  obtain ⟨hUpper1, hLower1, -⟩ := withLow_facts ptr 1 (by decide)
  obtain ⟨hUpper2, hLower2, -⟩ := withLow_facts ptr 2 (by decide)
  have h0 := tailAt_add_two space (withLow ptr 0)
  have h1 := tailAt_add_two space (withLow ptr 1)
  have h2 := tailAt_add_two space (withLow ptr 2)
  -- the reserved bits select one of the four cases
  simp [← UInt8.toNat_inj, hUpper0, hLower0] at h0
  simp [← UInt8.toNat_inj, hUpper1, hLower1] at h1
  simp [← UInt8.toNat_inj, hUpper2, hLower2] at h2
  exact ⟨h0, h1, h2⟩

/-- The control word if the second dword is zero. -/
theorem ReservedChanged.ctrl_eq {space : Memory} {spaces : Nat → Memory} {ptr : UInt8}
    (h : ∀ low < 4, ReservedChanged space (spaces low))
    (hZero : showing space ((ptr &&& 0xFC) + 4) = 0) :
    tailAt (spaces 0) (withLow ptr 0 + 2) = (space ((ptr &&& 0xFC).toNat + 2)).toNat +
        (space ((ptr &&& 0xFC).toNat + 3)).toNat * 2 ^ 8 ∧
      tailAt (spaces 1) (withLow ptr 1 + 2) = (space ((ptr &&& 0xFC).toNat + 3)).toNat ∧
      tailAt (spaces 2) (withLow ptr 2 + 2) = 0 := by
  have hHalf : ∀ low < 4, spaces low ((ptr &&& 0xFC).toNat + 2) = _ ∧ _ :=
    fun low hLow => (h low hLow).upper_half (offset_facts ptr).1
  rw [(tailAt_withLow_add_two (spaces 0) ptr).1, (tailAt_withLow_add_two (spaces 1) ptr).2.1,
    (tailAt_withLow_add_two (spaces 2) ptr).2.2,
    ((h 2 (by decide)).showing_eq_zero _).mpr hZero, (hHalf 0 (by decide)).1,
    (hHalf 0 (by decide)).2, (hHalf 1 (by decide)).2]
  exact ⟨rfl, rfl, rfl⟩

section Constant

variable {space : Memory} {spaces : Nat → Memory} {ptr : UInt8} {f : Fields}
  (h : ∀ low < 4, ReservedChanged space (spaces low))
  (hFields : ∀ low < 4, fieldsAt (spaces low) (withLow ptr low) = f)
include h hFields

theorem pm_zero_of_constant
    (hId : ∀ low < 4, spaces low (withLow ptr low &&& 0xFC).toNat = 0x01) :
    showing space ((ptr &&& 0xFC) + 4) = 0 := by
  have hf := (hFields 0 (by decide)).symm.trans (fieldsAt_of_pm (hId 0 (by decide)))
  refine ReservedChanged.showing_eq_zero_of_constant h
    (c := tailAt (spaces 0) (withLow ptr 0 + 4) % 2 ^ 16) fun low hLow => ?_
  rw [← (tailAt_withLow _ _ hLow).1]
  exact pm_of_fieldsAt_eq ((hFields low hLow).trans hf) (hId low hLow)

theorem msi_zero_of_constant
    (hId : ∀ low < 4, spaces low (withLow ptr low &&& 0xFC).toNat = 0x05) :
    (space ((ptr &&& 0xFC).toNat + 2) &&& 0x8E = 0 ∧
        space ((ptr &&& 0xFC).toNat + 3) &&& 0x8F = 0) ∧
      showing space ((ptr &&& 0xFC) + 4) = 0 ∧ showing space ((ptr &&& 0xFC) + 8) = 0 := by
  have hf := (hFields 2 (by decide)).symm.trans (fieldsAt_of_msi (hId 2 (by decide)))
  have hSame := fun low hLow =>
    msi_of_fieldsAt_eq ((hFields low hLow).trans hf) (hId low hLow)
  have hAddr : showing space ((ptr &&& 0xFC) + 4) = 0 := by
    refine ReservedChanged.showing_eq_zero_of_constant h
      (c := tailAt (spaces 2) (withLow ptr 2 + 4) % 2 ^ 16) fun low hLow => ?_
    rw [← (tailAt_withLow _ _ hLow).1, (hSame low hLow).2.2.2.1]
  obtain ⟨hFirst, hSecond, hThird⟩ := ReservedChanged.ctrl_eq h hAddr
  rw [hThird] at hSame
  refine ⟨(msiCtrl_zero_iff _ _).mpr ?_, hAddr, ?_⟩
  · have hCtrl0 := hSame 0 (by decide)
    have hCtrl1 := hSame 1 (by decide)
    rw [hFirst] at hCtrl0
    rw [hSecond] at hCtrl1
    have hLower := (space ((ptr &&& 0xFC).toNat + 2)).toNat_lt
    have hUpper := (space ((ptr &&& 0xFC).toNat + 3)).toNat_lt
    omega
  · -- without the 64-bit flag the message data is in the third dword
    refine ReservedChanged.showing_eq_zero_of_constant h
      (c := tailAt (spaces 2) (withLow ptr 2 + 8) % 2 ^ 16) fun low hLow => ?_
    rw [← (tailAt_withLow _ _ hLow).2]
    exact (hSame low hLow).2.2.2.2.2

theorem msix_zero_of_constant
    (hId : ∀ low < 4, spaces low (withLow ptr low &&& 0xFC).toNat = 0x11) :
    (space ((ptr &&& 0xFC).toNat + 2) = 0 ∧ space ((ptr &&& 0xFC).toNat + 3) = 0) ∧
      showing space ((ptr &&& 0xFC) + 4) = 0 := by
  have hf := (hFields 2 (by decide)).symm.trans (fieldsAt_of_msix (hId 2 (by decide)))
  have hSame := fun low hLow =>
    msix_of_fieldsAt_eq ((hFields low hLow).trans hf) (hId low hLow)
  have hTable : showing space ((ptr &&& 0xFC) + 4) = 0 := by
    refine ReservedChanged.showing_eq_zero_of_constant h
      (c := tailAt (spaces 2) (withLow ptr 2 + 4) % 2 ^ 16) fun low hLow => ?_
    rw [← (tailAt_withLow _ _ hLow).1, (hSame low hLow).1]
  obtain ⟨hFirst, hSecond, hThird⟩ := ReservedChanged.ctrl_eq h hTable
  rw [hThird] at hSame
  have hSize0 := (hSame 0 (by decide)).2
  have hSize1 := (hSame 1 (by decide)).2
  rw [hFirst] at hSize0
  rw [hSecond] at hSize1
  have hLower := (space ((ptr &&& 0xFC).toNat + 2)).toNat_lt
  have hUpper := (space ((ptr &&& 0xFC).toNat + 3)).toNat_lt
  rw [← UInt8.toNat_inj, ← UInt8.toNat_inj, UInt8.toNat_zero]
  exact ⟨by omega, hTable⟩

end Constant

/-- Fields that stay the same with all reserved bits of their pointer are zeros. -/
theorem FieldsKept.zeroFields {space : Memory} (hKept : FieldsKept space) {a : Nat}
    (ha : a ∈ pointerPlaces space 48 0x34) (hBase : space a &&& 0xFC ≠ 0)
    (hPointer : space a &&& 0xFC = 0x34 →
      space 0x34 &&& 0xFC ≠ 0x04 ∧ space 0x34 &&& 0xFC ≠ 0x10) :
    ZeroFields space (space a &&& 0xFC) := by
  have hChanged : ∀ low < 4, ReservedChanged space (changedAt space a low) :=
    fun low hLow => reservedChanged_changedAt (changeable_of_mem ha hBase) hLow
  have hFields : ∀ low < 4, fieldsAt (changedAt space a low) (withLow (space a) low) =
      fieldsAt space (space a) := by
    intro low hLow
    rw [← hKept _ (hChanged low hLow) a ha, changedAt_self]
  have hId : ∀ id, HasFields id → space (space a &&& 0xFC).toNat = id → ∀ low < 4,
      changedAt space a low (withLow (space a) low &&& 0xFC).toNat = id := by
    intro id hHas hEq low hLow
    rw [(withLow_facts (space a) low hLow).1]
    rcases (hChanged low hLow).id_eq (offset_facts (space a)).1 hPointer with hSame | ⟨-, hNot⟩
    · exact hSame.trans hEq
    · exact absurd (hEq ▸ hHas) hNot
  exact ⟨fun hPm => pm_zero_of_constant hChanged hFields (hId 0x01 (by decide) hPm),
    fun hMsi => msi_zero_of_constant hChanged hFields (hId 0x05 (by decide) hMsi),
    fun hMsix => msix_zero_of_constant hChanged hFields (hId 0x11 (by decide) hMsix)⟩

/-- The reserved bits of a pointer are among what is read from `off` on: its lowest
two bits, or the lowest two of its second byte. -/
def MovesAt (spaces : Nat → Memory) (off : UInt8) : Prop :=
  ∃ tail k, (k = 0 ∨ k = 8) ∧ tail / 2 ^ k % 4 = 0 ∧
    ∀ low < 4, tailAt (spaces low) off = tail + low * 2 ^ k

/-- A pointer byte among what is read from `off` on shows its reserved bits there. -/
theorem movesAt_changedAt (space : Memory) {off : UInt8} (hLow : off &&& 3 ≤ 1) :
    MovesAt (changedAt space ((off &&& 0xFC).toNat + 1)) off := by
  have hAligned := (offset_facts off).1
  have hUpper := (offset_facts (space ((off &&& 0xFC).toNat + 1))).1
  have h0 := (space (off &&& 0xFC).toNat).toNat_lt
  have hDword : ∀ low < 4,
      (showing (changedAt space ((off &&& 0xFC).toNat + 1) low) off).toNat =
        (space (off &&& 0xFC).toNat).toNat +
        ((space ((off &&& 0xFC).toNat + 1) &&& 0xFC).toNat + low) * 2 ^ 8 +
        (space ((off &&& 0xFC).toNat + 2)).toNat * 2 ^ 16 +
        (space ((off &&& 0xFC).toNat + 3)).toNat * 2 ^ 24 := by
    intro low hLow
    rw [toNat_showing, changedAt_self, (withLow_facts _ low hLow).2.2,
      changedAt_of_ne space low (by omega), changedAt_of_ne space low (by omega),
      changedAt_of_ne space low (by omega)]
  have hCases : (off &&& 3).toNat = 0 ∨ (off &&& 3).toNat = 1 := by
    have hLe : (off &&& 3).toNat ≤ 1 := UInt8.le_iff_toNat_le.mp hLow
    omega
  rcases hCases with hZero | hOne
  · refine ⟨tailAt (changedAt space ((off &&& 0xFC).toNat + 1) 0) off, 8, Or.inr rfl, ?_,
      fun low hl => ?_⟩
    · rw [tailAt, hZero, hDword 0 (by decide)]
      omega
    · rw [tailAt, tailAt, hZero, hDword 0 (by decide), hDword low hl]
      omega
  · refine ⟨tailAt (changedAt space ((off &&& 0xFC).toNat + 1) 0) off, 0, Or.inl rfl, ?_,
      fun low hl => ?_⟩
    · rw [tailAt, hOne, hDword 0 (by decide)]
      omega
    · rw [tailAt, tailAt, hOne, hDword 0 (by decide), hDword low hl]
      omega

section Moves

variable {spaces : Nat → Memory} {off : UInt8} (h : MovesAt spaces off)
include h

/-- Bit 8 of the control word is recorded, bit 0 is not, but bit 1 is. -/
theorem MovesAt.ctrl {c d : Nat} (hCapable : ∀ low < 4, tailAt (spaces low) off / 2 % 8 = c)
    (hMaskable : ∀ low < 4, tailAt (spaces low) off / 2 ^ 8 % 2 = d) : False := by
  obtain ⟨tail, k, hShift, hBits, hTail⟩ := h
  have h0 := hCapable 0 (by decide)
  have h2 := hCapable 2 (by decide)
  have h0' := hMaskable 0 (by decide)
  have h1' := hMaskable 1 (by decide)
  rw [hTail 0 (by decide)] at h0 h0'
  rw [hTail 1 (by decide)] at h1'
  rw [hTail 2 (by decide)] at h2
  rcases hShift with rfl | rfl <;> omega

theorem MovesAt.size {c : Nat} (hConst : ∀ low < 4, tailAt (spaces low) off % 2 ^ 11 = c) :
    False := by
  obtain ⟨tail, k, hShift, hBits, hTail⟩ := h
  have h0 := hConst 0 (by decide)
  have h1 := hConst 1 (by decide)
  rw [hTail 0 (by decide)] at h0
  rw [hTail 1 (by decide)] at h1
  rcases hShift with rfl | rfl <;> omega

theorem MovesAt.word {c : Nat} (hConst : ∀ low < 4, tailAt (spaces low) off % 2 ^ 16 = c) :
    False :=
  h.size (c := c % 2 ^ 11) fun low hLow => by
    rw [← hConst low hLow, Nat.mod_mod_of_dvd _ (by decide)]

end Moves

/-- If the header is taken for a structure, its fields show the pointers in them. -/
theorem FieldsKept.header {space : Memory} (hKept : FieldsKept space) {a : Nat}
    (ha : a ∈ pointerPlaces space 48 0x34) (hBase : space a &&& 0xFC = 0) {off : UInt8}
    (hOff : off ∈ fieldOffsets space (space a)) (hLow : off &&& 3 ≤ 1) :
    ¬ Changeable space ((off &&& 0xFC).toNat + 1) := by
  intro hChangeable
  have hChanged : ∀ low < 4,
      ReservedChanged space (changedAt space ((off &&& 0xFC).toNat + 1) low) :=
    fun low hl => reservedChanged_changedAt hChangeable hl
  have hMoves := movesAt_changedAt space hLow
  generalize changedAt space ((off &&& 0xFC).toNat + 1) = spaces at hChanged hMoves
  have hFields : ∀ low < 4, fieldsAt (spaces low) (space a) = fieldsAt space (space a) := by
    intro low hl
    rw [← hKept _ (hChanged low hl) a ha, (hChanged low hl).of_upper hBase]
  have hId : ∀ id, space (space a &&& 0xFC).toNat = id → ∀ low < 4,
      spaces low (space a &&& 0xFC).toNat = id := by
    intro id hEq low hl
    rw [← hEq, hBase]
    exact (hChanged low hl).of_place (by decide) (by decide)
  unfold fieldOffsets at hOff
  by_cases hPm : space (space a &&& 0xFC).toNat = 0x01
  · rw [if_pos hPm, List.mem_singleton] at hOff
    subst hOff
    exact hMoves.word fun low hl =>
      pm_of_fieldsAt_eq ((hFields low hl).trans (fieldsAt_of_pm hPm)) (hId _ hPm low hl)
  rw [if_neg hPm] at hOff
  by_cases hMsi : space (space a &&& 0xFC).toNat = 0x05
  · rw [if_pos hMsi] at hOff
    have hSame := fun low hl =>
      msi_of_fieldsAt_eq ((hFields low hl).trans (fieldsAt_of_msi hMsi)) (hId _ hMsi low hl)
    have hCtrl : off = space a + 2 → False := by
      rintro rfl
      exact hMoves.ctrl (fun low hl => (hSame low hl).1) fun low hl => (hSame low hl).2.2.1
    have hAddr : off = space a + 4 → False := by
      rintro rfl
      exact hMoves.word fun low hl => congrArg (· % 2 ^ 16) (hSame low hl).2.2.2.1
    -- the third dword is the upper half of the address or the message data
    by_cases hWide : tailAt space (space a + 2) / 2 ^ 7 % 2 = 1
    · simp only [if_pos hWide] at hOff hSame
      simp only [List.cons_append, List.nil_append, List.mem_cons, List.not_mem_nil, or_false]
        at hOff
      rcases hOff with hOff | hOff | rfl | rfl
      · exact hCtrl hOff
      · exact hAddr hOff
      · exact hMoves.word fun low hl => congrArg (· % 2 ^ 16) ((hSame low hl).2.2.2.2.1 hWide)
      · exact hMoves.word fun low hl => (hSame low hl).2.2.2.2.2
    · simp only [if_neg hWide] at hOff hSame
      simp only [List.append_nil, List.mem_cons, List.not_mem_nil, or_false] at hOff
      rcases hOff with hOff | hOff | rfl
      · exact hCtrl hOff
      · exact hAddr hOff
      · exact hMoves.word fun low hl => (hSame low hl).2.2.2.2.2
  rw [if_neg hMsi] at hOff
  by_cases hMsix : space (space a &&& 0xFC).toNat = 0x11
  · have hSame := fun low hl =>
      msix_of_fieldsAt_eq ((hFields low hl).trans (fieldsAt_of_msix hMsix)) (hId _ hMsix low hl)
    rw [if_pos hMsix] at hOff
    simp only [List.mem_cons, List.not_mem_nil, or_false] at hOff
    rcases hOff with rfl | rfl
    · exact hMoves.size fun low hl => (hSame low hl).2
    · exact hMoves.word fun low hl => congrArg (· % 2 ^ 16) (hSame low hl).1
  · rw [if_neg hMsix] at hOff
    cases hOff

-- ---------------------------------------------------------------------------
-- The condition
-- ---------------------------------------------------------------------------

/-- **The reserved bits.** Changing them changes no recorded power management, MSI or
MSI-X field if and only if all places these fields can be moved to are zero, and the
header is not taken for a structure that has changeable pointers in its fields or as
its id. -/
theorem reserved_bits_ignored_iff (physOffset : UInt64) (memory : UInt64 → UInt32)
    (resources : List Resource) {space : Memory} (hList : HasCapList (showing space)) :
    (∀ space', ReservedChanged space space' →
      SameRecord physOffset memory resources space space') ↔ IgnoresReserved space := by
  rw [sameRecord_iff_fieldsKept hList]
  constructor
  · rintro ⟨hPointer, hKept⟩
    refine ⟨fun p hp hBase => ?_, fun p hp hBase off hOff hLow => ?_, fun p hp hBase => ?_⟩ <;>
      obtain ⟨a, ha, rfl⟩ := mem_capVisits.mp hp
    · exact hKept.zeroFields ha hBase (hPointer a ha)
    · exact hKept.header ha hBase hOff hLow
    · exact hPointer a ha hBase
  · intro hIgn
    exact ⟨fun a ha => hIgn.pointer (space a) (mem_capVisits.mpr ⟨a, ha, rfl⟩), hIgn.fieldsKept⟩

/-- A configuration space with a power management capability whose second dword is
zero. -/
def quietSpace : Memory
  | 0x06 => 0x10
  | 0x34 => 0x40
  | 0x40 => 0x01 | 0x42 => 0x03
  | _ => 0

theorem quietSpace_ignoresReserved : IgnoresReserved quietSpace := by
  have hVisits : capVisits (showing quietSpace) 48 (quietSpace 0x34) = [0x40] := by decide
  refine ⟨fun p hp _ => ?_, fun p hp hBase => ?_, fun p hp hBase => ?_⟩ <;>
    rw [hVisits, List.mem_singleton] at hp <;> subst hp
  · exact ⟨by decide, by decide, by decide⟩
  · exact absurd hBase (by decide)
  · exact absurd hBase (by decide)

theorem reserved_bits_ignored_quietSpace :
    HasCapList (showing quietSpace) ∧ ∀ space', ReservedChanged quietSpace space' →
      SameRecord 0 (fun _ => 0) [] quietSpace space' :=
  have hList : HasCapList (showing quietSpace) := by unfold HasCapList; decide
  ⟨hList, (reserved_bits_ignored_iff 0 (fun _ => 0) [] hList).mpr quietSpace_ignoresReserved⟩

/-- Bit 0 of the capabilities pointer moves the PMCSR by one byte. -/
theorem reserved_bit_moves_pmcsr :
    CapList sampleSpace [0x40, 0x50, 0x70] ∧
    (changedAt sampleSpace 0x34 1 0x34 = 0x41 ∧
      ReservedChanged sampleSpace (changedAt sampleSpace 0x34 1)) ∧
    (readCapabilities 0 (fun _ => 0) (showing sampleSpace) []).2 = [.powerManagement 3 8] ∧
    (readCapabilities 0 (fun _ => 0) (showing (changedAt sampleSpace 0x34 1)) []).2 =
      [.powerManagement 3 0] :=
  ⟨sampleSpace_capList,
    ⟨by decide, reservedChanged_changedAt ⟨Or.inl rfl, by decide⟩ (by decide)⟩,
    by decide, by decide⟩

end Neutrix.Pci
