import Mathlib.Data.List.Pairwise
import Neutrix.Hal.Ioapic

/-!
# Neutrix — IOAPIC tables and redirection entries

The view of the registers that the driver works with: entry `k` of an
IOAPIC is the register pair `0x10 + 2k`, `0x11 + 2k` at its virtual base.
For a sane table (`TableOk`) the lookup finds the IOAPIC that handles a
GSI, and the two operations that touch a redirection entry change exactly
that entry: `writeRedirectionEntry_touches` and `enableGsi_touches`, and
`foldl_touches` for the driver's loops over them.
-/

namespace Neutrix.Ioapic

open Neutrix.Lib

-- ---------------------------------------------------------------------------
-- Entries
-- ---------------------------------------------------------------------------

/-- Redirection entry `k` (low, high dword) of the IOAPIC at `virt`. -/
def entry (mmio : WindowBus) (virt : UInt64) (k : Nat) : UInt32 × UInt32 :=
  (mmio.get virt (0x10 + 2 * k), mmio.get virt (0x10 + 2 * k + 1))

/-- The IOAPIC's GSI range contains `gsi` (as numbers, without wrap-around). -/
def IoApic.Handles (io : IoApic) (gsi : Nat) : Prop :=
  io.gsiBase.toNat ≤ gsi ∧ gsi < io.gsiBase.toNat + io.redirEntries.toNat

/-- A table the driver can work with: every IOAPIC is mapped and has its own
registers, the GSI ranges are disjoint, and no IOAPIC has more entries than
the 8-bit register numbers can reach. -/
structure TableOk (physOffset : UInt64) (table : List IoApic) : Prop where
  mapped   : ∀ io ∈ table, virtAddr io.physAddr physOffset ≠ 0
  ownRegs  : (table.map IoApic.physAddr).Nodup
  disjoint : table.Pairwise fun io io' => ∀ g, io.Handles g → ¬ io'.Handles g
  small    : ∀ io ∈ table, io.redirEntries.toNat ≤ 120

theorem virtAddr_inj {p q : UInt32} {physOffset : UInt64} :
    virtAddr p physOffset = virtAddr q physOffset ↔ p = q := by
  constructor
  · intro h
    have hWide : p.toUInt64 = q.toUInt64 := by
      have := congrArg (· - physOffset) h
      simpa [virtAddr] using this
    have := congrArg UInt64.toNat hWide
    rw [UInt32.toNat_toUInt64, UInt32.toNat_toUInt64] at this
    exact UInt32.toNat_inj.mp this
  · rintro rfl
    rfl

section

variable {physOffset : UInt64} {table : List IoApic} {io io' : IoApic}

/-- IOAPICs of the table with one base address are the same one. -/
theorem eq_of_virtAddr (hOwn : (table.map IoApic.physAddr).Nodup) (h : io ∈ table)
    (h' : io' ∈ table)
    (hv : virtAddr io.physAddr physOffset = virtAddr io'.physAddr physOffset) : io = io' :=
  List.inj_on_of_nodup_map hOwn h h' (virtAddr_inj.mp hv)

/-- At most one IOAPIC of the table handles a GSI. -/
theorem eq_of_both_handle
    (hDisjoint : table.Pairwise fun io io' => ∀ g, io.Handles g → ¬ io'.Handles g)
    (h : io ∈ table) (h' : io' ∈ table) {g : Nat} (hg : io.Handles g) (hg' : io'.Handles g) :
    io = io' := by
  by_contra hne
  have : Std.Symm fun io io' : IoApic => ∀ g, io.Handles g → ¬ io'.Handles g :=
    ⟨fun _ _ hab g hb ha => hab g ha hb⟩
  exact hDisjoint.forall h h' hne g hg hg'

end

namespace TableOk

variable {physOffset : UInt64} {table : List IoApic}

/-- The entry of a handled GSI is within reach of the register numbers. -/
theorem loc_lt (hT : TableOk physOffset table) {io : IoApic} (h : io ∈ table) {g loc : Nat}
    (hg : io.Handles g) (hLoc : loc = g - io.gsiBase.toNat) : loc < 120 := by
  have hSmall := hT.small io h
  obtain ⟨hLow, hHigh⟩ := hg
  omega

end TableOk

-- ---------------------------------------------------------------------------
-- Lookup
-- ---------------------------------------------------------------------------

/-- The range contains the GSI and ends below 2³², so that its end is a `u32`. -/
def IoApic.Covers (io : IoApic) (gsi : UInt32) : Prop :=
  io.Handles gsi.toNat ∧ io.gsiBase.toNat + io.redirEntries.toNat < 2 ^ 32

instance (io : IoApic) (gsi : UInt32) : Decidable (io.Covers gsi) := by
  unfold IoApic.Covers IoApic.Handles
  infer_instance

/-- The comparison of the lookup. A wrapped end lies below the start, so that
no GSI passes. -/
theorem IoApic.covers_iff (io : IoApic) (gsi : UInt32) :
    gsi ≥ io.gsiBase ∧ gsi < io.gsiBase + io.redirEntries ↔ io.Covers gsi := by
  have hBase := io.gsiBase.toNat_lt
  have hEntries := io.redirEntries.toNat_lt
  rw [ge_iff_le, UInt32.le_iff_toNat_le, UInt32.lt_iff_toNat_lt, UInt32.toNat_add]
  unfold IoApic.Covers IoApic.Handles
  omega

/-- The lookup finds the first IOAPIC that covers the GSI. -/
theorem findFrom_eq (gsi : UInt32) (table : List IoApic) (i : Nat) :
    match table.find? fun io => io.Covers gsi with
    | none => findFrom gsi i table = none
    | some io => ∃ j, findFrom gsi i table = some (i + j, gsi - io.gsiBase) ∧
        table[j]? = some io := by
  induction table generalizing i with
  | nil => rfl
  | cons io rest ih =>
    rw [findFrom]
    by_cases hIn : io.Covers gsi
    · rw [if_pos (io.covers_iff gsi |>.mpr hIn), List.find?_cons_of_pos (by simpa using hIn)]
      exact ⟨0, rfl, rfl⟩
    · rw [if_neg (mt (io.covers_iff gsi).mp hIn), List.find?_cons_of_neg (by simpa using hIn)]
      have hRest := ih (i + 1)
      cases hFind : rest.find? fun io => io.Covers gsi with
      | none =>
        rw [hFind] at hRest
        exact hRest
      | some io' =>
        rw [hFind] at hRest
        obtain ⟨j, hEq, hGet⟩ := hRest
        exact ⟨j + 1, by rw [hEq, Nat.add_right_comm, Nat.add_assoc], hGet⟩

/-- A GSI inside a range that ends below 2^32 is found. -/
theorem findFrom_isSome {gsi : UInt32} {table : List IoApic} {io : IoApic} (hio : io ∈ table)
    (hg : io.Handles gsi.toNat)
    (hEnd : io.gsiBase.toNat + io.redirEntries.toNat < 2 ^ 32) (i : Nat) :
    (findFrom gsi i table).isSome := by
  have hEq := findFrom_eq gsi table i
  cases hFind : table.find? fun io => io.Covers gsi with
  | none =>
    have hNot : ¬ io.Covers gsi := by simpa using List.find?_eq_none.mp hFind io hio
    exact absurd ⟨hg, hEnd⟩ hNot
  | some io' =>
    rw [hFind] at hEq
    obtain ⟨j, hSome, -⟩ := hEq
    rw [hSome]
    rfl

/-- What the lookup means for the driver: the IOAPIC it indexes and the entry. -/
theorem findIoapicForGsi_some {hal : Hal} {gsi : UInt32} {idx : Nat} {loc : UInt32}
    (h : findIoapicForGsi hal gsi = some (idx, loc)) :
    ∃ io ∈ hal.ioapicTable, hal.ioapicTable[idx]? = some io ∧ io.Handles gsi.toNat ∧
      loc.toNat = gsi.toNat - io.gsiBase.toNat := by
  have hEq := findFrom_eq gsi hal.ioapicTable 0
  cases hFind : hal.ioapicTable.find? fun io => io.Covers gsi with
  | none =>
    rw [hFind] at hEq
    cases hEq.symm.trans h
  | some io =>
    rw [hFind] at hEq
    obtain ⟨j, hSome, hGet⟩ := hEq
    cases hSome.symm.trans h
    have hCovers : io.Covers gsi := by simpa using List.find?_some hFind
    have hLow : io.gsiBase ≤ gsi := (io.covers_iff gsi).mpr hCovers |>.1
    refine ⟨io, List.mem_of_find?_eq_some hFind, ?_, hCovers.1, ?_⟩
    · rw [Nat.zero_add]
      exact hGet
    · exact UInt32.toNat_sub_of_le _ _ hLow

-- ---------------------------------------------------------------------------
-- Register numbers
-- ---------------------------------------------------------------------------

theorem regLow_toNat {loc : UInt32} (h : loc.toNat < 120) :
    (regLow loc).toNat = 0x10 + 2 * loc.toNat := by
  rw [regLow, UInt8.toNat_add, UInt8.toNat_ofNat']
  show (0x10 + loc.toNat * 2 % 2 ^ 8) % 2 ^ 8 = _
  omega

theorem regHigh_toNat {loc : UInt32} (h : loc.toNat < 120) :
    (regHigh loc).toNat = 0x10 + 2 * loc.toNat + 1 := by
  rw [regHigh, UInt8.toNat_add, regLow_toNat h]
  show (0x10 + 2 * loc.toNat + 1) % 2 ^ 8 = _
  omega

/-- Writing the high and then the low register of one entry changes exactly
that entry. -/
theorem entry_writeReg (mmio : WindowBus) (base virt : UInt64) {loc : UInt32}
    (h : loc.toNat < 120) (low high : UInt32) (k : Nat) :
    entry (writeReg (writeReg mmio base (regHigh loc) high) base (regLow loc) low) virt k =
      if virt = base ∧ k = loc.toNat then (low, high) else entry mmio virt k := by
  unfold entry writeReg
  simp only [WindowBus.get_write, UInt8.toNat_toUInt32, regLow_toNat h, regHigh_toNat h]
  by_cases hv : virt = base
  · by_cases hk : k = loc.toNat
    · subst hk
      simp [hv]
    · have h1 : ¬ 0x10 + 2 * k = 0x10 + 2 * loc.toNat := by omega
      have h2 : ¬ 0x10 + 2 * k = 0x10 + 2 * loc.toNat + 1 := by omega
      have h3 : ¬ 0x10 + 2 * k + 1 = 0x10 + 2 * loc.toNat := by omega
      have h4 : ¬ 0x10 + 2 * k + 1 = 0x10 + 2 * loc.toNat + 1 := by omega
      simp only [hv, hk, h1, h2, h3, h4, and_false, if_false]
  · simp [hv]

/-- Reads do not change entries. -/
theorem entry_readReg (mmio : WindowBus) (base virt : UInt64) (reg : UInt8) (k : Nat) :
    entry (readReg mmio base reg).2 virt k = entry mmio virt k := by
  simp [entry, readReg]

-- ---------------------------------------------------------------------------
-- The two operations on entries
-- ---------------------------------------------------------------------------

section Operations

variable {physOffset : UInt64} {hal : Hal}

/-- The driver finds an IOAPIC for `gsi`. -/
def Found (table : List IoApic) (gsi : UInt32) : Prop := (findFrom gsi 0 table).isSome

/-- The entry that the lookup of `gsi` leads to is the one whose own GSI
number `gsi_base + k` is `gsi`. -/
theorem slot_iff (hT : TableOk physOffset hal.ioapicTable) {gsi : UInt32} {io : IoApic}
    (hio : io ∈ hal.ioapicTable) (hg : io.Handles gsi.toNat)
    {io' : IoApic} (hio' : io' ∈ hal.ioapicTable) {k : Nat} (hk : k < io'.redirEntries.toNat) :
    virtAddr io'.physAddr physOffset = virtAddr io.physAddr physOffset ∧
        k = gsi.toNat - io.gsiBase.toNat ↔
      io'.gsiBase.toNat + k = gsi.toNat := by
  constructor
  · rintro ⟨hv, rfl⟩
    have := eq_of_virtAddr hT.ownRegs hio' hio hv
    subst this
    have := hg.1
    omega
  · intro hEq
    have hg' : io'.Handles gsi.toNat := ⟨by omega, by omega⟩
    have := eq_of_both_handle hT.disjoint hio' hio hg' hg
    subst this
    exact ⟨rfl, by omega⟩

/-- From `hal` to `hal'` only the registers change, and among the redirection
entries at most the one of `gsi`: if the GSI is handled it goes through `upd`. -/
def Touches (physOffset : UInt64) (hal hal' : Hal) (gsi : UInt32)
    (upd : UInt32 × UInt32 → UInt32 × UInt32) : Prop :=
  ∃ mmio, hal' = { hal with mmio := mmio } ∧
    ∀ io ∈ hal.ioapicTable, ∀ k < io.redirEntries.toNat,
      (Found hal.ioapicTable gsi → io.gsiBase.toNat + k = gsi.toNat →
        entry mmio (virtAddr io.physAddr physOffset) k =
          upd (entry hal.mmio (virtAddr io.physAddr physOffset) k)) ∧
      (io.gsiBase.toNat + k ≠ gsi.toNat →
        entry mmio (virtAddr io.physAddr physOffset) k =
          entry hal.mmio (virtAddr io.physAddr physOffset) k)

/-- Nothing happens for a GSI that no IOAPIC handles. -/
theorem touches_of_not_found {gsi : UInt32} (h : findIoapicForGsi hal gsi = none)
    (upd : UInt32 × UInt32 → UInt32 × UInt32) : Touches physOffset hal hal gsi upd := by
  refine ⟨hal.mmio, rfl, fun io hio k hk => ⟨fun hFound => ?_, fun _ => rfl⟩⟩
  have hNone : findFrom gsi 0 hal.ioapicTable = none := h
  simp [Found, hNone] at hFound

/-- The register pair that the lookup of `gsi` leads to is its entry. `read` is
the register state after reads that may precede the two writes. -/
theorem touches_of_writeReg (hT : TableOk physOffset hal.ioapicTable) {gsi loc : UInt32}
    {io₀ : IoApic} (hio₀ : io₀ ∈ hal.ioapicTable) (hg : io₀.Handles gsi.toNat)
    (hLoc : loc.toNat = gsi.toNat - io₀.gsiBase.toNat) {read : WindowBus}
    (hRead : ∀ virt k, entry read virt k = entry hal.mmio virt k)
    {upd : UInt32 × UInt32 → UInt32 × UInt32} {low high : UInt32}
    (hUpd : upd (entry hal.mmio (virtAddr io₀.physAddr physOffset) loc.toNat) = (low, high)) :
    Touches physOffset hal
      { hal with
        mmio := (writeReg (writeReg read (virtAddr io₀.physAddr physOffset) (regHigh loc) high)
          (virtAddr io₀.physAddr physOffset) (regLow loc) low) } gsi upd := by
  have hLocLt := hT.loc_lt hio₀ hg hLoc
  refine ⟨_, rfl, fun io hio k hk => ?_⟩
  rw [entry_writeReg _ _ _ hLocLt, hRead]
  have hSlot := slot_iff hT hio₀ hg hio hk
  rw [← hLoc] at hSlot
  constructor
  · intro _ hEq
    obtain ⟨hv, rfl⟩ := hSlot.mpr hEq
    rw [if_pos ⟨hv, rfl⟩, hv, hUpd]
  · intro hNe
    rw [if_neg (fun h => hNe (hSlot.mp h))]

/-- **Writing a redirection entry.** -/
theorem writeRedirectionEntry_touches (hT : TableOk physOffset hal.ioapicTable)
    (gsi low high : UInt32) :
    Touches physOffset hal (writeRedirectionEntryForGsi physOffset hal gsi low high).2 gsi
      (fun _ => (low, high)) := by
  cases hFind : findIoapicForGsi hal gsi with
  | none =>
    rw [writeRedirectionEntryForGsi, hFind]
    exact touches_of_not_found hFind _
  | some r =>
    obtain ⟨idx, loc⟩ := r
    obtain ⟨io₀, hio₀, hGet, hg, hLoc⟩ := findIoapicForGsi_some hFind
    have hMapped := hT.mapped io₀ hio₀
    simp only [writeRedirectionEntryForGsi, hFind, hGet, if_neg hMapped]
    exact touches_of_writeReg hT hio₀ hg hLoc (fun _ _ => rfl) rfl

/-- The entry after `enable_isos_for_local` handled it. -/
def enabled (localApicId : UInt8) (e : UInt32 × UInt32) : UInt32 × UInt32 :=
  (e.1 &&& ~~~ maskBit, localApicId.toUInt32 <<< 24)

/-- **Enabling a GSI.** -/
theorem enableGsi_touches (hT : TableOk physOffset hal.ioapicTable) (localApicId : UInt8)
    (gsi : UInt32) :
    Touches physOffset hal (enableGsi physOffset localApicId hal gsi) gsi
      (enabled localApicId) := by
  cases hFind : findIoapicForGsi hal gsi with
  | none =>
    rw [enableGsi, hFind]
    exact touches_of_not_found hFind _
  | some r =>
    obtain ⟨idx, loc⟩ := r
    obtain ⟨io₀, hio₀, hGet, hg, hLoc⟩ := findIoapicForGsi_some hFind
    have hMapped := hT.mapped io₀ hio₀
    have hLocLt := hT.loc_lt hio₀ hg hLoc
    simp only [enableGsi, hFind, hGet, if_neg hMapped]
    -- both registers are read before they are written back
    refine touches_of_writeReg hT hio₀ hg hLoc (fun _ _ => ?_) ?_
    · rw [entry_readReg, entry_readReg]
    · simp [enabled, entry, readReg, regLow_toNat hLocLt]

/-- **A loop of entry operations.** When every round touches the GSI `key b` of
its own loop item by an idempotent update, the loop touches exactly the GSIs
of its items. -/
theorem foldl_touches {β : Type*} {op : Hal → β → Hal} {key : β → UInt32}
    {upd : β → UInt32 × UInt32 → UInt32 × UInt32}
    (hOp : ∀ hal b, TableOk physOffset hal.ioapicTable →
      Touches physOffset hal (op hal b) (key b) (upd b))
    (hIdem : ∀ b e, upd b (upd b e) = upd b e) {items : List β}
    (hKey : ∀ b ∈ items, ∀ b' ∈ items, key b = key b' → b = b')
    (hT : TableOk physOffset hal.ioapicTable) :
    ∃ mmio, items.foldl op hal = { hal with mmio := mmio } ∧
      ∀ io ∈ hal.ioapicTable, ∀ k < io.redirEntries.toNat,
        (∀ b ∈ items, Found hal.ioapicTable (key b) → io.gsiBase.toNat + k = (key b).toNat →
          entry mmio (virtAddr io.physAddr physOffset) k =
            upd b (entry hal.mmio (virtAddr io.physAddr physOffset) k)) ∧
        ((∀ b ∈ items, io.gsiBase.toNat + k ≠ (key b).toNat) →
          entry mmio (virtAddr io.physAddr physOffset) k =
            entry hal.mmio (virtAddr io.physAddr physOffset) k) := by
  induction items generalizing hal with
  | nil => exact ⟨hal.mmio, rfl, fun _ _ _ _ => ⟨by simp, fun _ => rfl⟩⟩
  | cons a rest ih =>
    obtain ⟨mmio₁, hEq₁, hEntry₁⟩ := hOp hal a hT
    have hKeyRest : ∀ b ∈ rest, ∀ b' ∈ rest, key b = key b' → b = b' := fun b hb b' hb' =>
      hKey b (List.mem_cons_of_mem _ hb) b' (List.mem_cons_of_mem _ hb')
    obtain ⟨mmio₂, hEq₂, hEntry₂⟩ := @ih { hal with mmio := mmio₁ } hKeyRest hT
    refine ⟨mmio₂, by rw [List.foldl_cons, hEq₁, hEq₂], fun io hio k hk => ?_⟩
    obtain ⟨hHit₁, hMiss₁⟩ := hEntry₁ io hio k hk
    obtain ⟨hHit₂, hMiss₂⟩ := hEntry₂ io hio k hk
    constructor
    · intro b hb hFound hk'
      -- an item with the same key as `b` is `b` itself
      have hSame : ∀ b' ∈ a :: rest, io.gsiBase.toNat + k = (key b').toNat → b' = b :=
        fun b' hb' h => hKey b' hb' b hb (UInt32.toNat_inj.mp (by omega))
      by_cases hLater : b ∈ rest
      · rw [hHit₂ b hLater hFound hk']
        by_cases hNow : io.gsiBase.toNat + k = (key a).toNat
        · have hab := hSame a (List.mem_cons_self ..) hNow
          subst hab
          rw [hHit₁ hFound hk', hIdem]
        · rw [hMiss₁ hNow]
      · -- only this round hits the entry
        have hNow : b = a := by simpa [hLater] using hb
        subst hNow
        rw [hMiss₂ fun b' hb' h => hLater (hSame b' (List.mem_cons_of_mem _ hb') h ▸ hb'),
          hHit₁ hFound hk']
    · intro hNone
      rw [hMiss₂ fun b hb => hNone b (List.mem_cons_of_mem _ hb),
        hMiss₁ (hNone a (List.mem_cons_self ..))]

end Operations

end Neutrix.Ioapic
