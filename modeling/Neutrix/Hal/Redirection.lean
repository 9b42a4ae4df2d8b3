import Neutrix.Hal.IsaRouting

/-!
# Neutrix — redirection entries by GSI

All four functions that touch a redirection entry look up the IOAPIC of the
GSI, give up on a null pointer, and then access the pair of registers whose
numbers they compute from the local index. `slotOf` is the place they agree
on, and a `RedirOp` says what each of them does there.

* `redirection_entries` — in a table of separate IOAPICs the functions
  succeed for the handled GSIs of mapped IOAPICs, and change the entry of
  their own GSI and no other register.
* `redirection_accesses_iff` — for any table: a handled GSI is found and its
  accesses go to the registers of its entry, and to no other GSI's, exactly
  when the first IOAPIC that handles it with a range that ends below 2³² has
  it among its first 120 entries and shares them with no other GSI.
-/

namespace Neutrix.Ioapic

open Neutrix.Lib

variable {physOffset : UInt64} {hal : Hal}

-- ---------------------------------------------------------------------------
-- Places
-- ---------------------------------------------------------------------------

/-- The IOAPIC's base pointer and the local index for a GSI. -/
def slotOf (physOffset : UInt64) (hal : Hal) (gsi : UInt32) : Option (UInt64 × UInt32) :=
  (findIoapicForGsi hal gsi).bind fun (idx, loc) =>
    (hal.ioapicTable[idx]?).bind fun io =>
      if virtAddr io.physAddr physOffset = 0 then none
      else some (virtAddr io.physAddr physOffset, loc)

theorem slotOf_mmio (physOffset : UInt64) (hal : Hal) (mmio : WindowBus) (gsi : UInt32) :
    slotOf physOffset { hal with mmio := mmio } gsi = slotOf physOffset hal gsi := rfl

/-- The common shape of the functions. -/
theorem lookup_eq {β : Type*} (physOffset : UInt64) (hal : Hal) (gsi : UInt32) (fail : β)
    (body : UInt64 → UInt32 → β) :
    (match findIoapicForGsi hal gsi with
      | none => fail
      | some (idx, loc) =>
        match hal.ioapicTable[idx]? with
        | none => fail
        | some io =>
          if virtAddr io.physAddr physOffset = 0 then fail
          else body (virtAddr io.physAddr physOffset) loc) =
      match slotOf physOffset hal gsi with
      | none => fail
      | some (virt, loc) => body virt loc := by
  unfold slotOf
  cases findIoapicForGsi hal gsi with
  | none => rfl
  | some found =>
    obtain ⟨idx, loc⟩ := found
    dsimp only [Option.bind_some]
    cases hal.ioapicTable[idx]? with
    | none => rfl
    | some io =>
      dsimp only [Option.bind_some]
      by_cases hNull : virtAddr io.physAddr physOffset = 0
      · rw [if_pos hNull, if_pos hNull]
      · rw [if_neg hNull, if_neg hNull]

/-- The functions by what they do to an entry. -/
inductive RedirOp
  | write (low high : UInt32)
  | enable (localApicId : UInt8)
  | unmask (vector localApicId : UInt8)
  | read
deriving DecidableEq, Repr

/-- The accesses to the entry whose registers are `lo` and `hi`, and what is read. -/
def RedirOp.body (virt : UInt64) (lo hi : UInt8) : RedirOp → RegProgram (UInt32 × UInt32)
  | .write low high =>
    .write virt hi.toUInt32 high (.write virt lo.toUInt32 low (.pure (0, 0)))
  | .enable localApicId =>
    .read virt hi.toUInt32 fun high => .read virt lo.toUInt32 fun low =>
      .write virt hi.toUInt32 (localApicId.toUInt32 <<< 24)
        (.write virt lo.toUInt32 (low &&& ~~~ maskBit) (.pure (low, high)))
  | .unmask vector localApicId =>
    .read virt hi.toUInt32 fun high => .read virt lo.toUInt32 fun low =>
      .write virt hi.toUInt32 (localApicId.toUInt32 <<< 24)
        (.write virt lo.toUInt32
          (((low &&& ~~~ 0xFF) ||| (vector.toUInt32 &&& 0xFF)) &&& ~~~ maskBit)
          (.pure (low, high)))
  | .read =>
    .read virt lo.toUInt32 fun low => .read virt hi.toUInt32 fun high => .pure (low, high)

/-- A function as a program: without a place there are no accesses. -/
def RedirOp.prog (physOffset : UInt64) (hal : Hal) (gsi : UInt32) (op : RedirOp) :
    RegProgram (UInt32 × UInt32) :=
  match slotOf physOffset hal gsi with
  | none => .pure (0, 0)
  | some (virt, loc) => op.body virt (regLow loc) (regHigh loc)

/-- The result and the registers after a function ran. -/
def RedirOp.run (op : RedirOp) (virt : UInt64) (loc : UInt32) (mmio : WindowBus) :
    (UInt32 × UInt32) × WindowBus :=
  (op.body virt (regLow loc) (regHigh loc)).run mmio

theorem writeRedirectionEntryForGsi_eq (physOffset : UInt64) (hal : Hal) (gsi low high : UInt32) :
    writeRedirectionEntryForGsi physOffset hal gsi low high =
      match slotOf physOffset hal gsi with
      | none => (false, hal)
      | some (virt, loc) =>
        (true, { hal with mmio := ((RedirOp.write low high).run virt loc hal.mmio).2 }) := by
  unfold writeRedirectionEntryForGsi
  exact lookup_eq physOffset hal gsi (false, hal) fun virt loc =>
    (true, { hal with mmio := ((RedirOp.write low high).run virt loc hal.mmio).2 })

/-- The round of `enable_isos_for_local` for one GSI. -/
theorem enableGsi_eq (physOffset : UInt64) (localApicId : UInt8) (hal : Hal) (gsi : UInt32) :
    enableGsi physOffset localApicId hal gsi =
      match slotOf physOffset hal gsi with
      | none => hal
      | some (virt, loc) =>
        { hal with mmio := ((RedirOp.enable localApicId).run virt loc hal.mmio).2 } := by
  unfold enableGsi
  exact lookup_eq physOffset hal gsi hal fun virt loc =>
    { hal with mmio := ((RedirOp.enable localApicId).run virt loc hal.mmio).2 }

theorem unmaskGsi_eq (physOffset : UInt64) (hal : Hal) (gsi : UInt32)
    (vector localApicId : UInt8) :
    unmaskGsi physOffset hal gsi vector localApicId =
      match slotOf physOffset hal gsi with
      | none => (false, hal)
      | some (virt, loc) =>
        (true, { hal with
          mmio := ((RedirOp.unmask vector localApicId).run virt loc hal.mmio).2 }) := by
  unfold unmaskGsi
  exact lookup_eq physOffset hal gsi (false, hal) fun virt loc =>
    (true, { hal with mmio := ((RedirOp.unmask vector localApicId).run virt loc hal.mmio).2 })

theorem readRedirectionEntry_eq (physOffset : UInt64) (hal : Hal) (gsi : UInt32) :
    readRedirectionEntry physOffset hal gsi =
      match slotOf physOffset hal gsi with
      | none => (none, hal)
      | some (virt, loc) =>
        (some (RedirOp.read.run virt loc hal.mmio).1,
          { hal with mmio := (RedirOp.read.run virt loc hal.mmio).2 }) := by
  unfold readRedirectionEntry
  exact lookup_eq physOffset hal gsi (none, hal) fun virt loc =>
    (some (RedirOp.read.run virt loc hal.mmio).1,
      { hal with mmio := (RedirOp.read.run virt loc hal.mmio).2 })

-- ---------------------------------------------------------------------------
-- Separate IOAPICs
-- ---------------------------------------------------------------------------

/-- Every IOAPIC has its own registers and its own GSIs, and both can be numbered. -/
structure Separate (table : List IoApic) : Prop where
  ownRegs  : (table.map IoApic.physAddr).Nodup
  disjoint : table.Pairwise fun io io' => ∀ g, io.Handles g → ¬ io'.Handles g
  fits     : ∀ io ∈ table, io.gsiBase.toNat + io.redirEntries.toNat < 2 ^ 32
  small    : ∀ io ∈ table, io.redirEntries.toNat ≤ 120

/-- Some IOAPIC with a usable base pointer handles the GSI. -/
def Served (physOffset : UInt64) (table : List IoApic) (gsi : UInt32) : Prop :=
  ∃ io ∈ table, io.Handles gsi.toNat ∧ virtAddr io.physAddr physOffset ≠ 0

/-- The IOAPIC that a place belongs to. -/
structure PlaceOf (physOffset : UInt64) (gsi : UInt32) (virt : UInt64) (loc : UInt32)
    (io : IoApic) : Prop where
  handles : io.Handles gsi.toNat
  base    : virtAddr io.physAddr physOffset = virt
  mapped  : virt ≠ 0
  index   : loc.toNat = gsi.toNat - io.gsiBase.toNat

/-- The place is in the first IOAPIC that covers the GSI. -/
theorem slotOf_eq (physOffset : UInt64) (hal : Hal) (gsi : UInt32) :
    slotOf physOffset hal gsi =
      (hal.ioapicTable.find? fun io => io.Covers gsi).bind fun io =>
        if virtAddr io.physAddr physOffset = 0 then none
        else some (virtAddr io.physAddr physOffset, gsi - io.gsiBase) := by
  have hEq := findFrom_eq gsi hal.ioapicTable 0
  unfold slotOf findIoapicForGsi
  cases hFind : hal.ioapicTable.find? fun io => io.Covers gsi with
  | none =>
    rw [hFind] at hEq
    rw [hEq]
    rfl
  | some io =>
    rw [hFind] at hEq
    obtain ⟨j, hSome, hGet⟩ := hEq
    rw [hSome, Option.bind_some, Option.bind_some]
    dsimp only
    rw [Nat.zero_add, hGet, Option.bind_some]

theorem IoApic.Covers.toNat_sub {io : IoApic} {gsi : UInt32} (h : io.Covers gsi) :
    (gsi - io.gsiBase).toNat = gsi.toNat - io.gsiBase.toNat :=
  UInt32.toNat_sub_of_le _ _ ((io.covers_iff gsi).mpr h).1

theorem placeOf_of_slotOf {gsi : UInt32} {virt : UInt64} {loc : UInt32}
    (h : slotOf physOffset hal gsi = some (virt, loc)) :
    ∃ io ∈ hal.ioapicTable, PlaceOf physOffset gsi virt loc io := by
  rw [slotOf_eq] at h
  obtain ⟨io, hFind, hPlace⟩ := Option.bind_eq_some_iff.mp h
  have hCovers : io.Covers gsi := by simpa using List.find?_some hFind
  by_cases hNull : virtAddr io.physAddr physOffset = 0
  · rw [if_pos hNull] at hPlace
    cases hPlace
  · rw [if_neg hNull] at hPlace
    cases hPlace
    exact ⟨io, List.mem_of_find?_eq_some hFind, hCovers.1, rfl, hNull, hCovers.toNat_sub⟩

namespace Separate

variable (hT : Separate hal.ioapicTable) {gsi gsi' : UInt32} {virt : UInt64} {loc : UInt32}
include hT

theorem loc_lt (h : slotOf physOffset hal gsi = some (virt, loc)) : loc.toNat < 120 := by
  obtain ⟨io, hio, hPlace⟩ := placeOf_of_slotOf h
  have hSmall := hT.small io hio
  have hIndex := hPlace.index
  obtain ⟨hLow, hHigh⟩ := hPlace.handles
  omega

/-- The handled GSIs of mapped IOAPICs have a place. -/
theorem slotOf_isSome_iff :
    (slotOf physOffset hal gsi).isSome ↔ Served physOffset hal.ioapicTable gsi := by
  constructor
  · intro hSome
    obtain ⟨⟨virt, loc⟩, hSlot⟩ := Option.isSome_iff_exists.mp hSome
    obtain ⟨io, hio, hPlace⟩ := placeOf_of_slotOf hSlot
    exact ⟨io, hio, hPlace.handles, hPlace.base.symm ▸ hPlace.mapped⟩
  · rintro ⟨io, hio, hHandles, hMapped⟩
    have hSome : (hal.ioapicTable.find? fun io => io.Covers gsi).isSome :=
      List.find?_isSome.mpr
        ⟨io, hio, decide_eq_true (show io.Covers gsi from ⟨hHandles, hT.fits io hio⟩)⟩
    obtain ⟨io', hFind⟩ := Option.isSome_iff_exists.mp hSome
    have hCovers : io'.Covers gsi := by simpa using List.find?_some hFind
    obtain rfl := eq_of_both_handle hT.disjoint hio (List.mem_of_find?_eq_some hFind)
      hHandles hCovers.1
    rw [slotOf_eq, hFind, Option.bind_some, if_neg hMapped]
    rfl

end Separate

-- ---------------------------------------------------------------------------
-- What the functions do to entries
-- ---------------------------------------------------------------------------

/-- The entry after a function handled it. -/
def RedirOp.update (e : UInt32 × UInt32) : RedirOp → UInt32 × UInt32
  | .write low high => (low, high)
  | .enable localApicId => enabled localApicId e
  | .unmask vector localApicId =>
    (((e.1 &&& ~~~ 0xFF) ||| (vector.toUInt32 &&& 0xFF)) &&& ~~~ maskBit,
      localApicId.toUInt32 <<< 24)
  | .read => e

section Entries

variable {loc : UInt32} (hLoc : loc.toNat < 120) (mmio : WindowBus) (virt v : UInt64)
include hLoc

/-- A function changes the entry it was called for and no other. -/
theorem entry_run (op : RedirOp) (k : Nat) :
    entry (op.run virt loc mmio).2 v k =
      if v = virt ∧ k = loc.toNat then op.update (entry mmio virt loc.toNat)
      else entry mmio v k := by
  -- the registers after the reads that precede the writes
  let after := (readReg (readReg mmio virt (regHigh loc)).2 virt (regLow loc)).2
  have hAfter : entry after v k = entry mmio v k := by rw [entry_readReg, entry_readReg]
  have hLow : (readReg (readReg mmio virt (regHigh loc)).2 virt (regLow loc)).1 =
      (entry mmio virt loc.toNat).1 := by
    simp [readReg, entry, regLow_toNat hLoc]
  cases op with
  | write low high => exact entry_writeReg mmio virt v hLoc low high k
  | enable localApicId =>
    refine (entry_writeReg after virt v hLoc _ _ k).trans ?_
    rw [hAfter]
    exact hLow ▸ rfl
  | unmask vector localApicId =>
    refine (entry_writeReg after virt v hLoc _ _ k).trans ?_
    rw [hAfter]
    exact hLow ▸ rfl
  | read =>
    have hSame : entry (RedirOp.read.run virt loc mmio).2 v k = entry mmio v k := by
      show entry (readReg (readReg mmio virt (regLow loc)).2 virt (regHigh loc)).2 v k = _
      rw [entry_readReg, entry_readReg]
    rw [hSame]
    split_ifs with hAt
    · rw [hAt.1, hAt.2]
      rfl
    · rfl

/-- The registers before the first entry keep their values. -/
theorem get_run_of_lt (op : RedirOp) {r : Nat} (hr : r < 0x10) :
    (op.run virt loc mmio).2.get v r = mmio.get v r := by
  have hNotLow : ¬ (v = virt ∧ r = (regLow loc).toUInt32.toNat) := by
    rw [UInt8.toNat_toUInt32, regLow_toNat hLoc]
    omega
  have hNotHigh : ¬ (v = virt ∧ r = (regHigh loc).toUInt32.toNat) := by
    rw [UInt8.toNat_toUInt32, regHigh_toNat hLoc]
    omega
  cases op <;>
    simp only [RedirOp.run, RedirOp.body, RegProgram.run, WindowBus.get_write, WindowBus.get_read,
      if_neg hNotLow, if_neg hNotHigh]

theorem run_read_fst : (RedirOp.read.run virt loc mmio).1 = entry mmio virt loc.toNat := by
  simp [RedirOp.run, RedirOp.body, RegProgram.run, entry, regLow_toNat hLoc, regHigh_toNat hLoc]

end Entries

-- ---------------------------------------------------------------------------
-- Fields of an unmasked entry
-- ---------------------------------------------------------------------------

/-- What `unmask_gsi` promises about the entry. -/
structure UnmaskedAs (vec localApicId : UInt8) (e e' : UInt32 × UInt32) : Prop where
  vector      : vector e' = vec.toUInt32
  unmasked    : Unmasked e'
  destination : destination e' = localApicId
  others      : e'.1 &&& ~~~ (0xFF ||| maskBit) = e.1 &&& ~~~ (0xFF ||| maskBit)

theorem and_or_and (a b c d : UInt32) :
    ((a &&& b) ||| c) &&& d = (a &&& (b &&& d)) ||| (c &&& d) := by
  apply UInt32.toBitVec_inj.mp
  ext i hi
  simp [Bool.and_or_distrib_right, Bool.and_assoc]

theorem toUInt32_and_ff (v : UInt8) : v.toUInt32 &&& 0xFF = v.toUInt32 := by
  apply UInt32.toNat_inj.mp
  rw [UInt32.toNat_and]
  show v.toUInt32.toNat &&& (2 ^ 8 - 1) = _
  rw [Nat.and_two_pow_sub_one_eq_mod, UInt8.toNat_toUInt32, Nat.mod_eq_of_lt v.toNat_lt]

theorem unmask_update (vec localApicId : UInt8) (e : UInt32 × UInt32) :
    UnmaskedAs vec localApicId e ((RedirOp.unmask vec localApicId).update e) where
  vector := by
    show (((e.1 &&& ~~~ 0xFF) ||| (vec.toUInt32 &&& 0xFF)) &&& ~~~ maskBit) &&& 0xFF = _
    rw [UInt32.and_assoc, and_or_and, UInt32.and_assoc]
    show (e.1 &&& 0) ||| (vec.toUInt32 &&& 0xFF) = _
    rw [UInt32.and_zero, UInt32.zero_or, toUInt32_and_ff]
  unmasked := by
    show (_ &&& ~~~ maskBit) &&& maskBit = 0
    rw [UInt32.and_assoc]
    exact UInt32.and_zero
  destination := destination_enabled localApicId e
  others := by
    show (((e.1 &&& ~~~ 0xFF) ||| (vec.toUInt32 &&& 0xFF)) &&& ~~~ maskBit) &&&
      ~~~ (0xFF ||| maskBit) = _
    rw [UInt32.and_assoc, and_or_and, UInt32.and_assoc]
    show (e.1 &&& ~~~ (0xFF ||| maskBit)) ||| (vec.toUInt32 &&& 0) = _
    rw [UInt32.and_zero, UInt32.or_zero]

-- ---------------------------------------------------------------------------
-- Writing, unmasking and reading entries
-- ---------------------------------------------------------------------------

/-- From `hal` to `hal'` the table stays, and so do the entries of all GSIs but
`gsi` and the registers before the entries, ID (0) and version (1) among them. -/
structure KeepsOthers (physOffset : UInt64) (hal hal' : Hal) (gsi : UInt32) : Prop where
  table   : hal'.ioapicTable = hal.ioapicTable
  entries : ∀ io ∈ hal.ioapicTable, ∀ h : UInt32, io.Handles h.toNat → h ≠ gsi →
    hal'.entryOf physOffset io (h.toNat - io.gsiBase.toNat) =
      hal.entryOf physOffset io (h.toNat - io.gsiBase.toNat)
  first   : ∀ virt, ∀ r < 0x10, hal'.mmio.get virt r = hal.mmio.get virt r

theorem KeepsOthers.refl (physOffset : UInt64) (hal : Hal) (gsi : UInt32) :
    KeepsOthers physOffset hal hal gsi :=
  ⟨rfl, fun _ _ _ _ _ => rfl, fun _ _ _ => rfl⟩

section Results

variable (hT : Separate hal.ioapicTable) {gsi : UInt32} {virt : UInt64} {loc : UInt32}
  (hSlot : slotOf physOffset hal gsi = some (virt, loc))
include hT hSlot

theorem Separate.keepsOthers_run (op : RedirOp) :
    KeepsOthers physOffset hal { hal with mmio := (op.run virt loc hal.mmio).2 } gsi := by
  have hLoc := hT.loc_lt hSlot
  obtain ⟨io₀, hio₀, hPlace⟩ := placeOf_of_slotOf hSlot
  refine ⟨rfl, fun io hio h hHandles hNe => ?_, fun v r hr => get_run_of_lt hLoc _ _ _ op hr⟩
  show entry _ _ _ = entry _ _ _
  rw [entry_run hLoc, if_neg]
  -- the same place would be the same IOAPIC and the same GSI
  rintro ⟨hBase, hIndex⟩
  obtain rfl := eq_of_virtAddr hT.ownRegs hio hio₀ (hBase.trans hPlace.base.symm)
  have hLow := hHandles.1
  have hLow₀ := hPlace.handles.1
  have hIndex₀ := hPlace.index
  exact hNe (UInt32.toNat_inj.mp (by omega))

theorem Separate.entryOf_run (op : RedirOp) {io : IoApic} (hio : io ∈ hal.ioapicTable)
    (hHandles : io.Handles gsi.toNat) :
    ({ hal with mmio := (op.run virt loc hal.mmio).2 } : Hal).entryOf physOffset io
        (gsi.toNat - io.gsiBase.toNat) =
      op.update (hal.entryOf physOffset io (gsi.toNat - io.gsiBase.toNat)) := by
  have hLoc := hT.loc_lt hSlot
  obtain ⟨io₀, hio₀, hPlace⟩ := placeOf_of_slotOf hSlot
  obtain rfl := eq_of_both_handle hT.disjoint hio hio₀ hHandles hPlace.handles
  show entry _ _ _ = op.update (entry _ _ _)
  rw [entry_run hLoc, hPlace.base, ← hPlace.index, if_pos ⟨rfl, rfl⟩]

theorem Separate.read_run (op : RedirOp) :
    (readRedirectionEntry physOffset { hal with mmio := (op.run virt loc hal.mmio).2 } gsi).1 =
      some (op.update (entry hal.mmio virt loc.toNat)) := by
  have hLoc := hT.loc_lt hSlot
  rw [readRedirectionEntry_eq, slotOf_mmio, hSlot]
  dsimp only
  rw [run_read_fst hLoc, entry_run hLoc, if_pos ⟨rfl, rfl⟩]

end Results

/-- **Redirection entries by GSI.** -/
theorem redirection_entries (physOffset : UInt64) (hal : Hal) (hT : Separate hal.ioapicTable)
    (g : UInt32) :
    (∀ low high : UInt32, ∀ r, r = writeRedirectionEntryForGsi physOffset hal g low high →
      (r.1 = true ↔ Served physOffset hal.ioapicTable g) ∧
      (r.1 = true → (readRedirectionEntry physOffset r.2 g).1 = some (low, high)) ∧
      KeepsOthers physOffset hal r.2 g) ∧
    (∀ v id : UInt8, ∀ r, r = unmaskGsi physOffset hal g v id →
      (r.1 = true ↔ Served physOffset hal.ioapicTable g) ∧
      (r.1 = true → ∀ io ∈ hal.ioapicTable, io.Handles g.toNat →
        UnmaskedAs v id (hal.entryOf physOffset io (g.toNat - io.gsiBase.toNat))
          (r.2.entryOf physOffset io (g.toNat - io.gsiBase.toNat))) ∧
      KeepsOthers physOffset hal r.2 g) := by
  have hServed : _ ↔ Served physOffset hal.ioapicTable g := hT.slotOf_isSome_iff
  cases hSlot : slotOf physOffset hal g with
  | none =>
    -- without a place nothing happens
    have hNot : ¬ Served physOffset hal.ioapicTable g := fun h => by
      have := hServed.mpr h
      rw [hSlot] at this
      cases this
    refine ⟨fun low high r hr => ?_, fun v id r hr => ?_⟩
    · rw [writeRedirectionEntryForGsi_eq, hSlot] at hr
      subst hr
      exact ⟨iff_of_false Bool.false_ne_true hNot, fun h => absurd h Bool.false_ne_true,
        .refl physOffset hal g⟩
    · rw [unmaskGsi_eq, hSlot] at hr
      subst hr
      exact ⟨iff_of_false Bool.false_ne_true hNot, fun h => absurd h Bool.false_ne_true,
        .refl physOffset hal g⟩
  | some place =>
    obtain ⟨virt, loc⟩ := place
    have hYes : Served physOffset hal.ioapicTable g := hServed.mp (by rw [hSlot]; rfl)
    refine ⟨fun low high r hr => ?_, fun v id r hr => ?_⟩
    · rw [writeRedirectionEntryForGsi_eq, hSlot] at hr
      subst hr
      exact ⟨iff_of_true rfl hYes, fun _ => hT.read_run hSlot (.write low high),
        hT.keepsOthers_run hSlot _⟩
    · rw [unmaskGsi_eq, hSlot] at hr
      subst hr
      refine ⟨iff_of_true rfl hYes, fun _ io hio hHandles => ?_, hT.keepsOthers_run hSlot _⟩
      dsimp only
      rw [hT.entryOf_run hSlot _ hio hHandles]
      exact unmask_update v id _

/-- The registers of `pcHal` behind a given table. -/
def halOf (table : List IoApic) : Hal := { pcHal [] with ioapicTable := table }

/-- Two IOAPICs with 24 entries each. -/
def twoIoapics : List IoApic := [⟨0, 0xFEC00000, 0, 24⟩, ⟨1, 0xFEC01000, 24, 24⟩]

theorem redirection_entries_second :
    Separate twoIoapics ∧ Served pcOffset twoIoapics 30 ∧
    (writeRedirectionEntryForGsi pcOffset (halOf twoIoapics) 30 0x41 0).1 = true ∧
    (readRedirectionEntry pcOffset
      (writeRedirectionEntryForGsi pcOffset (halOf twoIoapics) 30 0x41 0).2 30).1 =
        some (0x41, 0) := by
  have hT : Separate twoIoapics := by
    refine ⟨by decide, ?_, by decide, by decide⟩
    refine List.pairwise_pair.mpr fun g hLow hHigh => ?_
    have h1 : g < 0 + 24 := hLow.2
    have h2 : 24 ≤ g := hHigh.1
    omega
  have hServed : Served pcOffset twoIoapics 30 :=
    ⟨⟨1, 0xFEC01000, 24, 24⟩, by decide, ⟨by decide, by decide⟩, by decide⟩
  obtain ⟨hOk, hRead, -⟩ :=
    (redirection_entries pcOffset (halOf twoIoapics) hT 30).1 0x41 0 _ rfl
  exact ⟨hT, hServed, hOk.mpr hServed, hRead (hOk.mpr hServed)⟩

/-- Without a direct map an IOAPIC at physical address 0 has a null pointer:
its GSIs are handled, and the guard rejects them. -/
theorem null_ioapic_rejected :
    Separate [⟨0, 0, 0, 24⟩] ∧ IoApic.Handles ⟨0, 0, 0, 24⟩ 0 ∧
    (writeRedirectionEntryForGsi 0 (halOf [⟨0, 0, 0, 24⟩]) 0 0x20 0).1 = false ∧
    (unmaskGsi 0 (halOf [⟨0, 0, 0, 24⟩]) 0 0x20 0).1 = false := by
  refine ⟨⟨by decide, List.pairwise_singleton _ _, by decide, by decide⟩,
    ⟨by decide, by decide⟩, rfl, rfl⟩

-- ---------------------------------------------------------------------------
-- Overflow and truncation
-- ---------------------------------------------------------------------------

/-- The two registers of the entry of a GSI in an IOAPIC that handles it. -/
def IoApic.pair (io : IoApic) (physOffset : UInt64) (gsi : UInt32) : List (UInt64 × Nat) :=
  [(virtAddr io.physAddr physOffset, 0x10 + 2 * (gsi.toNat - io.gsiBase.toNat)),
    (virtAddr io.physAddr physOffset, 0x11 + 2 * (gsi.toNat - io.gsiBase.toNat))]

/-- No computation on the way to the entry of a GSI wraps: a handled GSI is
found, its accesses go to the two registers of its entry, which are neither the
ID nor the version register nor the registers of another GSI. -/
structure ReachesEntry (physOffset : UInt64) (hal : Hal) (gsi : UInt32) : Prop where
  found : (∃ io ∈ hal.ioapicTable, io.Handles gsi.toNat) → (findIoapicForGsi hal gsi).isSome
  own   : ∀ idx loc io, findIoapicForGsi hal gsi = some (idx, loc) →
    hal.ioapicTable[idx]? = some io →
    ∀ op : RedirOp, ∀ a ∈ (op.prog physOffset hal gsi).accesses hal.mmio,
      a ∈ io.pair physOffset gsi
  noId  : ∀ op : RedirOp, ∀ a ∈ (op.prog physOffset hal gsi).accesses hal.mmio,
    a.2 ≠ 0 ∧ a.2 ≠ 1
  other : ∀ op : RedirOp, ∀ a ∈ (op.prog physOffset hal gsi).accesses hal.mmio,
    ∀ io ∈ hal.ioapicTable, ∀ h, io.Handles h.toNat → h ≠ gsi → a ∉ io.pair physOffset h

/-- Nothing handles the GSI, or the first IOAPIC that does with a range that
ends below 2³² has a null pointer, or it has the GSI among its first 120
entries and shares the entry's registers with no other GSI. -/
def InReach (physOffset : UInt64) (table : List IoApic) (gsi : UInt32) : Prop :=
  (∀ io ∈ table, ¬ io.Handles gsi.toNat) ∨
    ∃ io, (table.find? fun io => io.Covers gsi) = some io ∧
      (virtAddr io.physAddr physOffset = 0 ∨
        gsi.toNat - io.gsiBase.toNat < 120 ∧
          ∀ io' ∈ table, io'.physAddr = io.physAddr →
            ∀ h : UInt32, io'.Handles h.toNat →
              h.toNat - io'.gsiBase.toNat = gsi.toNat - io.gsiBase.toNat → h = gsi)

theorem RedirOp.accesses_body {op : RedirOp} {virt : UInt64} {lo hi : UInt8} {mmio : WindowBus}
    {a : UInt64 × Nat} (h : a ∈ (op.body virt lo hi).accesses mmio) :
    a = (virt, lo.toNat) ∨ a = (virt, hi.toNat) := by
  cases op <;>
    · simp only [RedirOp.body, RegProgram.accesses, List.mem_cons, List.not_mem_nil, or_false,
        UInt8.toNat_toUInt32] at h
      tauto

theorem IoApic.mem_pair {io : IoApic} {gsi : UInt32} {virt : UInt64} {r : Nat} :
    (virt, r) ∈ io.pair physOffset gsi ↔ virt = virtAddr io.physAddr physOffset ∧
      (r = 0x10 + 2 * (gsi.toNat - io.gsiBase.toNat) ∨
        r = 0x11 + 2 * (gsi.toNat - io.gsiBase.toNat)) := by
  simp only [IoApic.pair, List.mem_cons, List.not_mem_nil, or_false, Prod.mk.injEq]
  tauto

section Reach

variable {gsi : UInt32} {io : IoApic}
  (hFind : (hal.ioapicTable.find? fun io => io.Covers gsi) = some io)
include hFind

theorem covers_of_find : io.Covers gsi := by simpa using List.find?_some hFind

theorem findIoapicForGsi_of_find : ∃ idx,
    findIoapicForGsi hal gsi = some (idx, gsi - io.gsiBase) ∧ hal.ioapicTable[idx]? = some io := by
  have hEq := findFrom_eq gsi hal.ioapicTable 0
  rw [hFind] at hEq
  obtain ⟨j, hSome, hGet⟩ := hEq
  exact ⟨0 + j, hSome, by rwa [Nat.zero_add]⟩

/-- An access of a GSI among the first 120 entries is one of the pair. -/
theorem accesses_mem_pair (hLoc : gsi.toNat - io.gsiBase.toNat < 120) {op : RedirOp}
    {a : UInt64 × Nat} (ha : a ∈ (op.prog physOffset hal gsi).accesses hal.mmio) :
    a ∈ io.pair physOffset gsi := by
  have hSub := (covers_of_find hFind).toNat_sub
  unfold RedirOp.prog at ha
  rw [slotOf_eq, hFind, Option.bind_some] at ha
  by_cases hNull : virtAddr io.physAddr physOffset = 0
  · rw [if_pos hNull] at ha
    cases ha
  · rw [if_neg hNull] at ha
    rcases RedirOp.accesses_body ha with rfl | rfl
    · rw [regLow_toNat (by omega), hSub]
      exact IoApic.mem_pair.mpr ⟨rfl, .inl rfl⟩
    · rw [regHigh_toNat (by omega), hSub]
      exact IoApic.mem_pair.mpr ⟨rfl, .inr (by omega)⟩

/-- Reading starts with the low register, whose number was cut to 8 bits. -/
theorem regLow_mem_accesses (hMapped : virtAddr io.physAddr physOffset ≠ 0) :
    (virtAddr io.physAddr physOffset, (regLow (gsi - io.gsiBase)).toNat) ∈
      (RedirOp.read.prog physOffset hal gsi).accesses hal.mmio := by
  unfold RedirOp.prog
  rw [slotOf_eq, hFind, Option.bind_some, if_neg hMapped]
  simp [RedirOp.body, RegProgram.accesses]

theorem accesses_of_null (hNull : virtAddr io.physAddr physOffset = 0) (op : RedirOp) :
    (op.prog physOffset hal gsi).accesses hal.mmio = [] := by
  unfold RedirOp.prog
  rw [slotOf_eq, hFind, Option.bind_some, if_pos hNull]
  rfl

end Reach

/-- Without accesses only the lookup can go wrong. -/
theorem reachesEntry_of_quiet {gsi : UInt32}
    (hQuiet : ∀ op : RedirOp, (op.prog physOffset hal gsi).accesses hal.mmio = [])
    (hFound : (∃ io ∈ hal.ioapicTable, io.Handles gsi.toNat) →
      (findIoapicForGsi hal gsi).isSome) : ReachesEntry physOffset hal gsi := by
  have hNo : ∀ op : RedirOp, ∀ a, a ∉ (op.prog physOffset hal gsi).accesses hal.mmio := by
    intro op a ha
    rw [hQuiet op] at ha
    cases ha
  exact ⟨hFound, fun _ _ _ _ _ op a ha => absurd ha (hNo op a),
    fun op a ha => absurd ha (hNo op a), fun op a ha => absurd ha (hNo op a)⟩

/-- The GSI that nothing covers is reached when nothing handles it. -/
theorem reachesEntry_iff_of_none {gsi : UInt32}
    (hFind : (hal.ioapicTable.find? fun io => io.Covers gsi) = none) :
    ReachesEntry physOffset hal gsi ↔ ∀ io ∈ hal.ioapicTable, ¬ io.Handles gsi.toNat := by
  have hNone : findIoapicForGsi hal gsi = none := by
    have hEq := findFrom_eq gsi hal.ioapicTable 0
    rw [hFind] at hEq
    exact hEq
  constructor
  · intro hR io hio hHandles
    have hSome := hR.found ⟨io, hio, hHandles⟩
    rw [hNone] at hSome
    cases hSome
  · intro hFree
    refine reachesEntry_of_quiet (fun op => ?_) fun ⟨io, hio, hHandles⟩ =>
      absurd hHandles (hFree io hio)
    unfold RedirOp.prog
    rw [slotOf_eq, hFind]
    rfl

section Reach

variable {gsi : UInt32} {io : IoApic}
  (hFind : (hal.ioapicTable.find? fun io => io.Covers gsi) = some io)
include hFind

theorem reachesEntry_of_own (hLoc : gsi.toNat - io.gsiBase.toNat < 120)
    (hOwn : ∀ io' ∈ hal.ioapicTable, io'.physAddr = io.physAddr → ∀ h : UInt32,
      io'.Handles h.toNat → h.toNat - io'.gsiBase.toNat = gsi.toNat - io.gsiBase.toNat → h = gsi) :
    ReachesEntry physOffset hal gsi := by
  obtain ⟨idx, hSome, hGet⟩ := findIoapicForGsi_of_find hFind
  refine ⟨fun _ => by rw [hSome]; rfl, ?_, ?_, ?_⟩
  · intro idx' loc io' hSome' hGet' op a ha
    cases hSome.symm.trans hSome'
    cases hGet.symm.trans hGet'
    exact accesses_mem_pair hFind hLoc ha
  · intro op a ha
    obtain ⟨-, hReg⟩ := IoApic.mem_pair.mp (accesses_mem_pair hFind hLoc ha)
    omega
  · -- equal registers are equal addresses and equal indices
    intro op a ha io' hio' h hHandles hNe hPair
    obtain ⟨hBase, hReg⟩ := IoApic.mem_pair.mp (accesses_mem_pair hFind hLoc ha)
    obtain ⟨hBase', hReg'⟩ := IoApic.mem_pair.mp hPair
    exact hNe (hOwn io' hio' (virtAddr_inj.mp (hBase'.symm.trans hBase)) h hHandles (by omega))

theorem ReachesEntry.own_of_mapped (hR : ReachesEntry physOffset hal gsi)
    (hMapped : virtAddr io.physAddr physOffset ≠ 0) :
    gsi.toNat - io.gsiBase.toNat < 120 ∧ ∀ io' ∈ hal.ioapicTable, io'.physAddr = io.physAddr →
      ∀ h : UInt32, io'.Handles h.toNat →
        h.toNat - io'.gsiBase.toNat = gsi.toNat - io.gsiBase.toNat → h = gsi := by
  obtain ⟨idx, hSome, hGet⟩ := findIoapicForGsi_of_find hFind
  have hSub := (covers_of_find hFind).toNat_sub
  have hAccess := regLow_mem_accesses hFind hMapped
  -- the 8-bit register number is the right one only below 256
  obtain ⟨-, hReg⟩ := IoApic.mem_pair.mp (hR.own idx _ io hSome hGet .read _ hAccess)
  have hByte := (regLow (gsi - io.gsiBase)).toNat_lt
  have hLoc : gsi.toNat - io.gsiBase.toNat < 120 := by omega
  refine ⟨hLoc, fun io' hio' hAddr h hHandles hIndex => ?_⟩
  by_contra hNe
  apply hR.other .read _ hAccess io' hio' h hHandles hNe
  rw [regLow_toNat (by omega), hSub]
  exact IoApic.mem_pair.mpr ⟨by rw [hAddr], .inl (by rw [hIndex])⟩

end Reach

/-- **Where accesses by GSI go.** The first IOAPIC that covers the GSI decides. -/
theorem redirection_accesses_iff (physOffset : UInt64) (hal : Hal) (gsi : UInt32) :
    ReachesEntry physOffset hal gsi ↔ InReach physOffset hal.ioapicTable gsi := by
  cases hFind : hal.ioapicTable.find? fun io => io.Covers gsi with
  | none =>
    rw [reachesEntry_iff_of_none hFind]
    refine ⟨.inl, ?_⟩
    rintro (hFree | ⟨io, hSome, -⟩)
    · exact hFree
    · cases hFind.symm.trans hSome
  | some io =>
    have hCovers := covers_of_find hFind
    constructor
    · intro hR
      refine .inr ⟨io, hFind, ?_⟩
      by_cases hNull : virtAddr io.physAddr physOffset = 0
      · exact .inl hNull
      · exact .inr (hR.own_of_mapped hFind hNull)
    · rintro (hFree | ⟨io', hFind', hReach⟩)
      · exact absurd hCovers.1 (hFree io (List.mem_of_find?_eq_some hFind))
      cases hFind.symm.trans hFind'
      rcases hReach with hNull | ⟨hLoc, hOwn⟩
      · obtain ⟨idx, hSome, -⟩ := findIoapicForGsi_of_find hFind
        exact reachesEntry_of_quiet (accesses_of_null hFind hNull) fun _ => by rw [hSome]; rfl
      · exact reachesEntry_of_own hFind hLoc hOwn

/-- One IOAPIC with the given first GSI and version register, found by ACPI. -/
def firmwareHal (gsiBase version : UInt32) : Hal where
  ioapics     := [⟨0, 0xFEC00000, gsiBase⟩]
  isos        := []
  ioapicTable := []
  mmio        := fun _ => { select := 0, regs := fun r => if r = 1 then version else 0 }

/-- GSI 120 of an IOAPIC with 128 entries is found, and writing its entry
overwrites the version and the ID register; a range that ends at 2³² or beyond
is not found at all. -/
theorem entry_120_is_the_id_register :
    ((RedirOp.write 0x98 0).prog pcOffset (initFromAcpi pcOffset (firmwareHal 0 0x7F0011))
      120).accesses (initFromAcpi pcOffset (firmwareHal 0 0x7F0011)).mmio =
        [(virtAddr 0xFEC00000 pcOffset, 1), (virtAddr 0xFEC00000 pcOffset, 0)] ∧
    ¬ ReachesEntry pcOffset (initFromAcpi pcOffset (firmwareHal 0 0x7F0011)) 120 ∧
    findIoapicForGsi (initFromAcpi pcOffset (firmwareHal 0xFFFFFFF0 0x170011)) 0xFFFFFFF0 = none ∧
    ¬ ReachesEntry pcOffset (initFromAcpi pcOffset (firmwareHal 0xFFFFFFF0 0x170011))
      0xFFFFFFF0 := by
  have hAccesses : ((RedirOp.write 0x98 0).prog pcOffset
      (initFromAcpi pcOffset (firmwareHal 0 0x7F0011)) 120).accesses
        (initFromAcpi pcOffset (firmwareHal 0 0x7F0011)).mmio =
      [(virtAddr 0xFEC00000 pcOffset, 1), (virtAddr 0xFEC00000 pcOffset, 0)] := by
    decide
  have hNone : findIoapicForGsi (initFromAcpi pcOffset (firmwareHal 0xFFFFFFF0 0x170011))
      0xFFFFFFF0 = none := by
    decide
  refine ⟨hAccesses, fun hR => ?_, hNone, fun hR => ?_⟩
  · have hMem : (virtAddr 0xFEC00000 pcOffset, 0) ∈
        [(virtAddr 0xFEC00000 pcOffset, 1), (virtAddr 0xFEC00000 pcOffset, 0)] := by decide
    rw [← hAccesses] at hMem
    exact (hR.noId _ _ hMem).1 rfl
  · have hSome := hR.found ⟨⟨0, 0xFEC00000, 0xFFFFFFF0, 24⟩, by decide, by decide, by decide⟩
    rw [hNone] at hSome
    cases hSome

end Neutrix.Ioapic
