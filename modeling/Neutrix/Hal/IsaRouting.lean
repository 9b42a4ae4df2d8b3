import Neutrix.Hal.IoapicTable

/-!
# Neutrix — routing of the ISA interrupts

`init_hardware` programs the redirection entries in two passes (the
Interrupt Source Overrides, then GSI 0..15 as a fallback) and
`enable_isos_for_local` unmasks both kinds. `IsaRouted` says what the
passes are for: ISA source `s` arrives at vector `0x20 + s`, through its
override GSI if it has one, and no vector is shared.

The fallback pass runs after the overrides and reprograms GSI 0..15
regardless of them, so the passes reach this goal only when the overrides
have nothing to override: `isaRouted_iff`. The usual PC override of the
timer (source 0 on GSI 2) already breaks it (`timer_override_lost`).
-/

namespace Neutrix.Ioapic

open Neutrix.Lib

-- ---------------------------------------------------------------------------
-- The goal
-- ---------------------------------------------------------------------------

def Unmasked (e : UInt32 × UInt32) : Prop := e.1 &&& maskBit = 0

def vector (e : UInt32 × UInt32) : UInt32 := e.1 &&& 0xFF

/-- Destination field, bits 63..56 of the entry. -/
def destination (e : UInt32 × UInt32) : UInt8 := (e.2 >>> 24).toUInt8

/-- The redirection entry of an IOAPIC of the table. -/
def Hal.entryOf (hal : Hal) (physOffset : UInt64) (io : IoApic) (k : Nat) : UInt32 × UInt32 :=
  entry hal.mmio (virtAddr io.physAddr physOffset) k

/-- What the passes are for. Entry `k` of an IOAPIC is the entry of GSI
`gsi_base + k`. -/
structure IsaRouted (physOffset : UInt64) (localApicId : UInt8) (hal : Hal) : Prop where
  overridden : ∀ iso ∈ hal.isos, ∀ io ∈ hal.ioapicTable, ∀ k < io.redirEntries.toNat,
    io.gsiBase.toNat + k = iso.gsi.toNat →
      Unmasked (hal.entryOf physOffset io k) ∧
      vector (hal.entryOf physOffset io k) = 0x20 + iso.source.toUInt32 ∧
      destination (hal.entryOf physOffset io k) = localApicId
  direct : ∀ irq < 16,
    (∀ iso ∈ hal.isos, iso.source.toNat ≠ irq ∧ iso.gsi.toNat ≠ irq) →
    ∀ io ∈ hal.ioapicTable, ∀ k < io.redirEntries.toNat, io.gsiBase.toNat + k = irq →
      Unmasked (hal.entryOf physOffset io k) ∧
      vector (hal.entryOf physOffset io k) = 0x20 + UInt32.ofNat irq
  distinct : ∀ io ∈ hal.ioapicTable, ∀ io' ∈ hal.ioapicTable,
    ∀ k < io.redirEntries.toNat, ∀ k' < io'.redirEntries.toNat,
      Unmasked (hal.entryOf physOffset io k) → Unmasked (hal.entryOf physOffset io' k') →
      vector (hal.entryOf physOffset io k) = vector (hal.entryOf physOffset io' k') →
      io = io' ∧ k = k'

/-- The machine before the passes run: overrides for distinct ISA sources on
distinct GSIs, and a sane IOAPIC table that handles GSI 0..15 and the
overrides' GSIs. -/
structure Platform (physOffset : UInt64) (hal : Hal) : Prop where
  table           : TableOk physOffset (initFromAcpi physOffset hal).ioapicTable
  coversIsa       : ∀ gsi < 16, ∃ io ∈ (initFromAcpi physOffset hal).ioapicTable, io.Handles gsi
  coversIsos      : ∀ iso ∈ hal.isos, ∃ io ∈ (initFromAcpi physOffset hal).ioapicTable,
    io.Handles iso.gsi.toNat
  sources         : ∀ iso ∈ hal.isos, iso.source.toNat < 16
  distinctSources : (hal.isos.map IsoInfo.source).Nodup
  distinctGsis    : (hal.isos.map IsoInfo.gsi).Nodup

/-- The entries outside GSI 0..15 that firmware left unmasked use vectors
outside `0x20..0x2F`, each its own. At reset all entries are masked. -/
structure QuietElsewhere (physOffset : UInt64) (hal : Hal) : Prop where
  outside  : ∀ io ∈ (initFromAcpi physOffset hal).ioapicTable, ∀ k < io.redirEntries.toNat,
    16 ≤ io.gsiBase.toNat + k → Unmasked (hal.entryOf physOffset io k) →
    ∀ irq < 16, vector (hal.entryOf physOffset io k) ≠ 0x20 + UInt32.ofNat irq
  distinct : ∀ io ∈ (initFromAcpi physOffset hal).ioapicTable,
    ∀ io' ∈ (initFromAcpi physOffset hal).ioapicTable,
    ∀ k < io.redirEntries.toNat, ∀ k' < io'.redirEntries.toNat,
      16 ≤ io.gsiBase.toNat + k → 16 ≤ io'.gsiBase.toNat + k' →
      Unmasked (hal.entryOf physOffset io k) → Unmasked (hal.entryOf physOffset io' k') →
      vector (hal.entryOf physOffset io k) = vector (hal.entryOf physOffset io' k') →
      io = io' ∧ k = k'

-- ---------------------------------------------------------------------------
-- The passes, one by one
-- ---------------------------------------------------------------------------

section Passes

variable {physOffset : UInt64} {localApicId : UInt8} {hal : Hal}

theorem discover_frame (physOffset : UInt64) (hal : Hal) (info : IoApicInfo) :
    (discover physOffset hal info).isos = hal.isos ∧
    ∀ virt k, entry (discover physOffset hal info).mmio virt k = entry hal.mmio virt k := by
  rw [discover]
  by_cases hv : virtAddr info.addr physOffset = 0
  · simp [hv]
  · simp only [if_neg hv, true_and]
    exact fun virt k => entry_readReg ..

theorem logVersion_frame (physOffset : UInt64) (hal : Hal) (io : IoApic) :
    (logVersion physOffset hal io).isos = hal.isos ∧
    ∀ virt k, entry (logVersion physOffset hal io).mmio virt k = entry hal.mmio virt k := by
  rw [logVersion, IoApic.readVersion]
  by_cases hv : virtAddr io.physAddr physOffset = 0
  · simp [hv]
  · simp only [if_neg hv, true_and]
    exact fun virt k => entry_readReg ..

/-- A loop whose rounds leave overrides and entries alone does so as well. -/
theorem foldl_frame {β : Type*} {op : Hal → β → Hal}
    (hOp : ∀ hal b, (op hal b).isos = hal.isos ∧
      ∀ virt k, entry (op hal b).mmio virt k = entry hal.mmio virt k) (items : List β) (hal : Hal) :
    (items.foldl op hal).isos = hal.isos ∧
    ∀ virt k, entry (items.foldl op hal).mmio virt k = entry hal.mmio virt k := by
  induction items generalizing hal with
  | nil => exact ⟨rfl, fun _ _ => rfl⟩
  | cons b rest ih =>
    obtain ⟨hIsos, hEntry⟩ := ih (op hal b)
    exact ⟨hIsos.trans (hOp hal b).1, fun virt k => (hEntry virt k).trans ((hOp hal b).2 virt k)⟩

/-- Discovery fills the table and leaves overrides and entries alone. -/
theorem initFromAcpi_frame (physOffset : UInt64) (hal : Hal) :
    (initFromAcpi physOffset hal).isos = hal.isos ∧
    ∀ virt k, entry (initFromAcpi physOffset hal).mmio virt k = entry hal.mmio virt k := by
  rw [initFromAcpi]
  split_ifs
  · exact ⟨rfl, fun _ _ => rfl⟩
  · obtain ⟨hIsos, hEntry⟩ := foldl_frame (discover_frame physOffset) hal.ioapics hal
    obtain ⟨hIsos', hEntry'⟩ := foldl_frame (logVersion_frame physOffset)
      (hal.ioapics.foldl (discover physOffset) hal).ioapicTable
      (hal.ioapics.foldl (discover physOffset) hal)
    exact ⟨hIsos'.trans hIsos, fun virt k => (hEntry' virt k).trans (hEntry virt k)⟩

theorem applyIso_touches (hal : Hal) (iso : IsoInfo) (hT : TableOk physOffset hal.ioapicTable) :
    Touches physOffset hal (applyIso physOffset hal iso) iso.gsi
      (fun _ => (maskedEntry iso.source.toUInt32, 0)) := by
  rw [applyIso]
  cases hFind : findIoapicForGsi hal iso.gsi with
  | none => exact touches_of_not_found hFind _
  | some _ => exact writeRedirectionEntry_touches hT _ _ _

theorem toNat_ofNat_irq {irq : Nat} (h : irq < 16) : (UInt32.ofNat irq).toNat = irq :=
  UInt32.toNat_ofNat_of_lt' (h.trans (by decide))

theorem mem_legacyIrqs {gsi : UInt32} : gsi ∈ legacyIrqs ↔ gsi.toNat < 16 := by
  rw [legacyIrqs, List.mem_map]
  constructor
  · rintro ⟨irq, hIrq, rfl⟩
    rw [List.mem_range] at hIrq
    rwa [toNat_ofNat_irq hIrq]
  · intro h
    exact ⟨gsi.toNat, List.mem_range.mpr h, by simp⟩

theorem legacyIrqs_ne {n : Nat} (h : 16 ≤ n) : ∀ gsi ∈ legacyIrqs, n ≠ gsi.toNat := by
  intro gsi hGsi
  have := mem_legacyIrqs.mp hGsi
  omega

/-- The driver finds an IOAPIC for each of GSI 0..15. -/
theorem Platform.found (hP : Platform physOffset hal) {gsi : UInt32} (h : gsi.toNat < 16) :
    Found (initFromAcpi physOffset hal).ioapicTable gsi := by
  obtain ⟨io, hio, hg⟩ := hP.coversIsa gsi.toNat h
  -- the range starts below 16 and is short, so its end does not wrap
  have hEnd : io.gsiBase.toNat + io.redirEntries.toNat < 2 ^ 32 := by
    have hSmall := hP.table.small io hio
    have hLow := hg.1
    omega
  exact findFrom_isSome hio hg hEnd 0

/-- The overrides' GSIs identify them. -/
theorem Platform.iso_inj (hP : Platform physOffset hal) :
    ∀ iso ∈ hal.isos, ∀ iso' ∈ hal.isos, iso.gsi = iso'.gsi → iso = iso' :=
  fun _ h _ h' => List.inj_on_of_nodup_map hP.distinctGsis h h'

theorem Platform.ofNat_source (hP : Platform physOffset hal) {iso : IsoInfo}
    (h : iso ∈ hal.isos) : UInt32.ofNat iso.source.toNat = iso.source.toUInt32 := by
  apply UInt32.toNat_inj.mp
  rw [toNat_ofNat_irq (hP.sources iso h), UInt8.toNat_toUInt32]

/-- **After `init_hardware`** the entries of GSI 0..15 are the fallback's, whatever
the overrides say, and an entry that no override names is untouched. -/
theorem initHardware_entry (hP : Platform physOffset hal) :
    ∃ mmio, initHardware physOffset hal = { initFromAcpi physOffset hal with mmio := mmio } ∧
      ∀ io ∈ (initFromAcpi physOffset hal).ioapicTable, ∀ k < io.redirEntries.toNat,
        (∀ irq < 16, io.gsiBase.toNat + k = irq →
          entry mmio (virtAddr io.physAddr physOffset) k = (maskedEntry (UInt32.ofNat irq), 0)) ∧
        (16 ≤ io.gsiBase.toNat + k → (∀ iso ∈ hal.isos, io.gsiBase.toNat + k ≠ iso.gsi.toNat) →
          entry mmio (virtAddr io.physAddr physOffset) k =
            entry hal.mmio (virtAddr io.physAddr physOffset) k) := by
  obtain ⟨hIsos, hEntry₀⟩ := initFromAcpi_frame physOffset hal
  obtain ⟨mmio₁, hEq₁, hEntry₁⟩ : ∃ mmio, applyIsosFromAcpi physOffset
      (initFromAcpi physOffset hal) = { initFromAcpi physOffset hal with mmio := mmio } ∧
      ∀ io ∈ (initFromAcpi physOffset hal).ioapicTable, ∀ k < io.redirEntries.toNat,
        (∀ iso ∈ hal.isos, io.gsiBase.toNat + k ≠ iso.gsi.toNat) →
          entry mmio (virtAddr io.physAddr physOffset) k =
            entry hal.mmio (virtAddr io.physAddr physOffset) k := by
    rw [applyIsosFromAcpi, hIsos]
    split_ifs
    · exact ⟨_, rfl, fun io _ k _ _ => hEntry₀ ..⟩
    · obtain ⟨mmio, hEq, hEntry⟩ := foldl_touches applyIso_touches (fun _ _ => rfl) hP.iso_inj
        hP.table
      exact ⟨mmio, hEq, fun io hio k hk hNone =>
        ((hEntry io hio k hk).2 hNone).trans (hEntry₀ ..)⟩
  have hT₁ : TableOk physOffset { initFromAcpi physOffset hal with mmio := mmio₁ }.ioapicTable :=
    hP.table
  obtain ⟨mmio₂, hEq₂, hEntry₂⟩ := foldl_touches
    (fun hal irq hT => writeRedirectionEntry_touches hT irq (maskedEntry irq) 0)
    (fun _ _ => rfl) (fun gsi (_ : gsi ∈ legacyIrqs) _ _ h => h) hT₁
  refine ⟨mmio₂, ?_, fun io hio k hk => ⟨fun irq hIrq hk' => ?_, fun hHigh hNone => ?_⟩⟩
  · rw [initHardware, hEq₁]
    exact hEq₂
  · have hNat := toNat_ofNat_irq hIrq
    have hMem : UInt32.ofNat irq ∈ legacyIrqs := mem_legacyIrqs.mpr (by omega)
    exact (hEntry₂ io hio k hk).1 _ hMem (hP.found (by omega)) (by rw [hNat, hk'])
  · have hMiss := legacyIrqs_ne hHigh
    rw [(hEntry₂ io hio k hk).2 hMiss]
    exact hEntry₁ io hio k hk hNone

/-- **After `enable_isos_for_local`**, when there are overrides: GSI 0..15 are
unmasked with the fallback's vectors. -/
theorem enabled_entry (hP : Platform physOffset hal) (hIsos : hal.isos ≠ []) :
    ∃ mmio, enableIsosForLocal physOffset localApicId (initHardware physOffset hal) =
        { initFromAcpi physOffset hal with mmio := mmio } ∧
      ∀ io ∈ (initFromAcpi physOffset hal).ioapicTable, ∀ k < io.redirEntries.toNat,
        (∀ irq < 16, io.gsiBase.toNat + k = irq →
          entry mmio (virtAddr io.physAddr physOffset) k =
            enabled localApicId (maskedEntry (UInt32.ofNat irq), 0)) ∧
        (16 ≤ io.gsiBase.toNat + k → (∀ iso ∈ hal.isos, io.gsiBase.toNat + k ≠ iso.gsi.toNat) →
          entry mmio (virtAddr io.physAddr physOffset) k =
            entry hal.mmio (virtAddr io.physAddr physOffset) k) := by
  obtain ⟨mmio₀, hEq₀, hEntry₀⟩ := initHardware_entry hP
  have hIsos₀ := (initFromAcpi_frame physOffset hal).1
  have hIdem : ∀ e, enabled localApicId (enabled localApicId e) = enabled localApicId e := by
    intro e
    simp [enabled, UInt32.and_assoc]
  have hT₀ : TableOk physOffset { initFromAcpi physOffset hal with mmio := mmio₀ }.ioapicTable :=
    hP.table
  obtain ⟨mmio₁, hEq₁, hEntry₁⟩ := foldl_touches
    (fun hal (iso : IsoInfo) hT => enableGsi_touches hT localApicId iso.gsi)
    (fun _ => hIdem) hP.iso_inj hT₀
  have hT₁ : TableOk physOffset { initFromAcpi physOffset hal with mmio := mmio₁ }.ioapicTable :=
    hP.table
  obtain ⟨mmio₂, hEq₂, hEntry₂⟩ := foldl_touches
    (fun hal gsi hT => enableGsi_touches hT localApicId gsi)
    (fun _ => hIdem) (fun gsi (_ : gsi ∈ legacyIrqs) _ _ h => h) hT₁
  refine ⟨mmio₂, ?_, fun io hio k hk => ⟨fun irq hIrq hk' => ?_, fun hHigh hNone => ?_⟩⟩
  · have hSome : ¬ (initFromAcpi physOffset hal).isos.isEmpty := by simpa [hIsos₀] using hIsos
    rw [← hIsos₀] at hEq₁
    rw [enableIsosForLocal, hEq₀, if_neg hSome, hEq₁]
    exact hEq₂
  · have hNat := toNat_ofNat_irq hIrq
    have hMem : UInt32.ofNat irq ∈ legacyIrqs := mem_legacyIrqs.mpr (by omega)
    rw [(hEntry₂ io hio k hk).1 _ hMem (hP.found (by omega)) (by rw [hNat, hk'])]
    have hStart := (hEntry₀ io hio k hk).1 irq hIrq hk'
    show enabled localApicId (entry mmio₁ _ k) = _
    -- an override on this GSI has enabled the entry already
    by_cases hIso : ∃ iso ∈ hal.isos, irq = iso.gsi.toNat
    · obtain ⟨iso, hMemIso, hGsi⟩ := hIso
      rw [(hEntry₁ io hio k hk).1 iso hMemIso (hP.found (by omega)) (by omega), hIdem, hStart]
    · push Not at hIso
      rw [(hEntry₁ io hio k hk).2 fun iso h => hk' ▸ hIso iso h, hStart]
  · rw [(hEntry₂ io hio k hk).2 (legacyIrqs_ne hHigh)]
    show entry mmio₁ _ k = _
    rw [(hEntry₁ io hio k hk).2 hNone]
    exact (hEntry₀ io hio k hk).2 hHigh hNone

end Passes

-- ---------------------------------------------------------------------------
-- When the goal is met
-- ---------------------------------------------------------------------------

theorem maskedEntry_masked {irq : Nat} (h : irq < 16) (high : UInt32) :
    ¬ Unmasked (maskedEntry (UInt32.ofNat irq), high) := by
  show ¬ (maskedEntry (UInt32.ofNat irq) &&& maskBit = 0)
  clear high
  decide +revert

theorem enabled_unmasked (localApicId : UInt8) (e : UInt32 × UInt32) :
    Unmasked (enabled localApicId e) := by
  simp [Unmasked, enabled, UInt32.and_assoc]

theorem vector_enabled {irq : Nat} (h : irq < 16) (localApicId : UInt8) :
    vector (enabled localApicId (maskedEntry (UInt32.ofNat irq), 0)) = 0x20 + UInt32.ofNat irq := by
  show maskedEntry (UInt32.ofNat irq) &&& ~~~ maskBit &&& 0xFF = _
  clear localApicId
  decide +revert

theorem destination_enabled (localApicId : UInt8) (e : UInt32 × UInt32) :
    destination (enabled localApicId e) = localApicId := by
  have hLt := localApicId.toNat_lt
  apply UInt8.toNat_inj.mp
  simp [destination, enabled, Nat.shiftLeft_eq, Nat.shiftRight_eq_div_pow]
  omega

/-- A handled GSI has an entry. -/
theorem IoApic.Handles.slot {io : IoApic} {gsi : Nat} (h : io.Handles gsi) :
    ∃ k < io.redirEntries.toNat, io.gsiBase.toNat + k = gsi := by
  obtain ⟨hLow, hHigh⟩ := h
  exact ⟨gsi - io.gsiBase.toNat, by omega, by omega⟩

/-- ISA vectors identify their sources. -/
theorem isaVector_inj {s t : UInt32} : 0x20 + s = 0x20 + t ↔ s = t :=
  UInt32.add_right_inj _

section Routing

variable {physOffset : UInt64} {localApicId : UInt8} {hal : Hal} {mmio : WindowBus}

/-- What the passes leave behind, in the terms of the goal. -/
structure Programmed (physOffset : UInt64) (localApicId : UInt8) (hal final : Hal) : Prop where
  isos     : final.isos = hal.isos
  table    : final.ioapicTable = (initFromAcpi physOffset hal).ioapicTable
  isa      : ∀ io ∈ (initFromAcpi physOffset hal).ioapicTable, ∀ k < io.redirEntries.toNat,
    ∀ irq < 16, io.gsiBase.toNat + k = irq →
      Unmasked (final.entryOf physOffset io k) ∧
      vector (final.entryOf physOffset io k) = 0x20 + UInt32.ofNat irq ∧
      destination (final.entryOf physOffset io k) = localApicId
  elsewhere : ∀ io ∈ (initFromAcpi physOffset hal).ioapicTable, ∀ k < io.redirEntries.toNat,
    16 ≤ io.gsiBase.toNat + k → (∀ iso ∈ hal.isos, io.gsiBase.toNat + k ≠ iso.gsi.toNat) →
      final.entryOf physOffset io k = hal.entryOf physOffset io k

theorem programmed (hP : Platform physOffset hal) (hIsos : hal.isos ≠ []) :
    Programmed physOffset localApicId hal
      (enableIsosForLocal physOffset localApicId (initHardware physOffset hal)) := by
  obtain ⟨mmio, hEq, hEntry⟩ := enabled_entry hP hIsos
  rw [hEq]
  refine ⟨(initFromAcpi_frame physOffset hal).1, rfl, fun io hio k hk irq hIrq hk' => ?_,
    fun io hio k hk => (hEntry io hio k hk).2⟩
  have hIsa : Hal.entryOf { initFromAcpi physOffset hal with mmio := mmio } physOffset io k =
      enabled localApicId (maskedEntry (UInt32.ofNat irq), 0) :=
    (hEntry io hio k hk).1 irq hIrq hk'
  rw [hIsa]
  exact ⟨enabled_unmasked .., vector_enabled hIrq _, destination_enabled ..⟩

/-- Routed overrides are the identity: below 16 the fallback has replaced the
vector, above it the fallback's entry for the source has the same vector. -/
theorem Programmed.gsi_eq_source {final : Hal}
    (hF : Programmed physOffset localApicId hal final) (hP : Platform physOffset hal)
    (hR : IsaRouted physOffset localApicId final) {iso : IsoInfo} (hIso : iso ∈ hal.isos) :
    iso.gsi.toNat = iso.source.toNat := by
  have hSource := hP.sources iso hIso
  have hWide := hP.ofNat_source hIso
  obtain ⟨io, hio, hg⟩ := hP.coversIsos iso hIso
  obtain ⟨k, hk, hk'⟩ := hg.slot
  have hOver := hR.overridden iso (hF.isos ▸ hIso) io (hF.table ▸ hio) k hk hk'
  by_cases hGsi : iso.gsi.toNat < 16
  · have hIsa := (hF.isa io hio k hk _ hGsi hk').2.1
    rw [hOver.2.1, isaVector_inj, ← hWide] at hIsa
    have := congrArg UInt32.toNat hIsa
    rw [toNat_ofNat_irq hSource, toNat_ofNat_irq hGsi] at this
    exact this.symm
  · -- the entry of GSI `source` is unmasked with this vector, too
    obtain ⟨io', hio', hg'⟩ := hP.coversIsa _ hSource
    obtain ⟨k', hk₂, hk₂'⟩ := hg'.slot
    obtain ⟨hUn, hVec, -⟩ := hF.isa io' hio' k' hk₂ _ hSource hk₂'
    obtain ⟨rfl, rfl⟩ := hR.distinct io (hF.table ▸ hio) io' (hF.table ▸ hio') k hk k' hk₂
      hOver.1 hUn (by rw [hOver.2.1, hVec, hWide])
    omega

/-- With identity overrides the entries from GSI 16 on are as before. -/
theorem Programmed.entry_high {final : Hal} (hF : Programmed physOffset localApicId hal final)
    (hP : Platform physOffset hal) (hId : ∀ iso ∈ hal.isos, iso.gsi.toNat = iso.source.toNat)
    {io : IoApic} (hio : io ∈ (initFromAcpi physOffset hal).ioapicTable) {k : Nat}
    (hk : k < io.redirEntries.toNat) (hHigh : 16 ≤ io.gsiBase.toNat + k) :
    final.entryOf physOffset io k = hal.entryOf physOffset io k := by
  refine hF.elsewhere io hio k hk hHigh fun iso hIso => ?_
  have := hId iso hIso
  have := hP.sources iso hIso
  omega

theorem Programmed.quiet {final : Hal} (hF : Programmed physOffset localApicId hal final)
    (hP : Platform physOffset hal) (hId : ∀ iso ∈ hal.isos, iso.gsi.toNat = iso.source.toNat)
    (hR : IsaRouted physOffset localApicId final) : QuietElsewhere physOffset hal := by
  constructor
  · intro io hio k hk hHigh hUn irq hIrq hVec
    obtain ⟨io', hio', hg'⟩ := hP.coversIsa irq hIrq
    obtain ⟨k', hk', hIrq'⟩ := hg'.slot
    obtain ⟨hUn', hVec', -⟩ := hF.isa io' hio' k' hk' irq hIrq hIrq'
    rw [← hF.entry_high hP hId hio hk hHigh] at hUn hVec
    obtain ⟨rfl, rfl⟩ := hR.distinct io (hF.table ▸ hio) io' (hF.table ▸ hio') k hk k' hk'
      hUn hUn' (hVec.trans hVec'.symm)
    omega
  · intro io hio io' hio' k hk k' hk' hHigh hHigh'
    rw [← hF.entry_high hP hId hio hk hHigh, ← hF.entry_high hP hId hio' hk' hHigh']
    exact hR.distinct io (hF.table ▸ hio) io' (hF.table ▸ hio') k hk k' hk'

theorem Programmed.routed {final : Hal} (hF : Programmed physOffset localApicId hal final)
    (hP : Platform physOffset hal) (hId : ∀ iso ∈ hal.isos, iso.gsi.toNat = iso.source.toNat)
    (hQ : QuietElsewhere physOffset hal) : IsaRouted physOffset localApicId final := by
  constructor
  · intro iso hIso io hio k hk hk'
    rw [hF.isos] at hIso
    rw [hF.table] at hio
    rw [← hP.ofNat_source hIso]
    exact hF.isa io hio k hk _ (hP.sources iso hIso) (hk'.trans (hId iso hIso))
  · intro irq hIrq _ io hio k hk hk'
    obtain ⟨hUn, hVec, -⟩ := hF.isa io (hF.table ▸ hio) k hk irq hIrq hk'
    exact ⟨hUn, hVec⟩
  · intro io hio io' hio' k hk k' hk' hUn hUn' hVec
    rw [hF.table] at hio hio'
    -- an entry below 16 has its own ISA vector, one above is covered by `hQ`
    by_cases hLow : io.gsiBase.toNat + k < 16 <;> by_cases hLow' : io'.gsiBase.toNat + k' < 16
    · rw [(hF.isa io hio k hk _ hLow rfl).2.1, (hF.isa io' hio' k' hk' _ hLow' rfl).2.1,
        isaVector_inj] at hVec
      have hGsi := congrArg UInt32.toNat hVec
      rw [toNat_ofNat_irq hLow, toNat_ofNat_irq hLow'] at hGsi
      have hio_eq := eq_of_both_handle hP.table.disjoint hio hio' ⟨Nat.le_add_right _ k, by omega⟩
        ⟨by omega, by omega⟩
      subst hio_eq
      exact ⟨rfl, by omega⟩
    · rw [hF.entry_high hP hId hio' hk' (by omega)] at hUn' hVec
      rw [(hF.isa io hio k hk _ hLow rfl).2.1] at hVec
      exact absurd hVec.symm (hQ.outside io' hio' k' hk' (by omega) hUn' _ hLow)
    · rw [hF.entry_high hP hId hio hk (by omega)] at hUn hVec
      rw [(hF.isa io' hio' k' hk' _ hLow' rfl).2.1] at hVec
      exact absurd hVec (hQ.outside io hio k hk (by omega) hUn _ hLow')
    · rw [hF.entry_high hP hId hio hk (by omega)] at hUn hVec
      rw [hF.entry_high hP hId hio' hk' (by omega)] at hUn' hVec
      exact hQ.distinct io hio io' hio' k hk k' hk' (by omega) (by omega) hUn hUn' hVec

end Routing

/-- **When the passes route the ISA interrupts.** Exactly when there is an
override (without one, `enable_isos_for_local` returns before it unmasks
anything), every override maps its source to the GSI of the same number,
and firmware left nothing unmasked that shares a vector. -/
theorem isaRouted_iff (physOffset : UInt64) (localApicId : UInt8) (hal : Hal)
    (hP : Platform physOffset hal) :
    IsaRouted physOffset localApicId
        (enableIsosForLocal physOffset localApicId (initHardware physOffset hal)) ↔
      hal.isos ≠ [] ∧ (∀ iso ∈ hal.isos, iso.gsi.toNat = iso.source.toNat) ∧
        QuietElsewhere physOffset hal := by
  by_cases hIsos : hal.isos = []
  · -- nothing is enabled, so the entry of GSI 0 stays masked
    refine iff_of_false (fun hR => ?_) (fun h => h.1 hIsos)
    obtain ⟨mmio, hEq, hEntry⟩ := initHardware_entry hP
    have hIsos' := (initFromAcpi_frame physOffset hal).1.trans hIsos
    obtain ⟨io, hio, hg⟩ := hP.coversIsa 0 (by decide)
    obtain ⟨k, hk, hk'⟩ := hg.slot
    have hMasked := (hEntry io hio k hk).1 0 (by decide) hk'
    rw [hEq, enableIsosForLocal, if_pos (by simp [hIsos'])] at hR
    have hUn := (hR.direct 0 (by decide) (by simp [hIsos']) io hio k hk hk').1
    have hNot := maskedEntry_masked (show 0 < 16 by decide) 0
    rw [← hMasked] at hNot
    exact hNot hUn
  · have hF : Programmed physOffset localApicId hal _ := programmed hP hIsos
    constructor
    · intro hR
      have hId := fun iso (h : iso ∈ hal.isos) => hF.gsi_eq_source hP hR h
      exact ⟨hIsos, hId, hF.quiet hP hId hR⟩
    · rintro ⟨-, hId, hQ⟩
      exact hF.routed hP hId hQ

-- ---------------------------------------------------------------------------
-- A PC
-- ---------------------------------------------------------------------------

/-- One IOAPIC with 24 entries, all masked as after reset, and the given
overrides. -/
def pcHal (isos : List IsoInfo) : Hal where
  ioapics     := [⟨0, 0xFEC00000, 0⟩]
  isos        := isos
  ioapicTable := []
  mmio        := fun _ =>
    { select := 0
      regs := fun r => if r = 1 then 0x00170011 else if r % 2 = 0 then maskBit else 0 }

/-- The direct map of the bootloader. -/
def pcOffset : UInt64 := 0x10000000000

theorem pcHal_table (isos : List IsoInfo) :
    (initFromAcpi pcOffset (pcHal isos)).ioapicTable = [⟨0, 0xFEC00000, 0, 24⟩] := by
  have hMapped : ¬ virtAddr 0xFEC00000 pcOffset = 0 := by decide
  simp [initFromAcpi, pcHal, discover, logVersion, hMapped, readReg, WindowBus.get]
  decide

theorem pcHal_platform {isos : List IsoInfo} (hGsi : ∀ iso ∈ isos, iso.gsi.toNat < 24)
    (hSource : ∀ iso ∈ isos, iso.source.toNat < 16) (hSources : (isos.map IsoInfo.source).Nodup)
    (hGsis : (isos.map IsoInfo.gsi).Nodup) : Platform pcOffset (pcHal isos) := by
  refine ⟨?_, ?_, ?_, hSource, hSources, hGsis⟩ <;> rw [pcHal_table]
  · exact ⟨by decide, by decide, by simp, by decide⟩
  · exact fun gsi h => ⟨_, List.mem_singleton_self _, by simp, by simp; omega⟩
  · exact fun iso h => ⟨_, List.mem_singleton_self _, by simp, by simpa using hGsi iso h⟩

/-- A keyboard override that keeps GSI 1 is harmless. -/
theorem isaRouted_keyboard_override :
    IsaRouted pcOffset 0 (enableIsosForLocal pcOffset 0
      (initHardware pcOffset (pcHal [⟨0, 1, 1, 0⟩]))) := by
  have hP : Platform pcOffset (pcHal [⟨0, 1, 1, 0⟩]) :=
    pcHal_platform (by decide) (by decide) (by decide) (by decide)
  refine (isaRouted_iff pcOffset 0 _ hP).mpr ⟨by decide, by decide, ?_⟩
  -- every entry from GSI 16 on is masked
  have hMasked : ∀ io ∈ (initFromAcpi pcOffset (pcHal [⟨0, 1, 1, 0⟩])).ioapicTable,
      ∀ k < io.redirEntries.toNat,
        ¬ Unmasked ((pcHal [⟨0, 1, 1, 0⟩]).entryOf pcOffset io k) := by
    rw [pcHal_table]
    intro io hio k _
    have hEven : (0x10 + 2 * k) % 2 = 0 := by omega
    have hNotOne : ¬ 0x10 + 2 * k = 1 := by omega
    simp [Unmasked, Hal.entryOf, entry, pcHal, WindowBus.get, hEven, hNotOne]
    decide
  exact ⟨fun io hio k hk _ hUn => absurd hUn (hMasked io hio k hk),
    fun io hio io' hio' k hk k' hk' _ _ hUn => absurd hUn (hMasked io hio k hk)⟩

/-- **The timer override is lost.** ISA source 0 comes in on GSI 2, as on every
PC; its override programs GSI 2 with vector 0x20, and the fallback pass then
reprograms the entry with vector 0x22. -/
theorem timer_override_lost :
    Platform pcOffset (pcHal [⟨0, 0, 2, 0⟩]) ∧
    vector ((enableIsosForLocal pcOffset 0 (initHardware pcOffset
      (pcHal [⟨0, 0, 2, 0⟩]))).entryOf pcOffset ⟨0, 0xFEC00000, 0, 24⟩ 2) = 0x22 ∧
    ¬ IsaRouted pcOffset 0 (enableIsosForLocal pcOffset 0
      (initHardware pcOffset (pcHal [⟨0, 0, 2, 0⟩]))) := by
  have hP : Platform pcOffset (pcHal [⟨0, 0, 2, 0⟩]) :=
    pcHal_platform (by decide) (by decide) (by decide) (by decide)
  have hF : Programmed pcOffset 0 (pcHal [⟨0, 0, 2, 0⟩]) _ := programmed hP (by decide)
  have hMem : (⟨0, 0xFEC00000, 0, 24⟩ : IoApic) ∈
      (initFromAcpi pcOffset (pcHal [⟨0, 0, 2, 0⟩])).ioapicTable := by
    rw [pcHal_table]
    exact List.mem_singleton_self _
  refine ⟨hP, (hF.isa _ hMem 2 (by decide) 2 (by decide) rfl).2.1, fun hR => ?_⟩
  have := hF.gsi_eq_source hP hR (List.mem_singleton_self _)
  exact absurd this (by decide)

end Neutrix.Ioapic
