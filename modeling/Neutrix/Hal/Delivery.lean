import Neutrix.DriverFramework.Manager
import Neutrix.Hal.Redirection
import Neutrix.Lib.Passes

/-!
# Neutrix — where the ISA interrupts arrive after boot

The interrupts of the ISA devices go through everything `src/main.rs` does
about them: `init_hardware` sets up the local APIC (`src/hal/apic.rs`) and
programs the redirection entries in two masked passes, `enable_isos_for_local`
unmasks them for this processor, and after the mouse driver is attached its
entry is looked up through the overrides once more and unmasked.

An ISA source is wired to the GSI of its override, or to the GSI of its own
number (`gsiOf`). `deliver` is what the hardware makes of an interrupt on a
GSI: a vector, if the entry is unmasked and aimed at the processor.

* `Programs` — operations as changes of the redirection entries, by GSI.
* `sources_delivered` — for every platform, at which vector each ISA source
  arrives, and that it arrives nowhere else: the mouse always at its own; the
  others at vector `0x20` plus their GSI if that is an ISA number, at `0x20`
  plus their source otherwise, and not at all without overrides.
-/

namespace Neutrix.Ioapic

open Neutrix.Lib

-- ---------------------------------------------------------------------------
-- The local APIC
-- ---------------------------------------------------------------------------

structure Lapic where
  -- `LAPIC_BASE`, 0 before initialisation
  base : UInt64
  regs : UInt64 → UInt32

namespace Lapic

def isInitialized (l : Lapic) : Bool := l.base ≠ 0

def localApicId (l : Lapic) : Option UInt8 :=
  if l.base = 0 then none else some ((l.regs (l.base + 0x20) >>> 24) &&& 0xFF).toUInt8

/-- The address is that of `MADT_LOCAL_APIC_ADDR`, handed over as `u32`. -/
def initFromAcpi (madtLocalApicAddr physOffset : UInt64) (l : Lapic) : Bool × Lapic :=
  if madtLocalApicAddr = 0 then (false, l)
  else
    let virt := madtLocalApicAddr.toUInt32.toUInt64 + physOffset
    if virt = 0 then (false, l)
    else
      let svr := l.regs (virt + 0xF0) ||| 0x100
      (true, ⟨virt, Function.update l.regs (virt + 0xF0) svr⟩)

end Lapic

-- ---------------------------------------------------------------------------
-- The interrupt part of `kernel_main`
-- ---------------------------------------------------------------------------

/-- Unmask and, if that worked, read the entry back for the log. -/
def unmaskAndLog (physOffset : UInt64) (apicId : UInt8) (hal : Hal) (gsi : UInt32)
    (vector : UInt8) : Hal :=
  let (ok, hal) := unmaskGsi physOffset hal gsi vector apicId
  if ok then (readRedirectionEntry physOffset hal gsi).2 else hal

/-- The GSI of the first override for the vector's legacy IRQ, or the IRQ's number. -/
def gsiCandidate (isos : List IsoInfo) (vector : UInt8) : UInt32 :=
  let legacyIrq := (vector.toUInt32 - 0x20) &&& 0xFF
  match isos.find? fun iso => iso.source.toUInt32 = legacyIrq with
  | some iso => iso.gsi
  | none => legacyIrq

def interruptVectors (devinfo : DeviceInfo) : List UInt8 :=
  devinfo.resources.filterMap fun r =>
    match r.kind with
    | .interrupt vec => some vec
    | _ => none

/-- Each interrupt resource of the device, or legacy IRQ 12 as the last resort. -/
def unmaskDevice (physOffset : UInt64) (apicId : UInt8) (hal : Hal) (devinfo : Option DeviceInfo) :
    Hal :=
  match devinfo with
  | none => unmaskAndLog physOffset apicId hal 12 44
  | some devinfo =>
    if (interruptVectors devinfo).isEmpty then unmaskAndLog physOffset apicId hal 12 44
    else (interruptVectors devinfo).foldl (fun hal vector =>
      unmaskAndLog physOffset apicId hal (gsiCandidate hal.isos vector) vector) hal

/-- What is done with the IOAPICs between `init_hardware` and the executor. `mouse` is the
device entry after its driver was attached, `none` if that failed. -/
def aimInterrupts (physOffset : UInt64) (lapic : Lapic) (mouse : Option (Option DeviceInfo))
    (hal : Hal) : Hal :=
  if lapic.isInitialized then
    match lapic.localApicId with
    | none => hal
    | some apicId =>
      let hal := enableIsosForLocal physOffset apicId hal
      match mouse with
      | none => hal
      | some devinfo => unmaskDevice physOffset apicId hal devinfo
  else hal

/-- From the end of ACPI parsing to the start of the executor. -/
def setUpInterrupts (physOffset madtLocalApicAddr : UInt64) (mouse : Option (Option DeviceInfo))
    (lapic : Lapic) (hal : Hal) : Lapic × Hal :=
  let lapic := (lapic.initFromAcpi madtLocalApicAddr physOffset).2
  let hal := initHardware physOffset hal
  (lapic, aimInterrupts physOffset lapic mouse hal)

-- ---------------------------------------------------------------------------
-- What the hardware makes of it
-- ---------------------------------------------------------------------------

/-- The GSI an ISA source is wired to. -/
def gsiOf (isos : List IsoInfo) (source : UInt8) : UInt32 :=
  match isos.find? fun iso => iso.source = source with
  | some iso => iso.gsi
  | none => source.toUInt32

/-- The vector at which an entry presents its interrupt to a processor. -/
def arrives (apicId : UInt8) (e : UInt32 × UInt32) : Option UInt32 :=
  if e.1 &&& maskBit = 0 ∧ destination e = apicId then some (vector e) else none

/-- An interrupt on `gsi`, through the IOAPIC that handles it. -/
def deliver (physOffset : UInt64) (hal : Hal) (apicId : UInt8) (gsi : UInt32) : Option UInt32 :=
  match hal.ioapicTable.find? fun io =>
      io.gsiBase.toNat ≤ gsi.toNat ∧ gsi.toNat < io.gsiBase.toNat + io.redirEntries.toNat with
  | none => none
  | some io => arrives apicId (hal.entryOf physOffset io (gsi.toNat - io.gsiBase.toNat))

-- ---------------------------------------------------------------------------
-- Operations as changes of entries
-- ---------------------------------------------------------------------------

/-- From `hal` to `hal'` only registers change, and the entry of GSI `g` by `f g`. -/
structure Programs (physOffset : UInt64) (hal hal' : Hal)
    (f : Nat → UInt32 × UInt32 → UInt32 × UInt32) : Prop where
  isos  : hal'.isos = hal.isos
  table : hal'.ioapicTable = hal.ioapicTable
  entry : ∀ io ∈ hal.ioapicTable, ∀ k < io.redirEntries.toNat,
    hal'.entryOf physOffset io k = f (io.gsiBase.toNat + k) (hal.entryOf physOffset io k)

section Programs

variable {physOffset : UInt64} {hal hal' hal'' : Hal}
  {f f' : Nat → UInt32 × UInt32 → UInt32 × UInt32}

theorem Programs.refl (hal : Hal) : Programs physOffset hal hal fun _ e => e :=
  ⟨rfl, rfl, fun _ _ _ _ => rfl⟩

theorem Programs.trans (h : Programs physOffset hal hal' f) (h' : Programs physOffset hal' hal'' f') :
    Programs physOffset hal hal'' fun g e => f' g (f g e) where
  isos := h'.isos.trans h.isos
  table := h'.table.trans h.table
  entry io hio k hk := by
    rw [h'.entry io (h.table ▸ hio) k hk, h.entry io hio k hk]

theorem Touches.programs {gsi : UInt32} {upd : UInt32 × UInt32 → UInt32 × UInt32}
    (h : Touches physOffset hal hal' gsi upd) (hFound : Found hal.ioapicTable gsi) :
    Programs physOffset hal hal' fun g e => if gsi.toNat = g then upd e else e := by
  obtain ⟨mmio, rfl, hEntry⟩ := h
  refine ⟨rfl, rfl, fun io hio k hk => ?_⟩
  by_cases hg : gsi.toNat = io.gsiBase.toNat + k
  · rw [if_pos hg]
    exact (hEntry io hio k hk).1 hFound hg.symm
  · rw [if_neg hg]
    exact (hEntry io hio k hk).2 (Ne.symm hg)

/-- A loop is a pass over the entries. -/
theorem Programs.foldl {β : Type*} {op : Hal → β → Hal} {key : β → UInt32}
    {upd : β → UInt32 × UInt32 → UInt32 × UInt32}
    (hOp : ∀ hal b, TableOk physOffset hal.ioapicTable →
      Touches physOffset hal (op hal b) (key b) (upd b))
    {items : List β} (hT : TableOk physOffset hal.ioapicTable)
    (hFound : ∀ b ∈ items, Found hal.ioapicTable (key b)) :
    Programs physOffset hal (items.foldl op hal) (pass (fun b => (key b).toNat) upd items) := by
  induction items generalizing hal with
  | nil => exact Programs.refl hal
  | cons b items ih =>
    have hOne := (hOp hal b hT).programs (hFound b List.mem_cons_self)
    have hRest := @ih (op hal b) (hOne.table ▸ hT)
      (fun c hc => hOne.table ▸ hFound c (List.mem_cons_of_mem b hc))
    exact hOne.trans hRest

/-- **Unmasking a GSI.** -/
theorem unmaskGsi_touches (hT : TableOk physOffset hal.ioapicTable) (gsi : UInt32)
    (vec apicId : UInt8) :
    Touches physOffset hal (unmaskGsi physOffset hal gsi vec apicId).2 gsi
      fun e => (RedirOp.unmask vec apicId).update e := by
  cases hFind : findIoapicForGsi hal gsi with
  | none =>
    rw [unmaskGsi, hFind]
    exact touches_of_not_found hFind _
  | some r =>
    obtain ⟨idx, loc⟩ := r
    obtain ⟨io₀, hio₀, hGet, hg, hLoc⟩ := findIoapicForGsi_some hFind
    have hMapped := hT.mapped io₀ hio₀
    have hLocLt := hT.loc_lt hio₀ hg hLoc
    simp only [unmaskGsi, hFind, hGet, if_neg hMapped]
    refine touches_of_writeReg hT hio₀ hg hLoc (fun _ _ => ?_) ?_
    · rw [entry_readReg, entry_readReg]
    · simp [RedirOp.update, Ioapic.entry, readReg, regLow_toNat hLocLt]

/-- Reading an entry changes none. -/
theorem readRedirectionEntry_programs (physOffset : UInt64) (hal : Hal) (gsi : UInt32) :
    Programs physOffset hal (readRedirectionEntry physOffset hal gsi).2 fun _ e => e := by
  unfold readRedirectionEntry
  split
  · exact Programs.refl hal
  · split
    · exact Programs.refl hal
    · dsimp only
      split
      · exact Programs.refl hal
      · refine ⟨rfl, rfl, fun io _ k _ => ?_⟩
        exact (entry_readReg ..).trans (entry_readReg ..)

end Programs

-- ---------------------------------------------------------------------------
-- The passes at boot
-- ---------------------------------------------------------------------------

/-- A platform whose GSI ranges end below `2^32`. -/
structure BoundedPlatform (physOffset : UInt64) (hal : Hal) : Prop
    extends Platform physOffset hal where
  bounded : ∀ io ∈ (initFromAcpi physOffset hal).ioapicTable,
    io.gsiBase.toNat + io.redirEntries.toNat < 2 ^ 32

section Boot

variable {physOffset : UInt64} {hal : Hal}

theorem BoundedPlatform.foundIso (hP : BoundedPlatform physOffset hal) {iso : IsoInfo}
    (h : iso ∈ hal.isos) : Found (initFromAcpi physOffset hal).ioapicTable iso.gsi := by
  obtain ⟨io, hio, hg⟩ := hP.coversIsos iso h
  exact findFrom_isSome hio hg (hP.bounded io hio) 0

/-- The two masked passes. -/
def maskedPasses (isos : List IsoInfo) (g : Nat) (e : UInt32 × UInt32) : UInt32 × UInt32 :=
  pass UInt32.toNat (fun irq _ => (maskedEntry irq, 0)) legacyIrqs g
    (pass (fun iso => iso.gsi.toNat) (fun iso _ => (maskedEntry iso.source.toUInt32, 0)) isos g e)

theorem initHardware_programs (hP : BoundedPlatform physOffset hal) :
    Programs physOffset (initFromAcpi physOffset hal) (initHardware physOffset hal)
      (maskedPasses hal.isos) := by
  have hIsos := (initFromAcpi_frame physOffset hal).1
  have hFirst : applyIsosFromAcpi physOffset (initFromAcpi physOffset hal) =
      hal.isos.foldl (applyIso physOffset) (initFromAcpi physOffset hal) := by
    rw [applyIsosFromAcpi, hIsos]
    split_ifs with hEmpty
    · rw [List.isEmpty_iff.mp hEmpty]
      rfl
    · rfl
  have hPass := Programs.foldl applyIso_touches hP.table fun iso => hP.foundIso
  rw [initHardware, hFirst]
  refine hPass.trans (Programs.foldl
    (fun hal irq hT => writeRedirectionEntry_touches hT irq (maskedEntry irq) 0)
    (hPass.table ▸ hP.table) fun irq hIrq => ?_)
  rw [hPass.table]
  exact hP.found (mem_legacyIrqs.mp hIrq)

/-- The GSIs that are unmasked in a loop, none without overrides. -/
def enabledGsis (isos : List IsoInfo) : List UInt32 :=
  if isos.isEmpty then [] else isos.map IsoInfo.gsi ++ legacyIrqs

theorem enableIsosForLocal_programs (hP : BoundedPlatform physOffset hal) (apicId : UInt8) :
    Programs physOffset (initHardware physOffset hal)
      (enableIsosForLocal physOffset apicId (initHardware physOffset hal))
      (pass UInt32.toNat (fun _ => enabled apicId) (enabledGsis hal.isos)) := by
  have hInit := initHardware_programs hP
  have hIsos := hInit.isos.trans (initFromAcpi_frame physOffset hal).1
  have hLoop : enableIsosForLocal physOffset apicId (initHardware physOffset hal) =
      (enabledGsis hal.isos).foldl (enableGsi physOffset apicId) (initHardware physOffset hal) := by
    rw [enableIsosForLocal, hIsos, enabledGsis]
    split_ifs
    · rw [List.foldl_nil]
    · rw [List.foldl_append, List.foldl_map]
  have hT : TableOk physOffset (initHardware physOffset hal).ioapicTable := by
    rw [hInit.table]
    exact hP.table
  rw [hLoop]
  refine Programs.foldl (fun hal gsi hT => enableGsi_touches hT apicId gsi) hT fun gsi hGsi => ?_
  rw [hInit.table]
  rw [enabledGsis] at hGsi
  split_ifs at hGsi
  · simp at hGsi
  · rcases List.mem_append.mp hGsi with hGsi | hLegacy
    · obtain ⟨iso, hIso, rfl⟩ := List.mem_map.mp hGsi
      exact hP.foundIso hIso
    · exact hP.found (mem_legacyIrqs.mp hLegacy)

theorem unmaskAndLog_programs {hal : Hal} (hT : TableOk physOffset hal.ioapicTable) {gsi : UInt32}
    (hFound : Found hal.ioapicTable gsi) (vec apicId : UInt8) :
    Programs physOffset hal (unmaskAndLog physOffset apicId hal gsi vec)
      fun g e => if gsi.toNat = g then (RedirOp.unmask vec apicId).update e else e := by
  have hUnmask := (unmaskGsi_touches hT gsi vec apicId).programs hFound
  unfold unmaskAndLog
  dsimp only
  split_ifs
  · exact hUnmask.trans (readRedirectionEntry_programs ..)
  · exact hUnmask

end Boot

-- ---------------------------------------------------------------------------
-- The entry of a source
-- ---------------------------------------------------------------------------

/-- The ISA number whose vector the entry of a source gets: the fallback pass goes by the
GSI, an override's own pass by the source. -/
def line (isos : List IsoInfo) (source : UInt8) : Nat :=
  if (gsiOf isos source).toNat < 16 then (gsiOf isos source).toNat else source.toNat

section Source

variable {physOffset : UInt64} {hal : Hal} {apicId source : UInt8}

theorem gsiOf_cases (isos : List IsoInfo) (source : UInt8) :
    (∃ iso ∈ isos, iso.source = source ∧ gsiOf isos source = iso.gsi) ∨
      gsiOf isos source = source.toUInt32 := by
  rw [gsiOf]
  cases hFind : isos.find? fun iso => iso.source = source with
  | none => exact .inr rfl
  | some iso =>
    have hSource := List.find?_some hFind
    exact .inl ⟨iso, List.mem_of_find?_eq_some hFind, of_decide_eq_true hSource, rfl⟩

/-- A GSI beyond the ISA numbers comes from an override. -/
theorem exists_iso_of_gsiOf (hs : source.toNat < 16) (hHigh : ¬ (gsiOf hal.isos source).toNat < 16) :
    ∃ iso ∈ hal.isos, iso.source = source ∧ gsiOf hal.isos source = iso.gsi := by
  refine (gsiOf_cases hal.isos source).resolve_right fun hOwn => hHigh ?_
  rwa [hOwn, UInt8.toNat_toUInt32]

theorem line_lt (hs : source.toNat < 16) : line hal.isos source < 16 := by
  rw [line]
  split_ifs with hLow
  · exact hLow
  · exact hs

theorem maskedPasses_gsiOf (hP : BoundedPlatform physOffset hal) (hs : source.toNat < 16)
    (e : UInt32 × UInt32) :
    maskedPasses hal.isos (gsiOf hal.isos source).toNat e =
      (maskedEntry (UInt32.ofNat (line hal.isos source)), 0) := by
  rw [maskedPasses, line]
  split_ifs with hLow
  · -- the fallback pass overwrites whatever the overrides wrote
    have hMem : gsiOf hal.isos source ∈ legacyIrqs := mem_legacyIrqs.mpr hLow
    have hAll : ∀ irq ∈ legacyIrqs, irq.toNat = (gsiOf hal.isos source).toNat →
        (fun _ : UInt32 × UInt32 => (maskedEntry irq, (0 : UInt32))) =
          fun _ => (maskedEntry (gsiOf hal.isos source), 0) := by
      intro irq _ hIrq
      rw [UInt32.toNat_inj.mp hIrq]
    rw [UInt32.ofNat_toNat]
    exact pass_of_exists (u := fun _ => (maskedEntry (gsiOf hal.isos source), 0)) (fun _ => rfl)
      hAll ⟨_, hMem, rfl⟩ _
  · obtain ⟨iso, hIso, rfl, hGsi⟩ := exists_iso_of_gsiOf hs hLow
    have hMiss : ∀ irq ∈ legacyIrqs, irq.toNat ≠ (gsiOf hal.isos iso.source).toNat :=
      fun irq hIrq hEq => hLow (hEq ▸ mem_legacyIrqs.mp hIrq)
    have hAll : ∀ iso' ∈ hal.isos, iso'.gsi.toNat = (gsiOf hal.isos iso.source).toNat →
        (fun _ : UInt32 × UInt32 => (maskedEntry iso'.source.toUInt32, (0 : UInt32))) =
          fun _ => (maskedEntry iso.source.toUInt32, 0) := by
      intro iso' hIso' hEq
      rw [hGsi] at hEq
      rw [hP.iso_inj iso' hIso' iso hIso (UInt32.toNat_inj.mp hEq)]
    rw [pass_of_forall_ne hMiss, hP.ofNat_source hIso]
    exact pass_of_exists (u := fun _ => (maskedEntry iso.source.toUInt32, 0)) (fun _ => rfl) hAll
      ⟨iso, hIso, by rw [hGsi]⟩ e

/-- With overrides every source's entry is enabled, without them none. -/
theorem enablePass_gsiOf (hs : source.toNat < 16) (e : UInt32 × UInt32) :
    pass UInt32.toNat (fun _ => enabled apicId) (enabledGsis hal.isos)
        (gsiOf hal.isos source).toNat e =
      if hal.isos = [] then e else enabled apicId e := by
  by_cases hNone : hal.isos = []
  · rw [if_pos hNone, enabledGsis, hNone]
    rfl
  · have hIdem : ∀ e, enabled apicId (enabled apicId e) = enabled apicId e := by
      intro e
      simp [enabled, UInt32.and_assoc]
    rw [if_neg hNone]
    refine pass_of_exists hIdem (fun _ _ _ => rfl) ⟨gsiOf hal.isos source, ?_, rfl⟩ e
    rw [enabledGsis, if_neg (by simpa using hNone), List.mem_append]
    by_cases hLow : (gsiOf hal.isos source).toNat < 16
    · exact .inr (mem_legacyIrqs.mpr hLow)
    · obtain ⟨iso, hIso, -, hGsi⟩ := exists_iso_of_gsiOf hs hLow
      exact .inl (hGsi ▸ List.mem_map_of_mem hIso)

theorem BoundedPlatform.handles (hP : BoundedPlatform physOffset hal) {source : UInt8}
    (hs : source.toNat < 16) :
    ∃ io ∈ (initFromAcpi physOffset hal).ioapicTable,
      io.Handles (gsiOf hal.isos source).toNat := by
  by_cases hLow : (gsiOf hal.isos source).toNat < 16
  · exact hP.coversIsa _ hLow
  · obtain ⟨iso, hIso, -, hGsi⟩ := exists_iso_of_gsiOf hs hLow
    rw [hGsi]
    exact hP.coversIsos iso hIso

theorem gsiCandidate_eq_gsiOf (isos : List IsoInfo) : gsiCandidate isos 44 = gsiOf isos 12 := by
  have hSource : ∀ iso : IsoInfo, iso.source.toUInt32 = 12 ↔ iso.source = 12 := by
    intro iso
    rw [← UInt32.toNat_inj, ← UInt8.toNat_inj, UInt8.toNat_toUInt32]
    rfl
  simp only [gsiCandidate, gsiOf, show ((44 : UInt8).toUInt32 - 0x20) &&& 0xFF = 12 from rfl, hSource]
  rfl

/-- The entry of the IOAPIC that handles the GSI decides. -/
theorem deliver_eq {final : Hal} {f : Nat → UInt32 × UInt32 → UInt32 × UInt32}
    (h : Programs physOffset hal final f) (hT : TableOk physOffset hal.ioapicTable) {gsi : UInt32}
    {io : IoApic} (hio : io ∈ hal.ioapicTable) (hg : io.Handles gsi.toNat) :
    deliver physOffset final apicId gsi =
      arrives apicId (f gsi.toNat (hal.entryOf physOffset io (gsi.toNat - io.gsiBase.toNat))) := by
  obtain ⟨hLow, hHigh⟩ := hg
  have hFind : (final.ioapicTable.find? fun io => io.gsiBase.toNat ≤ gsi.toNat ∧
      gsi.toNat < io.gsiBase.toNat + io.redirEntries.toNat) = some io := by
    rw [h.table]
    cases hFirst : hal.ioapicTable.find? fun io => io.gsiBase.toNat ≤ gsi.toNat ∧
        gsi.toNat < io.gsiBase.toNat + io.redirEntries.toNat with
    | none => exact absurd (decide_eq_true ⟨hLow, hHigh⟩) (List.find?_eq_none.mp hFirst io hio)
    | some io' =>
      have hg' : io'.Handles gsi.toNat := by
        have hIn := List.find?_some hFirst
        simp only [decide_eq_true_eq] at hIn
        exact hIn
      rw [eq_of_both_handle hT.disjoint (List.mem_of_find?_eq_some hFirst) hio hg' ⟨hLow, hHigh⟩]
  have hSlot : io.gsiBase.toNat + (gsi.toNat - io.gsiBase.toNat) = gsi.toNat := by omega
  have hEntry := h.entry io hio (gsi.toNat - io.gsiBase.toNat) (by omega)
  rw [hSlot] at hEntry
  rw [deliver, hFind, ← hEntry]

theorem arrives_masked {irq : Nat} (h : irq < 16) (apicId : UInt8) (high : UInt32) :
    arrives apicId (maskedEntry (UInt32.ofNat irq), high) = none :=
  if_neg fun hOpen => maskedEntry_masked h high hOpen.1

theorem arrives_enabled {irq : Nat} (h : irq < 16) (apicId localApicId : UInt8) :
    arrives apicId (enabled localApicId (maskedEntry (UInt32.ofNat irq), 0)) =
      if localApicId = apicId then some (0x20 + UInt32.ofNat irq) else none := by
  rw [arrives, destination_enabled, vector_enabled h]
  exact if_congr (and_iff_right (enabled_unmasked ..)) rfl rfl

theorem arrives_unmask (apicId localApicId vec : UInt8) (e : UInt32 × UInt32) :
    arrives apicId ((RedirOp.unmask vec localApicId).update e) =
      if localApicId = apicId then some vec.toUInt32 else none := by
  obtain ⟨hVector, hUnmasked, hDestination, -⟩ := unmask_update vec localApicId e
  rw [arrives, hDestination, hVector]
  exact if_congr (and_iff_right hUnmasked) rfl rfl

/-- All of boot, as a change of entries. -/
theorem aimInterrupts_programs (hP : BoundedPlatform physOffset hal) {lapic : Lapic}
    {localApicId : UInt8} (hId : lapic.localApicId = some localApicId) {mouse : Option DeviceInfo}
    (hMouse : ∀ d ∈ mouse, interruptVectors d = [44]) :
    Programs physOffset (initFromAcpi physOffset hal)
      (aimInterrupts physOffset lapic (mouse.map some) (initHardware physOffset hal)) fun g e =>
        let e := pass UInt32.toNat (fun _ => enabled localApicId) (enabledGsis hal.isos) g
          (maskedPasses hal.isos g e)
        if mouse.isSome ∧ (gsiOf hal.isos 12).toNat = g then
          (RedirOp.unmask 44 localApicId).update e
        else e := by
  have hInit : lapic.isInitialized = true := by
    by_contra hNot
    have hBase : lapic.base = 0 := by simpa [Lapic.isInitialized] using hNot
    simp [Lapic.localApicId, hBase] at hId
  have hPasses := (initHardware_programs hP).trans
    (enableIsosForLocal_programs hP localApicId)
  simp only [aimInterrupts, hInit, if_true, hId]
  cases mouse with
  | none => simpa using hPasses
  | some d =>
    have hIsos := hPasses.isos.trans (initFromAcpi_frame physOffset hal).1
    obtain ⟨io, hio, hg⟩ := hP.handles (show (12 : UInt8).toNat < 16 by decide)
    have hFound : Found (initFromAcpi physOffset hal).ioapicTable (gsiOf hal.isos 12) :=
      findFrom_isSome hio hg (hP.bounded io hio) 0
    have hT : TableOk physOffset (enableIsosForLocal physOffset localApicId
        (initHardware physOffset hal)).ioapicTable := by
      rw [hPasses.table]
      exact hP.table
    rw [← hPasses.table] at hFound
    have hLast := unmaskAndLog_programs hT hFound 44 localApicId
    simp only [Option.map_some, unmaskDevice, hMouse d rfl, List.isEmpty_cons, Bool.false_eq_true,
      if_false, List.foldl_cons, List.foldl_nil, hIsos, gsiCandidate_eq_gsiOf, Option.isSome_some,
      true_and]
    exact hPasses.trans hLast

/-- Once the local APIC is set up. -/
theorem aimInterrupts_delivered (hP : BoundedPlatform physOffset hal) (lapic : Lapic)
    {mouse : Option DeviceInfo} (hMouse : ∀ d ∈ mouse, interruptVectors d = [44])
    (hs : source.toNat < 16) (apicId : UInt8) :
    deliver physOffset
        (aimInterrupts physOffset lapic (mouse.map some) (initHardware physOffset hal)) apicId
        (gsiOf hal.isos source) =
      if lapic.localApicId = some apicId then
        if mouse.isSome ∧ gsiOf hal.isos 12 = gsiOf hal.isos source then some 44
        else if hal.isos = [] then none
        else some (0x20 + UInt32.ofNat (line hal.isos source))
      else none := by
  obtain ⟨io, hio, hg⟩ := hP.handles hs
  have hLine : line hal.isos source < 16 := line_lt hs
  cases hId : lapic.localApicId with
  | none =>
    have hNot : lapic.isInitialized = false := by
      by_contra hInit
      have hBase : lapic.base ≠ 0 := by simpa [Lapic.isInitialized] using hInit
      simp [Lapic.localApicId, hBase] at hId
    simp only [aimInterrupts, hNot, Bool.false_eq_true, if_false, reduceCtorEq]
    rw [deliver_eq (initHardware_programs hP) hP.table hio hg, maskedPasses_gsiOf hP hs,
      arrives_masked hLine]
  | some localApicId =>
    rw [deliver_eq (aimInterrupts_programs hP hId hMouse) hP.table hio hg]
    simp only [maskedPasses_gsiOf hP hs, enablePass_gsiOf hs, UInt32.toNat_inj, Option.some.injEq]
    by_cases hShared : mouse.isSome ∧ gsiOf hal.isos 12 = gsiOf hal.isos source
    · rw [if_pos hShared, if_pos hShared, arrives_unmask]
      rfl
    · rw [if_neg hShared, if_neg hShared]
      by_cases hNone : hal.isos = []
      · rw [if_pos hNone, if_pos hNone, arrives_masked hLine, ite_self]
      · rw [if_neg hNone, if_neg hNone, arrives_enabled hLine]

/-- **Where the ISA interrupts arrive.** For every platform, every local APIC address and
every ISA source: the processor that booted gets the mouse's interrupt, and any that
shares its GSI, at vector 44; the others only if there is an override at all, at the
vector of their GSI if that is an ISA number and at their own vector otherwise. No other
processor gets any of them, and none does without a local APIC. -/
theorem sources_delivered (hP : BoundedPlatform physOffset hal) (madtLocalApicAddr : UInt64)
    (lapic : Lapic) {mouse : Option DeviceInfo} (hMouse : ∀ d ∈ mouse, interruptVectors d = [44])
    (hs : source.toNat < 16) (apicId : UInt8) :
    let final := setUpInterrupts physOffset madtLocalApicAddr (mouse.map some) lapic hal
    deliver physOffset final.2 apicId (gsiOf hal.isos source) =
      if final.1.localApicId = some apicId then
        if mouse.isSome ∧ gsiOf hal.isos 12 = gsiOf hal.isos source then some 44
        else if hal.isos = [] then none
        else some (0x20 + UInt32.ofNat (line hal.isos source))
      else none := by
  intro final
  exact aimInterrupts_delivered hP final.1 hMouse hs apicId

end Source

/-- The usual overrides: the timer on GSI 2, ACPI on a GSI beyond the ISA numbers. -/
def usualIsos : List IsoInfo := [⟨0, 0, 2, 0⟩, ⟨0, 9, 20, 0xD⟩]

def bootMouse : DeviceInfo :=
  ⟨0xffff, 0xffff, 0x09, 0, 0, [⟨.interrupt 44, 0, 0⟩], [], "PS/2 Mouse"⟩

theorem usualIsos_platform : BoundedPlatform pcOffset (pcHal usualIsos) where
  toPlatform := pcHal_platform (by decide) (by decide) (by decide) (by decide)
  bounded := by
    rw [pcHal_table]
    decide

/-- Keyboard, mouse and ACPI interrupts arrive at their own vectors, the timer's at the
vector of GSI 2. -/
theorem sources_delivered_usual :
    let final := setUpInterrupts pcOffset 0xFEE00000 (some (some bootMouse)) ⟨0, fun _ => 0⟩
      (pcHal usualIsos)
    deliver pcOffset final.2 0 (gsiOf usualIsos 1) = some 0x21 ∧
      deliver pcOffset final.2 0 (gsiOf usualIsos 12) = some 44 ∧
      deliver pcOffset final.2 0 (gsiOf usualIsos 9) = some 0x29 ∧
      deliver pcOffset final.2 0 (gsiOf usualIsos 0) = some 0x22 := by
  have hMouse : ∀ d ∈ some bootMouse, interruptVectors d = [44] := by decide
  have hAt : ∀ {source : UInt8}, source.toNat < 16 → _ := fun {source} hs =>
    sources_delivered usualIsos_platform 0xFEE00000 ⟨0, fun _ => 0⟩ hMouse hs
      0
  refine ⟨(hAt ?_).trans ?_, (hAt ?_).trans ?_, (hAt ?_).trans ?_, (hAt ?_).trans ?_⟩ <;> decide

end Neutrix.Ioapic
