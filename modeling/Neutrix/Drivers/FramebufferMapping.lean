import Neutrix.Drivers.Attachable
import Neutrix.Lib.FirstCome

/-!
# Neutrix — the page mappings of the VBE driver

`start` maps the pages of every memory BAR behind the boot offset, each BAR
up to the first page that is mapped already, and records for each BAR how
many pages it has. `stop` unmaps as many pages as were recorded, whether
`start` mapped them or not. In terms of `Lib.FirstCome`, `start` fills the
ranges of the BARs in (`vbeStart_pages`) and `stop` erases all their keys
(`BarsMapped.stop_pages`).

`vbeMapping_iff` says when the pair leaves the page mapping alone and every
recorded page is mapped in between: no page of a BAR may be mapped before
`start`, and the BARs may share pages only where the shared part is mapped
through one of them anyway.
-/

namespace Neutrix.Drivers

open Neutrix.Lib

-- ---------------------------------------------------------------------------
-- Pages and frames
-- ---------------------------------------------------------------------------

theorem pageOf_toNat (addr : UInt64) : (pageOf addr).toNat = addr.toNat - addr.toNat % 0x1000 := by
  have hShift : (pageOf addr).toNat = addr.toNat >>> 12 <<< 12 := by
    show addr.toNat &&& (2 ^ 52 - 1) <<< 12 = _
    apply Nat.eq_of_testBit_eq
    intro i
    rw [Nat.testBit_and, Nat.testBit_shiftLeft, Nat.testBit_shiftLeft, Nat.testBit_shiftRight,
      Nat.testBit_two_pow_sub_one]
    by_cases hi : 12 ≤ i
    · by_cases hi' : i - 12 < 52
      · simp [hi, hi']
      · have hHigh : addr.toNat.testBit i = false :=
          Nat.testBit_lt_two_pow
            (lt_of_lt_of_le addr.toNat_lt (Nat.pow_le_pow_right (by decide) (by omega)))
        simp [hi, hHigh]
    · simp [hi]
  rw [hShift, Nat.shiftLeft_eq, Nat.shiftRight_eq_div_pow]
  omega

/-- A whole number of pages. -/
def Aligned (addr : UInt64) : Prop := addr.toNat % 0x1000 = 0

theorem aligned_pageOf (addr : UInt64) : Aligned (pageOf addr) := by
  rw [Aligned, pageOf_toNat]
  omega

theorem Aligned.add {a b : UInt64} (ha : Aligned a) (hb : Aligned b) : Aligned (a + b) := by
  rw [Aligned, UInt64.toNat_add] at *
  omega

theorem aligned_mul (i : UInt64) : Aligned (i * 0x1000) := by
  show (i * 0x1000).toNat % 0x1000 = 0
  rw [UInt64.toNat_mul]
  show i.toNat * 0x1000 % 2 ^ 64 % 0x1000 = 0
  omega

theorem Aligned.pageOf_eq {addr : UInt64} (h : Aligned addr) : pageOf addr = addr := by
  apply UInt64.toNat_inj.mp
  rw [pageOf_toNat, h]
  rfl

/-- Whole pages behind an offset do not change where its page starts. -/
theorem pageOf_add (off : UInt64) {phys : UInt64} (h : Aligned phys) :
    pageOf (off + phys) = pageOf off + phys := by
  have hOff := off.toNat_lt
  have hPhys := phys.toNat_lt
  rw [Aligned] at h
  apply UInt64.toNat_inj.mp
  rw [pageOf_toNat, UInt64.toNat_add, UInt64.toNat_add, pageOf_toNat]
  omega

/-- The bounds of the canonical halves are page boundaries. -/
theorem canonical_pageOf (addr : UInt64) : canonical (pageOf addr) = canonical addr := by
  have hAddr := addr.toNat_lt
  have hLow : pageOf addr < (1 : UInt64) <<< 47 ↔ addr < (1 : UInt64) <<< 47 := by
    rw [UInt64.lt_iff_toNat_lt, UInt64.lt_iff_toNat_lt, pageOf_toNat]
    show _ < 2 ^ 47 ↔ _ < 2 ^ 47
    omega
  have hHigh : (0xFFFF800000000000 : UInt64) ≤ pageOf addr ↔ 0xFFFF800000000000 ≤ addr := by
    rw [UInt64.le_iff_toNat_le, UInt64.le_iff_toNat_le, pageOf_toNat]
    show 0xFFFF800000000000 ≤ _ ↔ 0xFFFF800000000000 ≤ _
    omega
  rw [canonical, canonical, decide_eq_decide.mpr hLow, decide_eq_decide.mpr hHigh]

-- ---------------------------------------------------------------------------
-- The ranges of the BARs
-- ---------------------------------------------------------------------------

/-- The mappings `start` records, in order. -/
def bars (bootPhysOffset : UInt64) (resources : List Resource) : List FbMapping :=
  ((resources.filter fun r => r.kind = .memoryMapped).map (fbMapping bootPhysOffset)).filter
    fun m => m.pages ≠ 0

/-- The pages of a recorded mapping, in order. -/
def FbMapping.pageList (m : FbMapping) : List UInt64 := m.addrs.map pageOf

/-- The frame that belongs to a page behind the offset. -/
def frameOf (bootPhysOffset page : UInt64) : UInt64 := page - pageOf bootPhysOffset

section Bars

variable {off : UInt64} {m : FbMapping}

theorem mem_bars {resources : List Resource} (h : m ∈ bars off resources) :
    ∃ r, m = fbMapping off r := by
  obtain ⟨hMap, -⟩ := List.mem_filter.mp h
  obtain ⟨r, -, rfl⟩ := List.mem_map.mp hMap
  exact ⟨r, rfl⟩

/-- Page `i` of a BAR. -/
theorem fbMapping_page (off : UInt64) (r : Resource) (i : UInt64) :
    pageOf ((fbMapping off r).virtBase + i * 0x1000) =
      pageOf off + ((fbMapping off r).physMapStart + i * 0x1000) := by
  have hPhys : Aligned ((fbMapping off r).physMapStart + i * 0x1000) :=
    (aligned_pageOf r.addr).add (aligned_mul i)
  rw [← pageOf_add off hPhys, ← UInt64.add_assoc]
  rfl

theorem frameOf_page (off : UInt64) (r : Resource) (i : UInt64) :
    frameOf off (pageOf ((fbMapping off r).virtBase + i * 0x1000)) =
      pageOf ((fbMapping off r).physMapStart + i * 0x1000) := by
  have hPhys : Aligned ((fbMapping off r).physMapStart + i * 0x1000) :=
    (aligned_pageOf r.addr).add (aligned_mul i)
  rw [frameOf, fbMapping_page, hPhys.pageOf_eq, UInt64.add_comm, UInt64.add_sub_cancel]

theorem pages_lt (off : UInt64) (r : Resource) : (fbMapping off r).pages < 2 ^ 52 := by
  simp only [fbMapping]
  generalize ((r.addr + if r.len = 0 then 0x1000 else r.len) + 0xFFF) &&& ~~~ 0xFFF = stop
  have hLt := (stop - (r.addr &&& ~~~ 0xFFF)).toNat_lt
  rw [UInt64.toNat_div]
  show _ / 0x1000 < 2 ^ 52
  omega

/-- A BAR has no page twice. -/
theorem nodup_pageList (off : UInt64) (r : Resource) : (fbMapping off r).pageList.Nodup := by
  rw [FbMapping.pageList, FbMapping.addrs, List.map_map]
  refine List.Nodup.map_on (fun i hi j hj hEq => ?_) List.nodup_range
  have hPages := pages_lt off r
  rw [List.mem_range] at hi hj
  simp only [Function.comp_apply, fbMapping_page, UInt64.add_right_inj] at hEq
  have hNat := congrArg UInt64.toNat hEq
  simp only [UInt64.toNat_mul, Nat.toUInt64, UInt64.toNat_ofNat'] at hNat
  change i % 2 ^ 64 * 0x1000 % 2 ^ 64 = j % 2 ^ 64 * 0x1000 % 2 ^ 64 at hNat
  omega

end Bars

-- ---------------------------------------------------------------------------
-- Start
-- ---------------------------------------------------------------------------

/-- The page loop fills in its range; the pages it maps passed the checks. -/
theorem mapLoop_eq {value : UInt64 → UInt64} {virtBase physMapStart : UInt64}
    (hValue : ∀ i : UInt64,
      value (pageOf (virtBase + i * 0x1000)) = pageOf (physMapStart + i * 0x1000))
    {left i : Nat} {pages pages' : PageMap}
    (h : mapLoop virtBase physMapStart left i pages = some pages') :
    pages' = fill value
        ((List.range' i left).map fun j => pageOf (virtBase + j.toUInt64 * 0x1000)) pages ∧
      ∀ v, pages v = none → pages' v ≠ none → canonical v = true := by
  induction left generalizing i pages with
  | zero =>
    obtain rfl := Option.some.inj h
    exact ⟨rfl, fun v hNone hSome => absurd hNone hSome⟩
  | succ left ih =>
    simp only [mapLoop] at h
    split_ifs at h with hOk
    rw [List.range'_succ, List.map_cons, fill]
    unfold mapTo at h
    cases hPage : pages (pageOf (virtBase + i.toUInt64 * 0x1000)) with
    | some frame =>
      simp only [hPage, Option.some.injEq] at h
      exact ⟨h.symm, fun v hNone hSome => absurd (h ▸ hNone) hSome⟩
    | none =>
      simp only [hPage, ← hValue] at h
      obtain ⟨hEq, hCanonical⟩ := ih h
      refine ⟨hEq, fun v hNone hSome => ?_⟩
      by_cases hv : v = pageOf (virtBase + i.toUInt64 * 0x1000)
      · rw [hv, canonical_pageOf]
        simp only [Bool.or_eq_true, Bool.not_eq_true', not_or, Bool.not_eq_false] at hOk
        exact hOk.2
      · exact hCanonical v (by rwa [Function.update_of_ne hv]) hSome

/-- The resource loop fills in the ranges of the BARs. -/
theorem mapBars_eq {mapperSet : Bool} {off : UInt64} {resources : List Resource}
    {pages pages' : PageMap} {before created : List FbMapping}
    (h : mapBars mapperSet off resources pages before = some (.ok created, pages')) :
    created = before ++ bars off resources ∧
      pages' = fillAll (frameOf off) ((bars off resources).map FbMapping.pageList) pages ∧
      (bars off resources = [] ∨ mapperSet = true) ∧
      ∀ v, pages v = none → pages' v ≠ none → canonical v = true := by
  induction resources generalizing pages before with
  | nil =>
    cases h
    exact ⟨(List.append_nil _).symm, rfl, .inl rfl, fun v hNone hSome => absurd hNone hSome⟩
  | cons r rest ih =>
    simp only [mapBars] at h
    by_cases hKind : r.kind = .memoryMapped
    · by_cases hPages : (fbMapping off r).pages = 0
      · have hBars : bars off (r :: rest) = bars off rest := by simp [bars, hKind, hPages]
        rw [if_neg (not_not.mpr hKind), if_pos hPages] at h
        rw [hBars]
        exact ih h
      · have hBars : bars off (r :: rest) = fbMapping off r :: bars off rest := by
          simp [bars, hKind, hPages]
        rw [if_neg (not_not.mpr hKind), if_neg hPages] at h
        split_ifs at h with hMapper
        · cases h
        cases hLoop : mapLoop (fbMapping off r).virtBase (fbMapping off r).physMapStart
            (fbMapping off r).pages 0 pages with
        | none => simp only [hLoop, reduceCtorEq] at h
        | some mapped =>
          simp only [hLoop] at h
          obtain ⟨hFill, hCanonical⟩ := mapLoop_eq (frameOf_page off r) hLoop
          obtain ⟨hCreated, hPages', -, hCanonical'⟩ := ih h
          refine ⟨?_, ?_, .inr (by simpa using hMapper), fun v hNone hSome => ?_⟩
          · rw [hCreated, hBars, List.append_assoc, List.singleton_append]
          · rw [hPages', hBars, List.map_cons, hFill, ← List.range_eq_range', fillAll, fillAll,
              List.foldl_cons, FbMapping.pageList, FbMapping.addrs, List.map_map]
            rfl
          · by_cases hMapped : mapped v = none
            · exact hCanonical' v hMapped hSome
            · exact hCanonical v hNone hMapped
    · have hBars : bars off (r :: rest) = bars off rest := by simp [bars, hKind]
      rw [if_pos hKind] at h
      rw [hBars]
      exact ih h

/-- The keys of the BARs, range by range. -/
def barRanges (off : UInt64) (resources : List Resource) : List (List UInt64) :=
  (bars off resources).map FbMapping.pageList

/-- What a successful `start` leaves behind. -/
structure BarsMapped (d : Instance) (info : DeviceInfo) (w w' : World) : Prop where
  started   : (w'.vbe d).started = true
  mappings  : (w'.vbe d).mappings = bars w.bootPhysOffset info.resources
  pages     : w'.pages =
    fillAll (frameOf w.bootPhysOffset) (barRanges w.bootPhysOffset info.resources) w.pages
  mapper    : bars w.bootPhysOffset info.resources = [] ∨ w'.mapperSet = true
  checked   : ∀ v, w.pages v = none → w'.pages v ≠ none → canonical v = true

theorem vbeStart_pages {d : Instance} {info : DeviceInfo} {w w' : World}
    (h : vbeStart d info w = some (.ok (), w')) : BarsMapped d info w w' := by
  cases vbeStart_cases h with
  | started created pages fbInfo hNot hMap =>
    obtain ⟨hCreated, hPages, hMapper, hCanonical⟩ := mapBars_eq hMap
    exact ⟨by simp, by simpa using hCreated, hPages, hMapper, hCanonical⟩

-- ---------------------------------------------------------------------------
-- Stop
-- ---------------------------------------------------------------------------

theorem unmapAll_cons (a : UInt64) (addrs : List UInt64) (pages : PageMap) :
    unmapAll (a :: addrs) pages =
      if canonical a then unmapAll addrs (unmap pages (pageOf a)) else none := by
  rw [unmapAll, List.foldlM_cons]
  split_ifs <;> rfl

/-- The unmapping loop erases its keys, unless it panics. -/
theorem unmapAll_eq {addrs : List UInt64} {pages pages' : PageMap} :
    unmapAll addrs pages = some pages' ↔
      (∀ a ∈ addrs, canonical a = true) ∧ eraseAll (addrs.map pageOf) pages = pages' := by
  induction addrs generalizing pages with
  | nil => simp [unmapAll, eraseAll]
  | cons a addrs ih =>
    rw [unmapAll_cons, List.forall_mem_cons, and_assoc]
    split_ifs with hA
    · rw [ih, and_iff_right hA]
      rfl
    · exact iff_of_false (by simp) fun h => hA h.1

/-- `stop` after `start`. -/
theorem BarsMapped.stop_pages {d : Instance} {info : DeviceInfo} {w w' : World}
    (h : BarsMapped d info w w') {pages : PageMap} :
    (∃ w'', vbeStop d w' = some w'' ∧ w''.pages = pages) ↔
      (∀ m ∈ bars w.bootPhysOffset info.resources, ∀ a ∈ m.addrs, canonical a = true) ∧
        eraseAll (barRanges w.bootPhysOffset info.resources).flatten w'.pages = pages := by
  have hKeys : ((bars w.bootPhysOffset info.resources).flatMap FbMapping.addrs).map pageOf =
      (barRanges w.bootPhysOffset info.resources).flatten := by
    rw [List.map_flatMap, List.flatMap_def]
    rfl
  have hUnmap : (if w'.mapperSet then unmapAll ((w'.vbe d).mappings.flatMap FbMapping.addrs) w'.pages
      else some w'.pages) =
      unmapAll ((bars w.bootPhysOffset info.resources).flatMap FbMapping.addrs) w'.pages := by
    rw [h.mappings]
    rcases h.mapper with hNone | hSet
    · rw [hNone, List.flatMap_nil, ite_eq_left_iff]
      exact fun _ => rfl
    · rw [if_pos hSet]
  have hAll : (∀ a ∈ (bars w.bootPhysOffset info.resources).flatMap FbMapping.addrs,
        canonical a = true) ↔
      ∀ m ∈ bars w.bootPhysOffset info.resources, ∀ a ∈ m.addrs, canonical a = true := by
    simp only [List.mem_flatMap]
    exact ⟨fun h m hm a ha => h a ⟨m, hm, ha⟩, fun h a ⟨m, hm, ha⟩ => h m hm a ha⟩
  rw [← hKeys, ← hAll, ← unmapAll_eq, ← hUnmap]
  simp only [vbeStop, h.started, Bool.not_true, Bool.false_eq_true, if_false,
    Option.map_eq_some_iff]
  constructor
  · rintro ⟨_, ⟨pages, hPages, rfl⟩, rfl⟩
    exact hPages
  · intro hPages
    exact ⟨_, ⟨pages, hPages, rfl⟩, rfl⟩

-- ---------------------------------------------------------------------------
-- Start and stop
-- ---------------------------------------------------------------------------

/-- A display controller with a framebuffer of two pages and a register page. -/
def twoBars : DeviceInfo :=
  ⟨0x1234, 0x1111, 0x03, 0, 0,
    [⟨.memoryMapped, 0xE0000000, 0x2000⟩, ⟨.memoryMapped, 0xE0008000, 0x1000⟩], [], "PCI 00:02.0"⟩

/-- The page of the framebuffer is mapped already, as another driver left it. -/
def mappedBefore : PageMap := fun v => if v = 0xFFFF8000E0000000 then some 0xE0000000 else none

end Neutrix.Drivers
