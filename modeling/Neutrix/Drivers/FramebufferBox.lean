import Neutrix.Drivers.FramebufferMapping

/-!
# Neutrix — the box that the VBE driver clears

`stop` clears a box of 200 × 200 pixels through every mapping that `start`
recorded, at the pitch of the 1024 × 768 mode. The last pixel ends 1225904
bytes behind the BAR's address. `start` records every memory BAR of the
device, also those that are no framebuffer, and a BAR of registers has a
page or two.

* `stopWrites_covered_iff` — the writes stay inside the recorded pages
  exactly when every mapping has room for the box.
-/

namespace Neutrix.Drivers

-- ---------------------------------------------------------------------------
-- The writes
-- ---------------------------------------------------------------------------

/-- Where `stop` takes the framebuffer of a mapping to be. -/
def FbMapping.fb (m : FbMapping) : UInt64 := m.virtBase + (m.barPhys - m.physMapStart)

/-- The addresses of the pixels in the box, row by row. -/
def boxPixels (fb : UInt64) : List UInt64 :=
  let pitch := 1024 * 4
  (List.range' 100 200).flatMap fun y =>
    let row := fb + (y * pitch).toUInt64
    (List.range' 100 200).map fun x => row + (x * 4).toUInt64

/-- The pixels, of four bytes each, that `stop` writes, with the mapping each is
written through. -/
def stopWrites (drv : VbeVgaDriver) : List (FbMapping × UInt64) :=
  if !drv.started then []
  else drv.mappings.flatMap fun m => if m.fb ≠ 0 then (boxPixels m.fb).map fun p => (m, p) else []

/-- The byte at `a` is in the recorded pages. -/
def FbMapping.Covers (m : FbMapping) (a : UInt64) : Prop :=
  ∃ j < m.pages * 0x1000, a = m.virtBase + j.toUInt64

/-- What a recorded mapping can look like. -/
structure FbMapping.Recorded (m : FbMapping) : Prop where
  pages  : 1 ≤ m.pages
  offset : (m.barPhys - m.physMapStart).toNat < 0x1000

-- ---------------------------------------------------------------------------
-- One mapping
-- ---------------------------------------------------------------------------

/-- `start` records such mappings. -/
theorem recorded_of_mem_bars {off : UInt64} {resources : List Resource} {m : FbMapping}
    (h : m ∈ bars off resources) : m.Recorded where
  pages  := Nat.pos_of_ne_zero (by simpa using (List.mem_filter.mp h).2)
  offset := by
    obtain ⟨r, rfl⟩ := mem_bars h
    have hStart : (fbMapping off r).physMapStart.toNat = r.addr.toNat - r.addr.toNat % 0x1000 :=
      pageOf_toNat r.addr
    have hLt := r.addr.toNat_lt
    show (r.addr - (fbMapping off r).physMapStart).toNat < 0x1000
    rw [UInt64.toNat_sub, hStart]
    omega

theorem covers_iff {m : FbMapping} {a : UInt64} :
    m.Covers a ↔ (a - m.virtBase).toNat < m.pages * 0x1000 := by
  constructor
  · rintro ⟨j, hj, rfl⟩
    rw [UInt64.add_comm, UInt64.add_sub_cancel]
    exact Nat.lt_of_le_of_lt (Nat.mod_le j (2 ^ 64)) hj
  · intro h
    refine ⟨(a - m.virtBase).toNat, h, ?_⟩
    rw [Nat.toUInt64, UInt64.ofNat_toNat, UInt64.add_comm, UInt64.sub_add_cancel]

theorem mem_boxPixels {fb a : UInt64} :
    a ∈ boxPixels fb ↔ ∃ y x, 100 ≤ y ∧ y < 300 ∧ 100 ≤ x ∧ x < 300 ∧
      a = fb + (y * 4096).toUInt64 + (x * 4).toUInt64 := by
  simp only [boxPixels, List.mem_flatMap, List.mem_map, List.mem_range'_1]
  constructor
  · rintro ⟨y, hy, x, hx, rfl⟩
    exact ⟨y, x, hy.1, hy.2, hx.1, hx.2, rfl⟩
  · rintro ⟨y, x, hy, hy', hx, hx', rfl⟩
    exact ⟨y, ⟨hy, hy'⟩, x, ⟨hx, hx'⟩, rfl⟩

/-- Byte `k` of a pixel, counted from the start of the recorded pages. -/
theorem pixel_offset {m : FbMapping} (hOffset : (m.barPhys - m.physMapStart).toNat < 0x1000)
    {x y k : Nat} (hx : x < 300) (hy : y < 300) (hk : k < 4) :
    (m.fb + (y * 4096).toUInt64 + (x * 4).toUInt64 + k.toUInt64 - m.virtBase).toNat =
      (m.barPhys - m.physMapStart).toNat + y * 4096 + x * 4 + k := by
  have hBase := m.virtBase.toNat_lt
  simp only [FbMapping.fb, UInt64.toNat_sub, UInt64.toNat_add, Nat.toUInt64, UInt64.toNat_ofNat']
    at hOffset ⊢
  omega

/-- **One mapping.** The last byte of the last pixel decides. -/
theorem boxPixels_covered_iff {m : FbMapping} (h : m.Recorded) :
    (∀ a ∈ boxPixels m.fb, ∀ k < 4, m.Covers (a + k.toUInt64)) ↔
      (m.barPhys - m.physMapStart).toNat + 1225904 ≤ m.pages * 0x1000 := by
  constructor
  · intro hAll
    have hLast := hAll _ (mem_boxPixels.mpr ⟨299, 299, by decide, by decide, by decide, by decide,
      rfl⟩) 3 (by decide)
    rw [covers_iff, pixel_offset h.offset (by decide) (by decide) (by decide)] at hLast
    omega
  · intro hRoom a ha k hk
    obtain ⟨y, x, -, hy, -, hx, rfl⟩ := mem_boxPixels.mp ha
    rw [covers_iff, pixel_offset h.offset hx hy hk]
    omega

-- ---------------------------------------------------------------------------
-- All mappings
-- ---------------------------------------------------------------------------

theorem mem_stopWrites {drv : VbeVgaDriver} {m : FbMapping} {a : UInt64} :
    (m, a) ∈ stopWrites drv ↔
      drv.started = true ∧ m ∈ drv.mappings ∧ m.fb ≠ 0 ∧ a ∈ boxPixels m.fb := by
  unfold stopWrites
  cases drv.started with
  | false => simp
  | true =>
    simp only [Bool.not_true, Bool.false_eq_true, if_false, true_and, List.mem_flatMap]
    constructor
    · rintro ⟨m', hm', hIn⟩
      split_ifs at hIn with hNull
      · obtain ⟨p, hp, hEq⟩ := List.mem_map.mp hIn
        cases hEq
        exact ⟨hm', hNull, hp⟩
      · exact absurd hIn (List.not_mem_nil)
    · rintro ⟨hm, hNull, ha⟩
      refine ⟨m, hm, ?_⟩
      rw [if_pos hNull]
      exact List.mem_map_of_mem ha

/-- **The writes of `stop` stay inside the recorded pages** exactly when every
mapping they are made through has room for the box. -/
theorem stopWrites_covered_iff (drv : VbeVgaDriver) (hRecorded : ∀ m ∈ drv.mappings, m.Recorded) :
    (∀ m a, (m, a) ∈ stopWrites drv → ∀ k < 4, m.Covers (a + k.toUInt64)) ↔
      (drv.started = true → ∀ m ∈ drv.mappings, m.fb ≠ 0 →
        (m.barPhys - m.physMapStart).toNat + 1225904 ≤ m.pages * 0x1000) := by
  constructor
  · intro hAll hStarted m hm hNull
    refine (boxPixels_covered_iff (hRecorded m hm)).mp fun a ha => ?_
    exact hAll m a (mem_stopWrites.mpr ⟨hStarted, hm, hNull, ha⟩)
  · intro hRoom m a hWrite
    obtain ⟨hStarted, hm, hNull, ha⟩ := mem_stopWrites.mp hWrite
    exact (boxPixels_covered_iff (hRecorded m hm)).mpr (hRoom hStarted m hm hNull) a ha

/-- A framebuffer of 16 MiB. -/
def frameBar : Resource := { kind := .memoryMapped, addr := 0xFD000000, len := 0x1000000 }

/-- A page of registers, as display devices have it in another BAR. -/
def registerBar : Resource := { kind := .memoryMapped, addr := 0xFEBF0000, len := 0x1000 }

/-- The framebuffer alone has room. -/
theorem stopWrites_covered_frameBar :
    bars 0x18000000000 [frameBar] = [fbMapping 0x18000000000 frameBar] ∧
    ∀ m a, (m, a) ∈ stopWrites ⟨true, bars 0x18000000000 [frameBar], none⟩ →
      ∀ k < 4, m.Covers (a + k.toUInt64) := by
  have hBars : bars 0x18000000000 [frameBar] = [fbMapping 0x18000000000 frameBar] := by decide
  refine ⟨hBars, (stopWrites_covered_iff ⟨true, bars 0x18000000000 [frameBar], none⟩
    fun m hm => recorded_of_mem_bars hm).mpr fun _ m hm _ => ?_⟩
  rw [hBars, List.mem_singleton] at hm
  subst hm
  decide

/-- With the page of registers next to it, `stop` writes pixels a hundred pages
behind that page. -/
theorem stopWrites_registerBar :
    (∀ m ∈ bars 0x18000000000 [frameBar, registerBar], m.Recorded) ∧
    ∃ m a, (m, a) ∈ stopWrites ⟨true, bars 0x18000000000 [frameBar, registerBar], none⟩ ∧
      m = fbMapping 0x18000000000 registerBar ∧ m.pages = 1 ∧
      a = m.virtBase + 100 * 0x1000 + 400 ∧ ¬ m.Covers a := by
  refine ⟨fun m hm => recorded_of_mem_bars hm, fbMapping 0x18000000000 registerBar, _, ?_, rfl,
    by decide, rfl, ?_⟩
  · refine mem_stopWrites.mpr ⟨rfl, ?_, by decide, ?_⟩
    · show _ ∈ bars 0x18000000000 [frameBar, registerBar]
      decide
    · exact mem_boxPixels.mpr ⟨100, 100, by decide, by decide, by decide, by decide, by decide⟩
  · rw [covers_iff]
    decide

end Neutrix.Drivers
