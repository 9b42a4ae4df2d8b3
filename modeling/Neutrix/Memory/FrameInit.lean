import Mathlib.Algebra.Order.Group.Nat
import Neutrix.Memory.Frame

/-!
# Neutrix — what `init` leaves in the bitmap

`init` writes the bitmap in four passes (all ones, clear the usable
regions, set the kernel, set the bitmap itself). `Allocatable` says what
these passes are for: the frames a client may ever get. The result is
`Built.testBit_iff`: after `init` a bit is clear exactly when its frame is
allocatable — provided `kernel_reserved_end + 0xFFF` does not wrap.
-/

namespace Neutrix.Frame

open Neutrix.Lib

-- ---------------------------------------------------------------------------
-- The purpose of the bitmap
-- ---------------------------------------------------------------------------

/-- `a` rounded up to a page, as a number (no wrap-around). -/
def roundUpPage (a : Nat) : Nat := (a + 0xFFF) / 0x1000 * 0x1000

/-- The whole frame lies inside the region. -/
def PhysFrame.Inside (f : PhysFrame) (r : MemoryRegion) : Prop :=
  r.startAddr ≤ f.startAddress ∧ f.startAddress + 0x1000 ≤ r.endAddr

/-- A frame that clients may get: in a usable region, above the kernel, and
not one of the frames that hold the bitmap of `a`. -/
structure Allocatable (memoryMap : MemoryMap) (kernelReservedEnd : Option Nat)
    (a : BootInfoFrameAllocator) (f : PhysFrame) : Prop where
  usable      : ∃ r ∈ memoryMap, r.regionType = .usable ∧ f.Inside r
  aboveKernel : ∀ kend, kernelReservedEnd = some kend → roundUpPage kend ≤ f.startAddress
  notBitmap   : f.startAddress + 0x1000 ≤ a.bitmapPhysStart ∨
    roundUpPage (a.bitmapPhysStart + a.bitmapBytes) ≤ f.startAddress

/-- `kernel_reserved_end` can be rounded up to a page without wrapping. -/
def NoWrap (kernelReservedEnd : Option Nat) : Prop :=
  ∀ kend, kernelReservedEnd = some kend → kend + 0xFFF < 2 ^ 64

-- ---------------------------------------------------------------------------
-- Address arithmetic
-- ---------------------------------------------------------------------------

theorem add64_of_lt {a b : Nat} (h : a + b < 2 ^ 64) : add64 a b = a + b :=
  Nat.mod_eq_of_lt h

theorem alignUp_mod (a : Nat) : alignUp a % 0x1000 = 0 := by
  unfold alignUp maskPage
  omega

theorem alignUp_of_lt {a : Nat} (h : a + 0xFFF < 2 ^ 64) : alignUp a = roundUpPage a := by
  rw [alignUp, maskPage, add64_of_lt h, roundUpPage]

namespace MemoryRegion

theorem endAddr_lt (r : MemoryRegion) : r.endAddr < 2 ^ 52 := by
  have := r.end_lt
  unfold endAddr
  omega

theorem startAddr_div (r : MemoryRegion) : r.startAddr / 0x1000 = r.startFrameNumber := by
  unfold startAddr
  omega

theorem endAddr_ceil (r : MemoryRegion) :
    add64 r.endAddr 0xFFF / 0x1000 = r.endFrameNumber := by
  have hlt := r.endAddr_lt
  rw [add64_of_lt (by omega)]
  unfold endAddr
  omega

end MemoryRegion

theorem PhysFrame.inside_iff {f : PhysFrame} {r : MemoryRegion} :
    f.Inside r ↔ r.startFrameNumber ≤ f.number ∧ f.number < r.endFrameNumber := by
  unfold PhysFrame.Inside MemoryRegion.startAddr MemoryRegion.endAddr PhysFrame.startAddress
  omega

theorem roundUpPage_le_startAddress {k : Nat} {f : PhysFrame} :
    roundUpPage k ≤ f.startAddress ↔ (k + 0xFFF) / 0x1000 ≤ f.number := by
  unfold roundUpPage PhysFrame.startAddress
  omega

namespace BootInfoFrameAllocator

-- ---------------------------------------------------------------------------
-- Bits after the loops of `init`
-- ---------------------------------------------------------------------------

theorem testBit_setBit (numFrames : Nat) (m : Bitmap) (i j : Nat) (val : Bool) :
    (setBit numFrames m i val).testBit j =
      if j = i ∧ j < numFrames then val else m.testBit j := by
  unfold setBit
  by_cases hi : i ≥ numFrames
  · rw [if_pos hi, if_neg (by omega)]
  · rw [if_neg hi, Bitmap.testBit_writeBit]
    by_cases hj : j = i
    · rw [if_pos hj, if_pos (by omega)]
    · rw [if_neg hj, if_neg (by omega)]

/-- A `for` loop over `lo..hi` writes exactly the bits of that range that
exist. -/
theorem testBit_setRange (numFrames : Nat) (m : Bitmap) (lo hi j : Nat) (val : Bool) :
    (setRange numFrames m lo hi val).testBit j =
      if (lo ≤ j ∧ j < hi) ∧ j < numFrames then val else m.testBit j := by
  -- induction on the number of rounds, for every loop start
  have hLoop : ∀ (n lo : Nat) (m : Bitmap),
      ((List.range' lo n).foldl (fun m i => setBit numFrames m i val) m).testBit j =
        if (lo ≤ j ∧ j < lo + n) ∧ j < numFrames then val else m.testBit j := by
    intro n
    induction n with
    | zero =>
      intro lo m
      rw [List.range'_zero, List.foldl_nil, if_neg (by omega)]
    | succ n ih =>
      intro lo m
      rw [List.range'_succ, List.foldl_cons, ih, testBit_setBit]
      by_cases hLater : (lo + 1 ≤ j ∧ j < lo + 1 + n) ∧ j < numFrames
      · rw [if_pos hLater, if_pos (by omega)]
      · rw [if_neg hLater]
        by_cases hNow : j = lo ∧ j < numFrames
        · rw [if_pos hNow, if_pos (by omega)]
        · rw [if_neg hNow, if_neg (by omega)]
  unfold setRange
  rw [hLoop]
  by_cases h : (lo ≤ j ∧ j < hi) ∧ j < numFrames
  · rw [if_pos h, if_pos (by omega)]
  · rw [if_neg h, if_neg (by omega)]

/-- The clearing pass clears exactly the frames of the usable regions. -/
theorem testBit_clearUsable (numFrames : Nat) (memoryMap : MemoryMap) (m : Bitmap)
    {j : Nat} (hj : j < numFrames) :
    (clearUsable numFrames memoryMap m).testBit j = false ↔
      (∃ r ∈ memoryMap, r.regionType = .usable ∧ (⟨j⟩ : PhysFrame).Inside r) ∨
        m.testBit j = false := by
  unfold clearUsable
  induction memoryMap generalizing m with
  | nil => simp
  | cons region rest ih =>
    rw [List.foldl_cons, ih]
    by_cases hU : region.regionType = .usable
    · rw [if_pos hU, testBit_setRange, region.startAddr_div, region.endAddr_ceil]
      have hIn := PhysFrame.inside_iff (f := ⟨j⟩) (r := region)
      by_cases hj' : region.startFrameNumber ≤ j ∧ j < region.endFrameNumber
      · simp [hj', hj, hU, hIn]
      · simp [hj', hU, hIn]
    · rw [if_neg hU]
      simp [hU]

theorem testBit_reserveKernel (numFrames : Nat) {kernelReservedEnd : Option Nat}
    (hk : NoWrap kernelReservedEnd) (m : Bitmap) {j : Nat} (hj : j < numFrames) :
    (reserveKernel numFrames kernelReservedEnd m).testBit j = false ↔
      (∀ kend, kernelReservedEnd = some kend →
        roundUpPage kend ≤ (⟨j⟩ : PhysFrame).startAddress) ∧ m.testBit j = false := by
  cases kernelReservedEnd with
  | none => simp [reserveKernel]
  | some kend =>
    have hAbove := roundUpPage_le_startAddress (k := kend) (f := ⟨j⟩)
    simp only [reserveKernel, testBit_setRange, add64_of_lt (hk kend rfl), Option.some.injEq,
      forall_eq', hAbove]
    by_cases h : j < (kend + 0xFFF) / 0x1000
    · have : ¬ (kend + 0xFFF) / 0x1000 ≤ j := by omega
      simp [h, hj, this]
    · have : (kend + 0xFFF) / 0x1000 ≤ j := by omega
      simp [h, this]

theorem testBit_reserveBitmap (numFrames : Nat) {start bytes : Nat}
    (hAligned : start % 0x1000 = 0) (hEnd : start + bytes < 2 ^ 52)
    (m : Bitmap) {j : Nat} (hj : j < numFrames) :
    (reserveBitmap numFrames start bytes m).testBit j = false ↔
      ((⟨j⟩ : PhysFrame).startAddress + 0x1000 ≤ start ∨
        roundUpPage (start + bytes) ≤ (⟨j⟩ : PhysFrame).startAddress) ∧
      m.testBit j = false := by
  have hOutside : ((⟨j⟩ : PhysFrame).startAddress + 0x1000 ≤ start ∨
      roundUpPage (start + bytes) ≤ (⟨j⟩ : PhysFrame).startAddress) ↔
      ¬ (start / 0x1000 ≤ j ∧ j < (start + bytes + 0xFFF) / 0x1000) := by
    rw [roundUpPage_le_startAddress]
    show j * 0x1000 + 0x1000 ≤ start ∨ (start + bytes + 0xFFF) / 0x1000 ≤ j ↔ _
    omega
  have hSum : add64 start bytes = start + bytes := add64_of_lt (by omega)
  rw [reserveBitmap, testBit_setRange, hSum, add64_of_lt (by omega), hOutside]
  by_cases h : start / 0x1000 ≤ j ∧ j < (start + bytes + 0xFFF) / 0x1000
  · simp [h, hj]
  · simp [h]

-- ---------------------------------------------------------------------------
-- Size and place of the bitmap
-- ---------------------------------------------------------------------------

/-- No usable region reaches beyond the highest usable address. -/
theorem endAddr_le_maxUsableAddr {memoryMap : MemoryMap} {r : MemoryRegion}
    (hr : r ∈ memoryMap) (hU : r.regionType = .usable) :
    r.endAddr ≤ maxUsableAddr memoryMap := by
  -- the accumulator only grows, and passes every usable end on the way
  have hFold : ∀ (l : MemoryMap) (acc : Nat),
      acc ≤ l.foldl (fun maxAddr region =>
        if region.regionType = .usable then
          if region.endAddr > maxAddr then region.endAddr else maxAddr
        else maxAddr) acc ∧
      (r ∈ l → r.endAddr ≤ l.foldl (fun maxAddr region =>
        if region.regionType = .usable then
          if region.endAddr > maxAddr then region.endAddr else maxAddr
        else maxAddr) acc) := by
    intro l
    induction l with
    | nil => simp
    | cons region rest ih =>
      intro acc
      rw [List.foldl_cons]
      obtain ⟨hGrow, hRest⟩ := ih (if region.regionType = .usable then
        if region.endAddr > acc then region.endAddr else acc else acc)
      constructor
      · refine le_trans ?_ hGrow
        split_ifs <;> omega
      · intro hMem
        rcases List.mem_cons.mp hMem with rfl | hIn
        · refine le_trans ?_ hGrow
          rw [if_pos hU]
          split_ifs <;> omega
        · exact hRest hIn
  exact (hFold memoryMap 0).2 hr

theorem maxUsableAddr_facts (memoryMap : MemoryMap) :
    maxUsableAddr memoryMap < 2 ^ 52 ∧ maxUsableAddr memoryMap % 0x1000 = 0 := by
  unfold maxUsableAddr
  have hFold : ∀ (l : MemoryMap) (acc : Nat), acc < 2 ^ 52 ∧ acc % 0x1000 = 0 →
      l.foldl (fun maxAddr region =>
        if region.regionType = .usable then
          if region.endAddr > maxAddr then region.endAddr else maxAddr
        else maxAddr) acc < 2 ^ 52 ∧
      l.foldl (fun maxAddr region =>
        if region.regionType = .usable then
          if region.endAddr > maxAddr then region.endAddr else maxAddr
        else maxAddr) acc % 0x1000 = 0 := by
    intro l
    induction l with
    | nil => exact fun _ h => h
    | cons region rest ih =>
      intro acc hAcc
      rw [List.foldl_cons]
      apply ih
      have hEnd : region.endAddr < 2 ^ 52 ∧ region.endAddr % 0x1000 = 0 :=
        ⟨region.endAddr_lt, by unfold MemoryRegion.endAddr; omega⟩
      split_ifs
      · exact hEnd
      · exact hAcc
      · exact hAcc
  exact hFold memoryMap 0 (by decide)

/-- The second pass is the first one without a kernel to respect. -/
theorem placeAnywhere_eq (bytes : Nat) (memoryMap : MemoryMap) :
    placeAnywhere bytes memoryMap = placeAboveKernel none bytes memoryMap := by
  induction memoryMap with
  | nil => rfl
  | cons region rest ih => simp only [placeAnywhere, placeAboveKernel, startAboveKernel, ih]

/-- The first address of a region that the first pass considers lies in the
region's part of the address space. -/
theorem startAboveKernel_facts {kernelReservedEnd : Option Nat} {r : MemoryRegion} {start : Nat}
    (h : startAboveKernel kernelReservedEnd r = some start) :
    r.startAddr ≤ start ∧ start ≤ 2 ^ 52 ∧
      ∀ kend, kernelReservedEnd = some kend → kend ≤ start := by
  have hStart : r.startAddr < 2 ^ 52 := by
    have := r.start_lt
    unfold MemoryRegion.startAddr
    omega
  cases kernelReservedEnd with
  | none =>
    rw [startAboveKernel, Option.some.injEq] at h
    subst h
    exact ⟨le_rfl, by omega, by simp⟩
  | some kend =>
    have hEnd := r.endAddr_lt
    simp only [startAboveKernel] at h
    split_ifs at h with hBelow hStraddle
    · -- the region straddles the kernel's end, which is itself below 2^52
      rw [Option.some.injEq, alignUp_of_lt (by omega)] at h
      simp only [Option.some.injEq, forall_eq']
      unfold roundUpPage at h
      omega
    · simp only [Option.some.injEq] at h
      simp only [Option.some.injEq, forall_eq']
      omega

/-- **Placement.** A bitmap placed by the first pass is page-aligned, lies
inside one usable region and not below `kernel_reserved_end`. -/
theorem placeAboveKernel_spec {kernelReservedEnd : Option Nat} {bytes : Nat}
    (hBytes : bytes < 2 ^ 52) {memoryMap : MemoryMap}
    (h : placeAboveKernel kernelReservedEnd bytes memoryMap ≠ 0) :
    placeAboveKernel kernelReservedEnd bytes memoryMap % 0x1000 = 0 ∧
    (∃ r ∈ memoryMap, r.regionType = .usable ∧
      r.startAddr ≤ placeAboveKernel kernelReservedEnd bytes memoryMap ∧
      placeAboveKernel kernelReservedEnd bytes memoryMap + bytes ≤ r.endAddr) ∧
    ∀ kend, kernelReservedEnd = some kend →
      kend ≤ placeAboveKernel kernelReservedEnd bytes memoryMap := by
  induction memoryMap with
  | nil => simp [placeAboveKernel] at h
  | cons region rest ih =>
    by_cases hSkip : placeAboveKernel kernelReservedEnd bytes (region :: rest) =
        placeAboveKernel kernelReservedEnd bytes rest
    · rw [hSkip] at h ⊢
      obtain ⟨hAligned, ⟨r, hr, hIn⟩, hKernel⟩ := ih h
      exact ⟨hAligned, ⟨r, List.mem_cons_of_mem _ hr, hIn⟩, hKernel⟩
    · -- the bitmap is placed in `region` itself
      rw [placeAboveKernel] at h hSkip ⊢
      by_cases hU : region.regionType = .usable
      · rw [if_neg (by simp [hU])] at h hSkip ⊢
        cases hs : startAboveKernel kernelReservedEnd region with
        | none => simp [hs] at hSkip
        | some start =>
          simp only [hs] at h hSkip ⊢
          by_cases hFit : add64 (alignUp start) bytes ≤ region.endAddr
          · obtain ⟨hLow, hHigh, hKernel⟩ := startAboveKernel_facts hs
            have hUp : alignUp start = (start + 0xFFF) / 0x1000 * 0x1000 :=
              alignUp_of_lt (by omega)
            rw [add64_of_lt (by omega)] at hFit
            rw [if_pos (by rw [add64_of_lt (by omega)]; exact hFit)]
            refine ⟨alignUp_mod start, ⟨region, List.mem_cons_self .., hU, by omega, hFit⟩, ?_⟩
            intro kend hk
            have := hKernel kend hk
            omega
          · simp [hFit] at hSkip
      · simp [hU] at hSkip

theorem placeBitmap_spec {memoryMap : MemoryMap} {kernelReservedEnd : Option Nat} {bytes : Nat}
    (hBytes : bytes < 2 ^ 52) (h : placeBitmap memoryMap kernelReservedEnd bytes ≠ 0) :
    placeBitmap memoryMap kernelReservedEnd bytes % 0x1000 = 0 ∧
    ∃ r ∈ memoryMap, r.regionType = .usable ∧
      r.startAddr ≤ placeBitmap memoryMap kernelReservedEnd bytes ∧
      placeBitmap memoryMap kernelReservedEnd bytes + bytes ≤ r.endAddr := by
  unfold placeBitmap at h ⊢
  by_cases hFirst : placeAboveKernel kernelReservedEnd bytes memoryMap = 0
  · rw [if_pos hFirst, placeAnywhere_eq] at h ⊢
    exact ⟨(placeAboveKernel_spec hBytes h).1, (placeAboveKernel_spec hBytes h).2.1⟩
  · rw [if_neg hFirst] at h ⊢
    exact ⟨(placeAboveKernel_spec hBytes h).1, (placeAboveKernel_spec hBytes h).2.1⟩

-- ---------------------------------------------------------------------------
-- `init` as a whole
-- ---------------------------------------------------------------------------

/-- Number of frames below the highest usable address. -/
theorem numFrames_eq (memoryMap : MemoryMap) :
    add64 (maxUsableAddr memoryMap) 0xFFF / 0x1000 = maxUsableAddr memoryMap / 0x1000 := by
  obtain ⟨hLt, hAligned⟩ := maxUsableAddr_facts memoryMap
  rw [add64_of_lt (by omega)]
  omega

/-- The shape of an allocator for which `init` built a bitmap. -/
structure Built (memoryMap : MemoryMap) (kernelReservedEnd : Option Nat) (mem : Bitmap)
    (a : BootInfoFrameAllocator) : Prop where
  numFrames : a.numFrames = maxUsableAddr memoryMap / 0x1000
  bytes     : a.bitmapBytes = (a.numFrames + 7) / 8
  bytes_ne  : a.bitmapBytes ≠ 0
  cursor    : a.nextSearch = 0
  aligned   : a.bitmapPhysStart % 0x1000 = 0
  fits      : a.bitmapPhysStart + a.bitmapBytes < 2 ^ 52
  bitmap    : a.bitmap = initBitmap memoryMap kernelReservedEnd a.numFrames
    a.bitmapPhysStart a.bitmapBytes mem

/-- `init` either gives up (`bitmap_bytes = 0`) or builds a bitmap. -/
theorem init_built {memoryMap : MemoryMap} {kernelReservedEnd : Option Nat} {mem : Bitmap}
    (h : (init memoryMap kernelReservedEnd mem).bitmapBytes ≠ 0) :
    Built memoryMap kernelReservedEnd mem (init memoryMap kernelReservedEnd mem) := by
  have hFrames := numFrames_eq memoryMap
  have hMax := (maxUsableAddr_facts memoryMap).1
  by_cases h0 : maxUsableAddr memoryMap = 0
  · simp [init, h0] at h
  · rw [init, if_neg h0] at h ⊢
    simp only [hFrames] at h ⊢
    by_cases hPlace : placeBitmap memoryMap kernelReservedEnd
        ((maxUsableAddr memoryMap / 0x1000 + 7) / 8) = 0
    · rw [if_pos hPlace] at h
      exact absurd rfl h
    · rw [if_neg hPlace] at h ⊢
      obtain ⟨hAligned, r, -, -, -, hEnd⟩ := placeBitmap_spec (by omega) hPlace
      exact ⟨rfl, rfl, h, rfl, hAligned, lt_of_le_of_lt hEnd r.endAddr_lt, rfl⟩

variable {memoryMap : MemoryMap} {kernelReservedEnd : Option Nat} {mem : Bitmap}
  {a : BootInfoFrameAllocator}

/-- An allocatable frame has a bit in the bitmap. -/
theorem Built.lt_numFrames (hB : Built memoryMap kernelReservedEnd mem a) {f : PhysFrame}
    (hf : Allocatable memoryMap kernelReservedEnd a f) : f.number < a.numFrames := by
  obtain ⟨r, hr, hU, -, hEnd⟩ := hf.usable
  have hMax := endAddr_le_maxUsableAddr hr hU
  rw [hB.numFrames]
  unfold PhysFrame.startAddress at hEnd
  omega

/-- **The bitmap after `init`.** A bit is clear exactly when its frame is
allocatable. -/
theorem Built.testBit_iff (hk : NoWrap kernelReservedEnd)
    (hB : Built memoryMap kernelReservedEnd mem a) {j : Nat} (hj : j < a.numFrames) :
    a.bitmap.testBit j = false ↔ Allocatable memoryMap kernelReservedEnd a ⟨j⟩ := by
  have hFull : (mem.fill a.bitmapBytes 0xFF).testBit j = true := by
    apply Bitmap.testBit_fill_ff
    have := hB.bytes
    omega
  rw [hB.bitmap, initBitmap, testBit_reserveBitmap _ hB.aligned hB.fits _ hj,
    testBit_reserveKernel _ hk _ hj, testBit_clearUsable _ _ _ hj, hFull]
  constructor
  · rintro ⟨hOutside, hAbove, hUsable | hFalse⟩
    · exact ⟨hUsable, hAbove, hOutside⟩
    · exact absurd hFalse (by decide)
  · rintro ⟨hUsable, hAbove, hOutside⟩
    exact ⟨hOutside, hAbove, Or.inl hUsable⟩

end BootInfoFrameAllocator

end Neutrix.Frame
