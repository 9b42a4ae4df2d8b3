import Mathlib.Algebra.Order.Group.Nat
import Neutrix.Memory.FrameInit

/-!
# Neutrix — where `init` puts the bitmap

`init` looks for a usable region above the kernel that has room for the
bitmap, and `bitmap_phys_start == 0` stands for "not found". But 0 is also
the address of a region that starts there. If such a region is the first
with room, it is found and then taken for a failure; the second loop finds
it again, and `init` returns an allocator without a bitmap.

This takes a kernel end of 0 or none at all, as a bitmap above any other
kernel end is not at 0.

* `init_places_iff` — if there is room for the bitmap, `init` puts it into a
  usable region above the kernel exactly when the kernel end is not 0, or the
  first region with room does not start at 0.
-/

namespace Neutrix.Frame.BootInfoFrameAllocator

open Neutrix.Lib

-- ---------------------------------------------------------------------------
-- Room for the bitmap
-- ---------------------------------------------------------------------------

/-- The size of the bitmap: one bit for each frame up to the end of the highest usable
region. -/
def bitmapSize (memoryMap : MemoryMap) : Nat := (maxUsableAddr memoryMap / 0x1000 + 7) / 8

/-- The bytes from `start` on lie in a usable region and not below the kernel's end. -/
structure SpanOk (memoryMap : MemoryMap) (kernelReservedEnd : Option Nat) (start bytes : Nat) :
    Prop where
  inside : ∃ r ∈ memoryMap, r.regionType = .usable ∧ r.startAddr ≤ start ∧ start + bytes ≤ r.endAddr
  above  : ∀ kend, kernelReservedEnd = some kend → kend ≤ start

/-- Some page-aligned span can hold the bitmap. -/
def HasRoom (memoryMap : MemoryMap) (kernelReservedEnd : Option Nat) (bytes : Nat) : Prop :=
  ∃ start, start % 0x1000 = 0 ∧ SpanOk memoryMap kernelReservedEnd start bytes

/-- The first usable region that is long enough. -/
def firstRoom (bytes : Nat) (memoryMap : MemoryMap) : Option MemoryRegion :=
  memoryMap.find? fun r => r.regionType = .usable ∧ r.startAddr + bytes ≤ r.endAddr

-- ---------------------------------------------------------------------------
-- The first pass
-- ---------------------------------------------------------------------------

variable {memoryMap : MemoryMap} {kernelReservedEnd : Option Nat} {bytes : Nat}

theorem alignUp_startAddr (r : MemoryRegion) : alignUp r.startAddr = r.startAddr := by
  have hLt := r.start_lt
  rw [alignUp_of_lt (by unfold MemoryRegion.startAddr; omega)]
  unfold MemoryRegion.startAddr roundUpPage
  omega

/-- The address the first pass takes in a region, if it takes one. -/
def placeIn (kernelReservedEnd : Option Nat) (bytes : Nat) (region : MemoryRegion) : Option Nat :=
  if region.regionType = .usable then
    (startAboveKernel kernelReservedEnd region).bind fun start =>
      if add64 (alignUp start) bytes ≤ region.endAddr then some (alignUp start) else none
  else none

theorem placeAboveKernel_eq (kernelReservedEnd : Option Nat) (bytes : Nat)
    (memoryMap : MemoryMap) :
    placeAboveKernel kernelReservedEnd bytes memoryMap =
      (memoryMap.findSome? (placeIn kernelReservedEnd bytes)).getD 0 := by
  induction memoryMap with
  | nil => rfl
  | cons region rest ih =>
    rw [placeAboveKernel, List.findSome?_cons, placeIn]
    by_cases hUsable : region.regionType = .usable
    · rw [if_neg (not_not.mpr hUsable), if_pos hUsable]
      cases startAboveKernel kernelReservedEnd region with
      | none => exact ih
      | some start =>
        rw [Option.bind_some]
        by_cases hFits : add64 (alignUp start) bytes ≤ region.endAddr
        · simp only [if_pos hFits, Option.getD_some]
        · simp only [if_neg hFits]
          exact ih
    · rw [if_pos hUsable, if_neg hUsable]
      exact ih

/-- A region with a span above the kernel is taken. -/
theorem placeIn_isSome {r : MemoryRegion} {start : Nat} (hUsable : r.regionType = .usable)
    (hAligned : start % 0x1000 = 0) (hLow : r.startAddr ≤ start)
    (hHigh : start + bytes ≤ r.endAddr) (hBytes : 0 < bytes)
    (hAbove : ∀ kend, kernelReservedEnd = some kend → kend ≤ start) :
    (placeIn kernelReservedEnd bytes r).isSome := by
  have hEnd := r.endAddr_lt
  -- the first page boundary from a start below the span lies not behind it
  have hFits : ∀ first ≤ start, add64 (alignUp first) bytes ≤ r.endAddr := by
    intro first hFirst
    have hUp : alignUp first ≤ start := by
      rw [alignUp_of_lt (by omega)]
      unfold roundUpPage
      omega
    rw [add64_of_lt (by omega)]
    omega
  obtain ⟨first, hStart, hFirst⟩ :
      ∃ first, startAboveKernel kernelReservedEnd r = some first ∧ first ≤ start := by
    cases kernelReservedEnd with
    | none => exact ⟨r.startAddr, rfl, hLow⟩
    | some kend =>
      have hKend := hAbove kend rfl
      rw [startAboveKernel, if_neg (by omega)]
      by_cases hStraddle : r.startAddr < kend
      · refine ⟨alignUp kend, if_pos hStraddle, ?_⟩
        rw [alignUp_of_lt (by omega)]
        unfold roundUpPage
        omega
      · exact ⟨r.startAddr, if_neg hStraddle, hLow⟩
  rw [placeIn, if_pos hUsable, hStart, Option.bind_some, if_pos (hFits first hFirst)]
  rfl

theorem placeIn_ge {r : MemoryRegion} {place : Nat}
    (h : placeIn kernelReservedEnd bytes r = some place) :
    ∀ kend, kernelReservedEnd = some kend → kend ≤ place := by
  intro kend hKend
  rw [placeIn] at h
  split at h
  · obtain ⟨start, hStart, hPlace⟩ := Option.bind_eq_some_iff.mp h
    obtain ⟨-, hSmall, hKernel⟩ := startAboveKernel_facts hStart
    have hLe := hKernel kend hKend
    rw [alignUp_of_lt (by omega)] at hPlace
    split at hPlace
    · cases hPlace
      unfold roundUpPage
      omega
    · cases hPlace
  · cases h

/-- Above a kernel that ends behind 0 the pass succeeds if there is room. -/
theorem placeAboveKernel_ne_zero {kend : Nat} (hKend : kend ≠ 0) (hBytes : 0 < bytes)
    (hRoom : HasRoom memoryMap (some kend) bytes) :
    placeAboveKernel (some kend) bytes memoryMap ≠ 0 := by
  obtain ⟨start, hAligned, ⟨r, hr, hUsable, hLow, hHigh⟩, hAbove⟩ := hRoom
  have hSome := placeIn_isSome hUsable hAligned hLow hHigh hBytes hAbove
  rw [placeAboveKernel_eq]
  cases hFound : memoryMap.findSome? (placeIn (some kend) bytes) with
  | none =>
    rw [List.findSome?_eq_none_iff.mp hFound r hr] at hSome
    cases hSome
  | some place =>
    obtain ⟨region, -, hPlace⟩ := List.exists_of_findSome?_eq_some hFound
    have hKernel := placeIn_ge hPlace kend rfl
    rw [Option.getD_some]
    omega

/-- Without a kernel to respect the start of a region with room is taken. -/
theorem placeIn_of_no_kernel (hKernel : ∀ kend, kernelReservedEnd = some kend → kend = 0)
    (hBytes : 0 < bytes) (hSmall : bytes < 2 ^ 52) (r : MemoryRegion) :
    placeIn kernelReservedEnd bytes r =
      if r.regionType = .usable ∧ r.startAddr + bytes ≤ r.endAddr then some r.startAddr
      else none := by
  have hStart := r.start_lt
  have hSum : add64 r.startAddr bytes = r.startAddr + bytes :=
    add64_of_lt (by unfold MemoryRegion.startAddr; omega)
  rw [placeIn]
  by_cases hUsable : r.regionType = .usable
  · rw [if_pos hUsable]
    cases kernelReservedEnd with
    | none =>
      simp only [startAboveKernel, Option.bind_some, alignUp_startAddr, hSum, hUsable, true_and]
    | some kend =>
      obtain rfl := hKernel kend rfl
      by_cases hEnd : r.endAddr ≤ 0
      · rw [startAboveKernel, if_pos hEnd, Option.bind_none, if_neg (by omega)]
      · simp only [startAboveKernel, if_neg hEnd, Nat.not_lt_zero, if_false, Option.bind_some,
          alignUp_startAddr, hSum, hUsable, true_and]
  · rw [if_neg hUsable, if_neg fun h => hUsable h.1]

theorem placeAboveKernel_eq_firstRoom (hKernel : ∀ kend, kernelReservedEnd = some kend → kend = 0)
    (hBytes : 0 < bytes) (hSmall : bytes < 2 ^ 52) (memoryMap : MemoryMap) :
    placeAboveKernel kernelReservedEnd bytes memoryMap =
      ((firstRoom bytes memoryMap).map MemoryRegion.startAddr).getD 0 := by
  rw [placeAboveKernel_eq]
  congr 1
  induction memoryMap with
  | nil => rfl
  | cons r rest ih =>
    rw [firstRoom, List.findSome?_cons, List.find?_cons, placeIn_of_no_kernel hKernel hBytes hSmall]
    by_cases hRoom : r.regionType = .usable ∧ r.startAddr + bytes ≤ r.endAddr
    · rw [if_pos hRoom, decide_eq_true hRoom]
      rfl
    · rw [if_neg hRoom, decide_eq_false hRoom]
      exact ih

/-- The second pass runs after the first has failed, or found the address 0. Then it
finds the same. -/
theorem placeBitmap_of_no_kernel (hKernel : ∀ kend, kernelReservedEnd = some kend → kend = 0)
    (hBytes : 0 < bytes) (hSmall : bytes < 2 ^ 52) (memoryMap : MemoryMap) :
    placeBitmap memoryMap kernelReservedEnd bytes =
      ((firstRoom bytes memoryMap).map MemoryRegion.startAddr).getD 0 := by
  have hNone : ∀ kend, (none : Option Nat) = some kend → kend = 0 := fun _ h => by cases h
  unfold placeBitmap
  rw [placeAnywhere_eq, placeAboveKernel_eq_firstRoom hKernel hBytes hSmall,
    placeAboveKernel_eq_firstRoom hNone hBytes hSmall]
  exact ite_self _

-- ---------------------------------------------------------------------------
-- `init`
-- ---------------------------------------------------------------------------

/-- What `init` is to return when there is room: the bitmap has its full size and a
place in a usable region above the kernel. -/
structure Placed (memoryMap : MemoryMap) (kernelReservedEnd : Option Nat)
    (a : BootInfoFrameAllocator) : Prop where
  bytes : a.bitmapBytes = bitmapSize memoryMap
  span  : SpanOk memoryMap kernelReservedEnd a.bitmapPhysStart a.bitmapBytes

theorem bitmapSize_pos (h : maxUsableAddr memoryMap ≠ 0) : 0 < bitmapSize memoryMap := by
  have hAligned := (maxUsableAddr_facts memoryMap).2
  unfold bitmapSize
  omega

theorem bitmapSize_lt (memoryMap : MemoryMap) : bitmapSize memoryMap < 2 ^ 52 := by
  have hLt := (maxUsableAddr_facts memoryMap).1
  unfold bitmapSize
  omega

/-- `init` on a map with usable memory, in terms of the address found. -/
theorem init_eq (h : maxUsableAddr memoryMap ≠ 0) (kernelReservedEnd : Option Nat)
    (mem : Bitmap) :
    let place := placeBitmap memoryMap kernelReservedEnd (bitmapSize memoryMap)
    (init memoryMap kernelReservedEnd mem).bitmapPhysStart = place ∧
      (init memoryMap kernelReservedEnd mem).bitmapBytes =
        if place = 0 then 0 else bitmapSize memoryMap := by
  intro place
  simp only [init, if_neg h, numFrames_eq]
  by_cases hZero : place = 0
  · rw [if_pos hZero]
    exact (if_pos hZero).symm ▸ ⟨hZero.symm, rfl⟩
  · rw [if_neg hZero]
    exact (if_neg hZero).symm ▸ ⟨rfl, rfl⟩

/-- There is room, so some region is long enough. -/
theorem firstRoom_isSome (hRoom : HasRoom memoryMap kernelReservedEnd bytes) :
    ∃ r, firstRoom bytes memoryMap = some r := by
  obtain ⟨start, -, ⟨r, hr, hUsable, hLow, hHigh⟩, -⟩ := hRoom
  refine Option.isSome_iff_exists.mp (List.find?_isSome.mpr ⟨r, hr, ?_⟩)
  exact decide_eq_true ⟨hUsable, by omega⟩

/-- A bitmap that the first pass places is placed well. -/
theorem placed_of_ne_zero (h : maxUsableAddr memoryMap ≠ 0)
    (hPlace : placeAboveKernel kernelReservedEnd (bitmapSize memoryMap) memoryMap ≠ 0)
    (mem : Bitmap) : Placed memoryMap kernelReservedEnd (init memoryMap kernelReservedEnd mem) := by
  obtain ⟨-, hInside, hAbove⟩ := placeAboveKernel_spec (bitmapSize_lt memoryMap) hPlace
  have hFirst : placeBitmap memoryMap kernelReservedEnd (bitmapSize memoryMap) =
      placeAboveKernel kernelReservedEnd (bitmapSize memoryMap) memoryMap := if_neg hPlace
  obtain ⟨hStart, hBytes⟩ := init_eq h kernelReservedEnd mem
  rw [hFirst] at hStart hBytes
  rw [if_neg hPlace] at hBytes
  refine ⟨hBytes, ?_⟩
  rw [hStart, hBytes]
  exact ⟨hInside, hAbove⟩

/-- **`init` finds the room for its bitmap**, in any memory map and above any kernel
end, iff the kernel's end is not 0, or the first usable region with room does not start
at 0 (or no memory is usable, and the bitmap is empty). -/
theorem init_places_iff (memoryMap : MemoryMap) (kernelReservedEnd : Option Nat) (mem : Bitmap)
    (hRoom : HasRoom memoryMap kernelReservedEnd (bitmapSize memoryMap)) :
    Placed memoryMap kernelReservedEnd (init memoryMap kernelReservedEnd mem) ↔
      (∃ kend, kernelReservedEnd = some kend ∧ kend ≠ 0) ∨
      (∀ r, firstRoom (bitmapSize memoryMap) memoryMap = some r → r.startAddr ≠ 0) ∨
      maxUsableAddr memoryMap = 0 := by
  by_cases hMax : maxUsableAddr memoryMap = 0
  · -- the span of no bytes at 0
    have hSize : bitmapSize memoryMap = 0 := by rw [bitmapSize, hMax]
    have hInit : init memoryMap kernelReservedEnd mem = ⟨0, 0, 0, 0, mem⟩ := by
      rw [init, if_pos hMax]
    refine iff_of_true ?_ (Or.inr (Or.inr hMax))
    obtain ⟨start, -, ⟨r, hr, hUsable, hLow, hHigh⟩, hAbove⟩ := hRoom
    have hEnd := endAddr_le_maxUsableAddr hr hUsable
    rw [hMax] at hEnd
    obtain rfl : start = 0 := by omega
    rw [hInit]
    exact ⟨hSize.symm, ⟨r, hr, hUsable, hLow, Nat.zero_le _⟩, hAbove⟩
  have hPos := bitmapSize_pos hMax
  have hLt := bitmapSize_lt memoryMap
  by_cases hKernel : ∃ kend, kernelReservedEnd = some kend ∧ kend ≠ 0
  · obtain ⟨kend, rfl, hKend⟩ := hKernel
    refine iff_of_true ?_ (Or.inl ⟨kend, rfl, hKend⟩)
    exact placed_of_ne_zero hMax (placeAboveKernel_ne_zero hKend hPos hRoom) mem
  · have hNoKernel : ∀ kend, kernelReservedEnd = some kend → kend = 0 := by
      intro kend hKend
      by_contra hNe
      exact hKernel ⟨kend, hKend, hNe⟩
    obtain ⟨r, hFirst⟩ := firstRoom_isSome hRoom
    have hPlace := placeAboveKernel_eq_firstRoom hNoKernel hPos hLt memoryMap
    have hBitmap := placeBitmap_of_no_kernel hNoKernel hPos hLt memoryMap
    rw [hFirst, Option.map_some, Option.getD_some] at hPlace hBitmap
    simp only [hKernel, hMax, or_false, false_or, hFirst, Option.some.injEq, forall_eq']
    constructor
    · intro hPlaced hZero
      -- the region at 0 counts as not found
      have hBytes := (init_eq hMax kernelReservedEnd mem).2
      rw [hBitmap, if_pos hZero, hPlaced.bytes] at hBytes
      omega
    · intro hNe
      exact placed_of_ne_zero hMax (hPlace ▸ hNe) mem

/-- Two usable regions of eight frames, the first of them at address `first`. -/
def twoRegions (first : Nat) (hFirst : first < 8) : MemoryMap :=
  [⟨first, 8, .usable, by omega, by decide⟩, ⟨32, 40, .usable, by decide, by decide⟩]

/-- A first region that starts behind frame 0 takes the bitmap. -/
theorem init_places_twoRegions :
    HasRoom (twoRegions 1 (by decide)) none (bitmapSize (twoRegions 1 (by decide))) ∧
    ∀ mem, Placed (twoRegions 1 (by decide)) none (init (twoRegions 1 (by decide)) none mem) := by
  have hRoom : HasRoom (twoRegions 1 (by decide)) none
      (bitmapSize (twoRegions 1 (by decide))) :=
    ⟨0x1000, by decide, ⟨_, List.mem_cons_self, rfl, by decide, by decide⟩, fun _ h => by cases h⟩
  refine ⟨hRoom, fun mem => (init_places_iff _ none mem hRoom).mpr (Or.inr (Or.inl ?_))⟩
  decide

/-- With a first region at frame 0 there is as much room, also in the second region, and
`init` gives up. -/
theorem init_gives_up_at_zero :
    HasRoom (twoRegions 0 (by decide)) none (bitmapSize (twoRegions 0 (by decide))) ∧
    bitmapSize (twoRegions 0 (by decide)) = 5 ∧
    ∀ mem, (init (twoRegions 0 (by decide)) none mem).bitmapBytes = 0 := by
  refine ⟨⟨0x20000, by decide, ⟨_, List.mem_cons_of_mem _ List.mem_cons_self, rfl, by decide,
    by decide⟩, fun _ h => by cases h⟩, by decide, fun mem => ?_⟩
  exact (init_eq (by decide) none mem).2

end Neutrix.Frame.BootInfoFrameAllocator
