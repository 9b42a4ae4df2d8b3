import Neutrix.Memory.FrameInit

/-!
# Neutrix — the frame allocator over whole runs

The invariant `Inv` ties the packed bitmap to the clients: a bit is clear
exactly when its frame is allocatable and nobody holds it. Every call
preserves it (`Inv.allocate_cases`, `Inv.release`), whatever the search
cursor did before, so in every run from `init` a frame is handed out only
when it is allocatable and free (`allocateFrame_safe`).

This needs `NoWrap` as soon as there is a bitmap: in the release image
`kernel_reserved_end + 0xFFF` wraps for the last 4095 addresses, and the
kernel is then not reserved at all (`allocateFrame_below_kernel`).
-/

namespace Neutrix.Frame

open Neutrix.Lib

namespace BootInfoFrameAllocator

-- ---------------------------------------------------------------------------
-- The two searches
-- ---------------------------------------------------------------------------

variable {a : BootInfoFrameAllocator}

theorem searchFrom_some {n i k : Nat} (h : a.searchFrom i n = some k) :
    i ≤ k ∧ k < i + n ∧ a.testBit k = false := by
  induction n generalizing i with
  | zero => simp [searchFrom] at h
  | succ n ih =>
    rw [searchFrom] at h
    by_cases hBit : a.testBit i = true
    · rw [if_neg (by simp [hBit])] at h
      obtain ⟨hLow, hHigh, hClear⟩ := ih h
      exact ⟨by omega, by omega, hClear⟩
    · rw [if_pos (by simp [hBit]), Option.some.injEq] at h
      subst h
      exact ⟨le_rfl, by omega, by simpa using hBit⟩

theorem searchFrom_none {n i k : Nat} (h : a.searchFrom i n = none) (hLow : i ≤ k)
    (hHigh : k < i + n) : a.testBit k = true := by
  induction n generalizing i with
  | zero => omega
  | succ n ih =>
    rw [searchFrom] at h
    by_cases hBit : a.testBit i = true
    · rw [if_neg (by simp [hBit])] at h
      rcases Nat.eq_or_lt_of_le hLow with rfl | hLater
      · exact hBit
      · exact ih h hLater (by omega)
    · simp [hBit] at h

theorem testBit_of_lt (hBytes : a.bitmapBytes ≠ 0) {i : Nat} (hi : i < a.numFrames) :
    a.testBit i = a.bitmap.testBit i := by
  rw [testBit, if_neg (by omega)]

/-- The state after frame `i` was taken. -/
theorem take_eq (hBytes : a.bitmapBytes ≠ 0) {i : Nat} (hi : i < a.numFrames) :
    a.take i = (⟨i⟩, { a with bitmap := a.bitmap.writeBit i true, nextSearch := i + 1 }) := by
  rw [take, setBitRuntime, if_neg (by omega), PhysFrame.containingAddress,
    Nat.mul_div_cancel i (by decide)]

/-- A frame the search comes up with. -/
theorem searchFrom_take (hBytes : a.bitmapBytes ≠ 0) {start n i : Nat}
    (h : a.searchFrom start n = some i) (hEnd : start + n ≤ a.numFrames) :
    i < a.numFrames ∧ a.bitmap.testBit i = false ∧
      a.take i = (⟨i⟩, { a with bitmap := a.bitmap.writeBit i true, nextSearch := i + 1 }) := by
  obtain ⟨-, hHigh, hClear⟩ := searchFrom_some h
  have hi : i < a.numFrames := by omega
  rw [testBit_of_lt hBytes hi] at hClear
  exact ⟨hi, hClear, take_eq hBytes hi⟩

/-- **What `allocate_frame` can do.** It takes some frame whose bit is clear,
or fails because all bits are set; the cursor stays within the bitmap. -/
theorem allocateFrame_cases (hBytes : a.bitmapBytes ≠ 0) (hCursor : a.nextSearch ≤ a.numFrames) :
    (∃ i < a.numFrames, a.bitmap.testBit i = false ∧ a.allocateFrame =
      (some ⟨i⟩, { a with bitmap := a.bitmap.writeBit i true, nextSearch := i + 1 })) ∨
    (a.allocateFrame = (none, a) ∧ ∀ i < a.numFrames, a.bitmap.testBit i = true) := by
  rw [allocateFrame, if_neg hBytes]
  cases hFirst : a.searchFrom a.nextSearch (a.numFrames - a.nextSearch) with
  | some i =>
    obtain ⟨hi, hClear, hTake⟩ := searchFrom_take hBytes hFirst (by omega)
    exact Or.inl ⟨i, hi, hClear, by simp only [hTake]⟩
  | none =>
    -- wrap around: the frames before the cursor
    cases hSecond : a.searchFrom 0 a.nextSearch with
    | some i =>
      obtain ⟨hi, hClear, hTake⟩ := searchFrom_take hBytes hSecond (by omega)
      exact Or.inl ⟨i, hi, hClear, by simp only [hTake]⟩
    | none =>
      refine Or.inr ⟨rfl, fun i hi => ?_⟩
      rw [← testBit_of_lt hBytes hi]
      rcases Nat.lt_or_ge i a.nextSearch with hBefore | hAfter
      · exact searchFrom_none hSecond (Nat.zero_le i) (by omega)
      · exact searchFrom_none hFirst hAfter (by omega)

end BootInfoFrameAllocator

-- ---------------------------------------------------------------------------
-- The invariant
-- ---------------------------------------------------------------------------

section Runs

variable {memoryMap : MemoryMap} {kernelReservedEnd : Option Nat} {mem : Bitmap}

/-- Bitmap and clients agree. `a₀` is the allocator as `init` returned it. -/
structure Inv (memoryMap : MemoryMap) (kernelReservedEnd : Option Nat)
    (a₀ : BootInfoFrameAllocator) (s : System) : Prop where
  bytes  : s.alloc.bitmapBytes = a₀.bitmapBytes
  frames : s.alloc.numFrames = a₀.numFrames
  cursor : s.alloc.nextSearch ≤ s.alloc.numFrames
  held   : ∀ f ∈ s.held, Allocatable memoryMap kernelReservedEnd a₀ f
  bits   : ∀ j < s.alloc.numFrames, s.alloc.bitmap.testBit j = false ↔
    Allocatable memoryMap kernelReservedEnd a₀ ⟨j⟩ ∧ (⟨j⟩ : PhysFrame) ∉ s.held

open BootInfoFrameAllocator

theorem Inv.boot (hk : NoWrap kernelReservedEnd)
    (hB : Built memoryMap kernelReservedEnd mem (init memoryMap kernelReservedEnd mem)) :
    Inv memoryMap kernelReservedEnd (init memoryMap kernelReservedEnd mem)
      (System.boot memoryMap kernelReservedEnd mem) where
  bytes  := rfl
  frames := rfl
  cursor := by
    show (init memoryMap kernelReservedEnd mem).nextSearch ≤ _
    rw [hB.cursor]
    exact Nat.zero_le _
  held   := by simp [System.boot]
  bits   := by
    intro j hj
    show (init memoryMap kernelReservedEnd mem).bitmap.testBit j = false ↔ _
    rw [hB.testBit_iff hk hj]
    simp [System.boot]

variable {a₀ : BootInfoFrameAllocator} {s : System}

/-- **What a client sees of `allocate_frame`.** Either it gets an allocatable
frame nobody held, or every allocatable frame is held. -/
theorem Inv.allocate_cases (hBytes : a₀.bitmapBytes ≠ 0)
    (hIdx : ∀ f, Allocatable memoryMap kernelReservedEnd a₀ f → f.number < a₀.numFrames)
    (hs : Inv memoryMap kernelReservedEnd a₀ s) :
    (∃ f, s.allocate.1 = some f ∧ Allocatable memoryMap kernelReservedEnd a₀ f ∧ f ∉ s.held ∧
      s.allocate.2.held = insert f s.held ∧ Inv memoryMap kernelReservedEnd a₀ s.allocate.2) ∨
    (s.allocate = (none, s) ∧
      ∀ f, Allocatable memoryMap kernelReservedEnd a₀ f → f ∈ s.held) := by
  have hBytes' : s.alloc.bitmapBytes ≠ 0 := by
    rw [hs.bytes]
    exact hBytes
  rcases allocateFrame_cases hBytes' hs.cursor with ⟨i, hi, hClear, hEq⟩ | ⟨hEq, hFull⟩
  · obtain ⟨hAlloc, hFree⟩ := (hs.bits i hi).mp hClear
    refine Or.inl ⟨⟨i⟩, ?_, hAlloc, hFree, ?_, ?_⟩
    · rw [System.allocate, hEq]
    · rw [System.allocate, hEq]
    · rw [System.allocate, hEq]
      refine ⟨hs.bytes, hs.frames, hi, ?_, ?_⟩
      · intro f hf
        rcases Finset.mem_insert.mp hf with rfl | hOld
        · exact hAlloc
        · exact hs.held f hOld
      · intro j hj
        show (s.alloc.bitmap.writeBit i true).testBit j = false ↔ _
        rw [Bitmap.testBit_writeBit]
        by_cases hji : j = i
        · simp [hji]
        · rw [if_neg hji, hs.bits j hj]
          simp [hji]
  · refine Or.inr ⟨by rw [System.allocate, hEq], fun f hf => ?_⟩
    by_contra hFree
    have hLt : f.number < s.alloc.numFrames := by
      rw [hs.frames]
      exact hIdx f hf
    have := (hs.bits f.number hLt).mpr ⟨hf, hFree⟩
    rw [hFull f.number hLt] at this
    exact absurd this (by decide)

/-- Giving back a held frame makes exactly that frame free again. -/
theorem Inv.release (hBytes : a₀.bitmapBytes ≠ 0)
    (hs : Inv memoryMap kernelReservedEnd a₀ s) {f : PhysFrame} (hf : f ∈ s.held) :
    Inv memoryMap kernelReservedEnd a₀ (s.release f) := by
  have hFree : s.alloc.freeFrame f =
      { s.alloc with bitmap := s.alloc.bitmap.writeBit f.number false } := by
    rw [freeFrame, if_neg (by rw [hs.bytes]; exact hBytes), PhysFrame.startAddress,
      Nat.mul_div_cancel _ (by decide)]
  rw [System.release, hFree]
  refine ⟨hs.bytes, hs.frames, hs.cursor, ?_, ?_⟩
  · intro g hg
    exact hs.held g (Finset.mem_of_mem_erase hg)
  · intro j hj
    show (s.alloc.bitmap.writeBit f.number false).testBit j = false ↔ _
    rw [Bitmap.testBit_writeBit]
    by_cases hjf : j = f.number
    · subst hjf
      simpa using hs.held f hf
    · have hne : (⟨j⟩ : PhysFrame) ≠ f := fun h => hjf (by rw [← h])
      rw [if_neg hjf, hs.bits j hj]
      simp [hne]

/-- Every call preserves the invariant. -/
theorem Inv.step (hBytes : a₀.bitmapBytes ≠ 0)
    (hIdx : ∀ f, Allocatable memoryMap kernelReservedEnd a₀ f → f.number < a₀.numFrames)
    (hs : Inv memoryMap kernelReservedEnd a₀ s) {op : Op} {t : System}
    (h : s.step op = some t) : Inv memoryMap kernelReservedEnd a₀ t := by
  cases op with
  | allocateFrame =>
    rw [System.step, Option.some.injEq] at h
    subst h
    rcases hs.allocate_cases hBytes hIdx with ⟨f, -, -, -, -, hInv⟩ | ⟨hEq, -⟩
    · exact hInv
    · rw [hEq]
      exact hs
  | freeFrame f =>
    rw [System.step] at h
    split_ifs at h with hf
    rw [Option.some.injEq] at h
    exact h ▸ hs.release hBytes hf

/-- The invariant holds after every run from `init`. -/
theorem Inv.run (hk : NoWrap kernelReservedEnd)
    (hB : Built memoryMap kernelReservedEnd mem (init memoryMap kernelReservedEnd mem))
    {ops : List Op} {t : System}
    (h : Lib.run System.step (System.boot memoryMap kernelReservedEnd mem) ops = some t) :
    Inv memoryMap kernelReservedEnd (init memoryMap kernelReservedEnd mem) t :=
  run_invariant System.step
    (fun _ _ _ hs hStep => hs.step hB.bytes_ne (fun _ => hB.lt_numFrames) hStep)
    (Inv.boot hk hB) h

theorem System.allocate_fst (s : System) : s.allocate.1 = s.alloc.allocateFrame.1 := by
  rw [System.allocate]
  rcases s.alloc.allocateFrame with ⟨_ | f, a⟩ <;> rfl

/-- Without a bitmap the allocator never hands out anything, in any run. -/
theorem allocateFrame_of_no_bitmap
    (h0 : (init memoryMap kernelReservedEnd mem).bitmapBytes = 0) {ops : List Op} {t : System}
    (h : Lib.run System.step (System.boot memoryMap kernelReservedEnd mem) ops = some t) :
    t.alloc.allocateFrame.1 = none := by
  have hZero : t.alloc.bitmapBytes = 0 := by
    refine run_invariant System.step (P := fun s => s.alloc.bitmapBytes = 0) ?_ h0 h
    intro s op s' hs hStep
    cases op with
    | allocateFrame =>
      rw [System.step, System.allocate, allocateFrame, if_pos hs, Option.some.injEq] at hStep
      rw [← hStep]
      exact hs
    | freeFrame f =>
      rw [System.step, System.release, freeFrame, if_pos hs] at hStep
      split_ifs at hStep
      rw [Option.some.injEq] at hStep
      rw [← hStep]
      exact hs
  rw [allocateFrame, if_pos hZero]

-- ---------------------------------------------------------------------------
-- Safety
-- ---------------------------------------------------------------------------

/--
**Safety.** In every run from `init` — any memory map, any
`kernel_reserved_end` that can be rounded up if a bitmap was placed, any
initial content of the bitmap's memory, any sequence of calls that frees
only held frames — a frame returned by `allocate_frame` is held by nobody, lies in a usable
region, not below the kernel's end rounded up to a page, and is none of
the frames that hold the bitmap.
-/
theorem allocateFrame_safe
    (hk : (init memoryMap kernelReservedEnd mem).bitmapBytes ≠ 0 → NoWrap kernelReservedEnd)
    {ops : List Op} {t : System}
    (hRun : Lib.run System.step (System.boot memoryMap kernelReservedEnd mem) ops = some t)
    {f : PhysFrame} (hf : t.alloc.allocateFrame.1 = some f) :
    f ∉ t.held ∧
    (∃ r ∈ memoryMap, r.regionType = .usable ∧ f.Inside r) ∧
    (∀ kend, kernelReservedEnd = some kend → roundUpPage kend ≤ f.startAddress) ∧
    (f.startAddress + 0x1000 ≤ (init memoryMap kernelReservedEnd mem).bitmapPhysStart ∨
      roundUpPage ((init memoryMap kernelReservedEnd mem).bitmapPhysStart +
        (init memoryMap kernelReservedEnd mem).bitmapBytes) ≤ f.startAddress) := by
  by_cases h0 : (init memoryMap kernelReservedEnd mem).bitmapBytes = 0
  · rw [allocateFrame_of_no_bitmap h0 hRun] at hf
    exact absurd hf (by simp)
  · have hB := init_built h0
    have hInv := Inv.run (hk h0) hB hRun
    rw [← System.allocate_fst] at hf
    rcases hInv.allocate_cases hB.bytes_ne (fun _ => hB.lt_numFrames) with
      ⟨g, hg, hAlloc, hFree, -, -⟩ | ⟨hNone, -⟩
    · rw [hf, Option.some.injEq] at hg
      subst hg
      exact ⟨hFree, hAlloc.usable, hAlloc.aboveKernel, hAlloc.notBitmap⟩
    · rw [hNone] at hf
      exact absurd hf (by simp)

/-- Frames 1 to 15 usable, everything else unknown. -/
def smallMap : MemoryMap := [⟨1, 16, .usable, by decide, by decide⟩]

/-- Frames 4 and 5 have been handed out, and 4 has been given back. -/
theorem allocateFrame_safe_smallMap :
    ∃ t, Lib.run System.step (System.boot smallMap (some 0x2800) fun _ => 0)
        [.allocateFrame, .allocateFrame, .freeFrame ⟨4⟩] = some t ∧
      t.held = {⟨5⟩} ∧ t.alloc.allocateFrame.1 = some ⟨6⟩ ∧ (⟨6⟩ : PhysFrame) ∉ t.held := by
  have hk : NoWrap (some 0x2800) := by
    rintro kend ⟨⟩
    decide
  obtain ⟨t, hRun, hHeld, hf⟩ :
      ∃ t, Lib.run System.step (System.boot smallMap (some 0x2800) fun _ => 0)
          [.allocateFrame, .allocateFrame, .freeFrame ⟨4⟩] = some t ∧
        t.held = {⟨5⟩} ∧ t.alloc.allocateFrame.1 = some ⟨6⟩ :=
    ⟨_, rfl, by decide, by decide⟩
  exact ⟨t, hRun, hHeld, hf, (allocateFrame_safe (fun _ => hk) hRun hf).1⟩

/-- `kernel_reserved_end = u64::MAX`: `kend + 0xFFF` wraps to `0xFFE`, no
kernel frame is reserved, and the first frame handed out lies below it. -/
theorem allocateFrame_below_kernel :
    Lib.run System.step (System.boot smallMap (some (2 ^ 64 - 1)) fun _ => 0) [] =
      some (System.boot smallMap (some (2 ^ 64 - 1)) fun _ => 0) ∧
    (System.boot smallMap (some (2 ^ 64 - 1)) fun _ => 0).alloc.allocateFrame.1 = some ⟨2⟩ ∧
    ¬ roundUpPage (2 ^ 64 - 1) ≤ (⟨2⟩ : PhysFrame).startAddress :=
  ⟨rfl, by decide, by decide⟩

end Runs

end Neutrix.Frame
