import Mathlib.Data.Finset.Image
import Neutrix.Lib.Pool
import Neutrix.Memory.FrameSafety

/-!
# Neutrix — when the frame allocator runs dry

The safety module says what a returned frame is; here is the converse: the
two-part search misses nothing. Seen from its clients the allocator is a
resource pool (`Lib.Pool`) whose free resources are the allocatable frames
that nobody holds (`framePool`), so the counting results of the pool apply
to it: `allocateFrame_complete`.
-/

namespace Neutrix.Frame

open Neutrix.Lib BootInfoFrameAllocator

section Exhaustion

variable {memoryMap : MemoryMap} {kernelReservedEnd : Option Nat} {mem : Bitmap}

-- ---------------------------------------------------------------------------
-- The allocator as a pool
-- ---------------------------------------------------------------------------

open Classical in
/-- All allocatable frames. They have a bit in the bitmap, so the set is finite. -/
noncomputable def allocatableFrames (memoryMap : MemoryMap) (kernelReservedEnd : Option Nat)
    (a₀ : BootInfoFrameAllocator) : Finset PhysFrame :=
  ((Finset.range a₀.numFrames).image PhysFrame.mk).filter
    (Allocatable memoryMap kernelReservedEnd a₀)

theorem mem_allocatableFrames {a₀ : BootInfoFrameAllocator}
    (hIdx : ∀ f, Allocatable memoryMap kernelReservedEnd a₀ f → f.number < a₀.numFrames)
    {f : PhysFrame} :
    f ∈ allocatableFrames memoryMap kernelReservedEnd a₀ ↔
      Allocatable memoryMap kernelReservedEnd a₀ f := by
  classical
  rw [allocatableFrames, Finset.mem_filter, and_iff_right_iff_imp]
  intro hf
  exact Finset.mem_image.mpr ⟨f.number, Finset.mem_range.mpr (hIdx f hf), rfl⟩

/-- **Refinement.** Bitmap, cursor and clients together implement a pool of
the allocatable frames. -/
noncomputable def framePool (memoryMap : MemoryMap) (kernelReservedEnd : Option Nat)
    (a₀ : BootInfoFrameAllocator) (hBytes : a₀.bitmapBytes ≠ 0)
    (hIdx : ∀ f, Allocatable memoryMap kernelReservedEnd a₀ f → f.number < a₀.numFrames) :
    Pool System PhysFrame where
  Inv   := Inv memoryMap kernelReservedEnd a₀
  free  := fun s => allocatableFrames memoryMap kernelReservedEnd a₀ \ s.held
  alloc := System.allocate
  alloc_none := by
    intro s hs
    rcases hs.allocate_cases hBytes hIdx with ⟨f, hf, hAlloc, hFree, -, -⟩ | ⟨hNone, hAll⟩
    · -- a call that succeeds found a free frame
      have hMem : f ∈ allocatableFrames memoryMap kernelReservedEnd a₀ \ s.held :=
        Finset.mem_sdiff.mpr ⟨(mem_allocatableFrames hIdx).mpr hAlloc, hFree⟩
      constructor
      · intro h
        rw [hf] at h
        exact absurd h (by simp)
      · intro h
        rw [h] at hMem
        exact absurd hMem (Finset.notMem_empty f)
    · refine iff_of_true (by rw [hNone]) ?_
      rw [Finset.sdiff_eq_empty_iff_subset]
      intro f hf
      exact hAll f ((mem_allocatableFrames hIdx).mp hf)
  alloc_some := by
    intro s f hs hf
    rcases hs.allocate_cases hBytes hIdx with ⟨g, hg, hAlloc, hFree, hHeld, hInv⟩ | ⟨hNone, -⟩
    · rw [hf, Option.some.injEq] at hg
      subst hg
      refine ⟨Finset.mem_sdiff.mpr ⟨(mem_allocatableFrames hIdx).mpr hAlloc, hFree⟩, ?_, hInv⟩
      rw [hHeld, Finset.sdiff_insert]
    · rw [hNone] at hf
      exact absurd hf (by simp)

-- ---------------------------------------------------------------------------
-- Releasing frames
-- ---------------------------------------------------------------------------

/-- Distinct held frames can be given back one after the other; afterwards
exactly these are no longer held. -/
theorem run_release {fs : List PhysFrame} {s : System} (hNodup : fs.Nodup)
    (hHeld : ∀ f ∈ fs, f ∈ s.held) :
    ∃ t, Lib.run System.step s (fs.map Op.freeFrame) = some t ∧
      t.held = s.held \ fs.toFinset := by
  induction fs generalizing s with
  | nil => exact ⟨s, rfl, by simp⟩
  | cons f fs ih =>
    obtain ⟨hNotIn, hRest⟩ := List.nodup_cons.mp hNodup
    have hStep : s.step (.freeFrame f) = some (s.release f) :=
      if_pos (hHeld f (List.mem_cons_self ..))
    have hHeld' : ∀ g ∈ fs, g ∈ (s.release f).held := by
      intro g hg
      refine Finset.mem_erase.mpr ⟨?_, hHeld g (List.mem_cons_of_mem _ hg)⟩
      rintro rfl
      exact hNotIn hg
    obtain ⟨t, hRun, hEnd⟩ := ih hRest hHeld'
    refine ⟨t, (run_cons System.step).mpr ⟨_, hStep, hRun⟩, ?_⟩
    ext g
    rw [hEnd]
    simp only [System.release, Finset.mem_sdiff, Finset.mem_erase, List.mem_toFinset,
      List.mem_cons, not_or]
    tauto

-- ---------------------------------------------------------------------------
-- Completeness
-- ---------------------------------------------------------------------------

/--
**Completeness.** Let `init` build a bitmap, with a `kernel_reserved_end`
that can be rounded up. Then in every run

* `allocate_frame` fails exactly when every allocatable frame is held;
* right after `init`, as many calls succeed as there are allocatable frames,
  they return exactly these, and the next call fails;
* from an exhausted allocator, giving back any `k` distinct held frames
  makes exactly the next `k` calls succeed, and they return these frames.
-/
theorem allocateFrame_complete (hk : NoWrap kernelReservedEnd)
    (hBuilt : (init memoryMap kernelReservedEnd mem).bitmapBytes ≠ 0) :
    (∀ (ops : List Op) (t : System),
      Lib.run System.step (System.boot memoryMap kernelReservedEnd mem) ops = some t →
      (t.alloc.allocateFrame.1 = none ↔
        ∀ f, Allocatable memoryMap kernelReservedEnd (init memoryMap kernelReservedEnd mem) f →
          f ∈ t.held)) ∧
    (∃ fs : List PhysFrame, fs.Nodup ∧
      (∀ f, f ∈ fs ↔
        Allocatable memoryMap kernelReservedEnd (init memoryMap kernelReservedEnd mem) f) ∧
      (allocMany System.allocate fs.length
        (System.boot memoryMap kernelReservedEnd mem)).1 = fs.map some ∧
      (allocMany System.allocate fs.length
        (System.boot memoryMap kernelReservedEnd mem)).2.allocate.1 = none) ∧
    (∀ (ops : List Op) (t : System) (fs : List PhysFrame),
      Lib.run System.step (System.boot memoryMap kernelReservedEnd mem) ops = some t →
      t.alloc.allocateFrame.1 = none → fs.Nodup → (∀ f ∈ fs, f ∈ t.held) →
      ∃ (u : System) (gs : List PhysFrame),
        Lib.run System.step t (fs.map Op.freeFrame) = some u ∧ gs.Perm fs ∧
        (allocMany System.allocate fs.length u).1 = gs.map some ∧
        (allocMany System.allocate fs.length u).2.allocate.1 = none) := by
  have hB := init_built hBuilt
  have hIdx : ∀ f, Allocatable memoryMap kernelReservedEnd (init memoryMap kernelReservedEnd mem) f →
      f.number < (init memoryMap kernelReservedEnd mem).numFrames := fun _ => hB.lt_numFrames
  let P := framePool memoryMap kernelReservedEnd (init memoryMap kernelReservedEnd mem) hBuilt hIdx
  have hFree : ∀ (s : System) (f : PhysFrame), f ∈ P.free s ↔
      Allocatable memoryMap kernelReservedEnd (init memoryMap kernelReservedEnd mem) f ∧
        f ∉ s.held := by
    intro s f
    rw [← mem_allocatableFrames hIdx]
    exact Finset.mem_sdiff
  -- an invariant state fails exactly when nothing is free
  have hNone : ∀ s, Inv memoryMap kernelReservedEnd (init memoryMap kernelReservedEnd mem) s →
      (s.alloc.allocateFrame.1 = none ↔
        ∀ f, Allocatable memoryMap kernelReservedEnd (init memoryMap kernelReservedEnd mem) f →
          f ∈ s.held) := by
    intro s hs
    rw [← System.allocate_fst, show s.allocate.1 = (P.alloc s).1 from rfl, P.alloc_none s hs,
      Finset.eq_empty_iff_forall_notMem]
    simp only [hFree, not_and, not_not]
  refine ⟨?_, ?_, ?_⟩
  · intro ops t hRun
    exact hNone t (Inv.run hk hB hRun)
  · obtain ⟨fs, hMap, hNodup, hSet, hEnd⟩ := P.allocMany_exhausts (Inv.boot hk hB) rfl
    have hLen : fs.length = (P.free (System.boot memoryMap kernelReservedEnd mem)).card := by
      rw [← hSet, List.toFinset_card_of_nodup hNodup]
    refine ⟨fs, hNodup, ?_, by rw [hLen]; exact hMap, by rw [hLen]; exact hEnd⟩
    intro f
    rw [← List.mem_toFinset, hSet, hFree]
    simp [System.boot]
  · intro ops t fs hRun hExhausted hNodup hHeld
    have hInv := Inv.run hk hB hRun
    obtain ⟨u, hRelease, hHeldU⟩ := run_release hNodup hHeld
    have hInvU := Inv.run hk hB ((run_append System.step).mpr ⟨t, hRun, hRelease⟩)
    -- exactly the frames given back are free now
    have hFreeU : P.free u = fs.toFinset := by
      ext f
      rw [hFree, hHeldU, Finset.mem_sdiff, List.mem_toFinset, not_and, not_not]
      constructor
      · rintro ⟨hAlloc, hNotHeld⟩
        exact hNotHeld ((hNone t hInv).mp hExhausted f hAlloc)
      · intro hf
        exact ⟨hInv.held f (hHeld f hf), fun _ => hf⟩
    have hCard : (P.free u).card = fs.length := by
      rw [hFreeU, List.toFinset_card_of_nodup hNodup]
    obtain ⟨gs, hMap, hNodupG, hSet, hEnd⟩ := P.allocMany_exhausts hInvU hCard
    refine ⟨u, gs, hRelease, ?_, hMap, hEnd⟩
    rw [List.perm_ext_iff_of_nodup hNodupG hNodup]
    intro f
    rw [← List.mem_toFinset, hSet, hFreeU, List.mem_toFinset]

theorem allocateFrame_complete_smallMap :
    NoWrap (some 0x2800) ∧ (init smallMap (some 0x2800) fun _ => 0).bitmapBytes ≠ 0 ∧
    ((System.boot smallMap (some 0x2800) fun _ => 0).alloc.allocateFrame.1 = none ↔
      ∀ f, Allocatable smallMap (some 0x2800) (init smallMap (some 0x2800) fun _ => 0) f →
        f ∈ (System.boot smallMap (some 0x2800) fun _ => 0).held) := by
  have hk : NoWrap (some 0x2800) := by
    rintro kend ⟨⟩
    decide
  have hBuilt : (init smallMap (some 0x2800) fun _ => 0).bitmapBytes ≠ 0 := by decide
  exact ⟨hk, hBuilt, (allocateFrame_complete hk hBuilt).1 [] _ rfl⟩

/-- With `kernel_reserved_end = u64::MAX` no frame is allocatable, nobody
holds one, and yet `allocate_frame` succeeds. -/
theorem allocateFrame_succeeds_without_frames :
    (init smallMap (some (2 ^ 64 - 1)) fun _ => 0).bitmapBytes ≠ 0 ∧
    Lib.run System.step (System.boot smallMap (some (2 ^ 64 - 1)) fun _ => 0) [] =
      some (System.boot smallMap (some (2 ^ 64 - 1)) fun _ => 0) ∧
    ¬ ((System.boot smallMap (some (2 ^ 64 - 1)) fun _ => 0).alloc.allocateFrame.1 = none ↔
      ∀ f, Allocatable smallMap (some (2 ^ 64 - 1))
        (init smallMap (some (2 ^ 64 - 1)) fun _ => 0) f →
        f ∈ (System.boot smallMap (some (2 ^ 64 - 1)) fun _ => 0).held) := by
  refine ⟨by decide, rfl, ?_⟩
  intro h
  have hAll : ∀ f, Allocatable smallMap (some (2 ^ 64 - 1))
      (init smallMap (some (2 ^ 64 - 1)) fun _ => 0) f →
      f ∈ (System.boot smallMap (some (2 ^ 64 - 1)) fun _ => 0).held := by
    intro f hf
    obtain ⟨r, hr, -, -, hEnd⟩ := hf.usable
    have hAbove := hf.aboveKernel _ rfl
    rw [smallMap, List.mem_singleton] at hr
    subst hr
    have hLow : f.startAddress + 0x1000 ≤ 0x10000 := hEnd
    unfold roundUpPage at hAbove
    omega
  exact absurd (h.mpr hAll) (by decide)

end Exhaustion

end Neutrix.Frame
