import Neutrix.Lib.RadixTable
import Neutrix.Lib.Simulation
import Neutrix.Memory.FrameExhaustion

/-!
# Neutrix — page tables out of the frame allocator

The kernel maps pages in three places: `init_heap` (`src/memory/allocator.rs`)
gives every heap page a frame of its own, the VBE driver and the timer map
device memory, and the VBE driver unmaps it again. All of them go through
one mapper (`src/memory/paging.rs`) over one `BootInfoFrameAllocator`. The
tables are frames of the memory they map: a frame that the allocator handed
out twice, or one that already holds a table, would be cleared under a table in
use.

`map_to` and `unmap` are a library's, and `init_heap` takes any `impl Mapper`.
So the mapper `M` is a parameter here, and what is assumed of it is
`Mapper.Lawful`: in short, `map_to` maps its page or fails for a reason that
the tables and the allocator give, takes the tables it needs from the allocator
it is given and touches nothing else in use, and `unmap` takes its page out.

`Kernel` has the tables as the processor reads them, level 4 to level 1 in
physical frames. What a page is translated to is read off the frames.

* `Inv` — the tables form a tree of frames that the allocator does not hand
  out any more, and no frame given to a client is one of them.
* `translations_run` — after any sequence of mappings, the translation of
  every page is what the calls that succeeded say, in order.

The bootloader's tables are assumed to be a tree of frames outside the memory
that the allocator manages (`BootTables`), and `flags` are left out.
-/

namespace Neutrix.Paging

open Neutrix.Lib Neutrix.Lib.Tables
open Neutrix.Frame (MemoryMap PhysFrame BootInfoFrameAllocator Allocatable NoWrap
  allocatableFrames mem_allocatableFrames)

-- ---------------------------------------------------------------------------
-- Pages
-- ---------------------------------------------------------------------------

abbrev Index := Fin 512

/-- A page of the 48-bit address space, by number. -/
structure Page where
  number    : Nat
  canonical : number < 2 ^ 35 ∨ 2 ^ 52 - 2 ^ 35 ≤ number ∧ number < 2 ^ 52
deriving DecidableEq

/-- The indices into the tables of level 4 to 1. -/
def Page.indices (p : Page) : List Index :=
  [Fin.ofNat 512 (p.number / 512 ^ 3), Fin.ofNat 512 (p.number / 512 ^ 2),
    Fin.ofNat 512 (p.number / 512), Fin.ofNat 512 p.number]

theorem Page.indices_ne_nil (p : Page) : p.indices ≠ [] := List.cons_ne_nil _ _

/-- Different pages have different indices: the bits above are copies of bit 47. -/
theorem Page.indices_inj {p q : Page} (h : p.indices = q.indices) : p = q := by
  obtain ⟨m, hm⟩ := p
  obtain ⟨n, hn⟩ := q
  simp only [indices, List.cons.injEq, Fin.ext_iff, Fin.ofNat, and_true] at h
  obtain ⟨h4, h3, h2, h1⟩ := h
  rw [Page.mk.injEq]
  omega

-- ---------------------------------------------------------------------------
-- The kernel's mapper
-- ---------------------------------------------------------------------------

structure Kernel where
  frames : Frame.System
  -- the frame CR3 points to
  level4 : PhysFrame
  mem    : Tables PhysFrame Index
  -- the frames that `allocate_frame` returned to `init_heap`
  given  : List PhysFrame

namespace Kernel

variable (M : Mapper PhysFrame Index)

def translate (k : Kernel) (page : Page) : Option (PhysFrame × List Index) :=
  k.mem.translate k.level4 page.indices

/-- `map_to` with the kernel's frame allocator. -/
def mapTo (k : Kernel) (page : Page) (frame : PhysFrame) : Except MapError Unit × Kernel :=
  let (result, mem, frames) :=
    M.mapTo Frame.System.allocate frame page.indices k.level4 k.mem k.frames
  (result, { k with mem, frames })

def unmap (k : Kernel) (page : Page) : Option PhysFrame × Kernel :=
  let (frame, mem) := M.unmap page.indices k.level4 k.mem
  (frame, { k with mem })

/-- `allocate_frame`, for a frame that becomes a page of the heap. -/
def allocateFrame (k : Kernel) : Option PhysFrame × Kernel :=
  match k.frames.allocate with
  | (none, frames) => (none, { k with frames })
  | (some frame, frames) => (some frame, { k with frames, given := k.given ++ [frame] })

/-- One round of the loop of `init_heap`. -/
def mapHeapPage (k : Kernel) (page : Page) : Except MapError Unit × Kernel :=
  match k.allocateFrame with
  | (none, k) => (.error .frameAllocationFailed, k)
  | (some frame, k) => k.mapTo M page frame

end Kernel

-- ---------------------------------------------------------------------------
-- The allocator as a supply of tables
-- ---------------------------------------------------------------------------

section Supply

variable (memoryMap : MemoryMap) (kernelReservedEnd : Option Nat) (a₀ : BootInfoFrameAllocator)

/-- Frames that the allocator does not hand out any more, or never does. -/
def used (s : Frame.System) : Set PhysFrame :=
  {f | f ∈ s.held ∨ ¬ Allocatable memoryMap kernelReservedEnd a₀ f}

/-- How many frames the allocator has left. -/
noncomputable def free (s : Frame.System) : Nat :=
  (allocatableFrames memoryMap kernelReservedEnd a₀ \ s.held).card

variable {memoryMap kernelReservedEnd a₀}

theorem frameSupply (hBytes : a₀.bitmapBytes ≠ 0)
    (hIdx : ∀ f, Allocatable memoryMap kernelReservedEnd a₀ f → f.number < a₀.numFrames) :
    Supply Frame.System.allocate (Frame.Inv memoryMap kernelReservedEnd a₀)
      (used memoryMap kernelReservedEnd a₀) (free memoryMap kernelReservedEnd a₀) where
  some := by
    intro s s' f hs hAlloc
    rcases hs.allocate_cases hBytes hIdx with ⟨g, hg, hOk, hFree, hHeld, hInv⟩ | ⟨hNone, -⟩
    · obtain rfl : g = f := by simpa [hAlloc] using hg.symm
      replace hHeld : s'.held = insert g s.held := by simpa [hAlloc] using hHeld
      replace hInv : Frame.Inv memoryMap kernelReservedEnd a₀ s' := by simpa [hAlloc] using hInv
      have hMem : g ∈ allocatableFrames memoryMap kernelReservedEnd a₀ \ s.held :=
        Finset.mem_sdiff.mpr ⟨(mem_allocatableFrames hIdx).mpr hOk, hFree⟩
      refine ⟨by simp [used, hFree, hOk], ?_, ?_, hInv⟩
      · ext f
        simp only [used, hHeld, Finset.mem_insert, Set.mem_ofPred_eq, Set.mem_insert_iff, or_assoc]
      · rw [free, free, hHeld, Finset.sdiff_insert, Finset.card_erase_of_mem hMem]
        have := Finset.card_pos.mpr ⟨g, hMem⟩
        omega
    · rw [hAlloc] at hNone
      exact absurd (congrArg Prod.fst hNone) (by simp)
  none := by
    intro s s' hs hAlloc
    rcases hs.allocate_cases hBytes hIdx with ⟨g, hg, -⟩ | ⟨hNone, hAll⟩
    · rw [hAlloc] at hg
      exact absurd hg (by simp)
    · obtain rfl : s = s' := (congrArg Prod.snd (hAlloc.symm.trans hNone)).symm
      refine ⟨rfl, ?_, hs⟩
      rw [free, Finset.card_eq_zero, Finset.sdiff_eq_empty_iff_subset]
      exact fun f hf => hAll f ((mem_allocatableFrames hIdx).mp hf)

end Supply

-- ---------------------------------------------------------------------------
-- The invariant
-- ---------------------------------------------------------------------------

/-- The tables form a tree of used frames, and the frames given to the heap are used,
different from each other and none of the tables. -/
structure Inv (memoryMap : MemoryMap) (kernelReservedEnd : Option Nat)
    (a₀ : BootInfoFrameAllocator) (k : Kernel) : Prop where
  frames : Frame.Inv memoryMap kernelReservedEnd a₀ k.frames
  tree   : k.mem.Tree k.level4 4
  nodes  : ∀ g, k.mem.IsNode k.level4 4 g → g ∈ used memoryMap kernelReservedEnd a₀ k.frames
  given  : ∀ f ∈ k.given, f ∈ used memoryMap kernelReservedEnd a₀ k.frames ∧
    ¬ k.mem.IsNode k.level4 4 f
  nodup  : k.given.Nodup

section Steps

variable {M : Mapper PhysFrame Index} (hM : M.Lawful) {memoryMap : MemoryMap}
  {kernelReservedEnd : Option Nat} {a₀ : BootInfoFrameAllocator} {k : Kernel}
  (hBytes : a₀.bitmapBytes ≠ 0)
  (hIdx : ∀ f, Allocatable memoryMap kernelReservedEnd a₀ f → f.number < a₀.numFrames)

/-- A change of the tables by a call that took its new tables from the allocator. -/
theorem Inv.of_changed (h : Inv memoryMap kernelReservedEnd a₀ k) {page : Page}
    {new : Option (PhysFrame × List Index)} {mem : Tables PhysFrame Index} {frames : Frame.System}
    (hFrames : Frame.Inv memoryMap kernelReservedEnd a₀ frames)
    (hChanged : Changed (used memoryMap kernelReservedEnd a₀ k.frames)
      (used memoryMap kernelReservedEnd a₀ frames) page.indices new k.level4 k.mem mem) :
    Inv memoryMap kernelReservedEnd a₀ { k with mem, frames } where
  frames := hFrames
  tree := hChanged.tree
  nodes := fun g hg => (hChanged.nodes g hg).1
  given := by
    intro f hf
    obtain ⟨hUsed, hNot⟩ := h.given f hf
    refine ⟨hChanged.grows hUsed, fun hNode => ?_⟩
    exact (hChanged.nodes f hNode).2.elim hNot fun hNew => hNew hUsed
  nodup := h.nodup

include hM hBytes hIdx in
/-- **`map_to`** maps its page, or fails for the reason the tables and the allocator
give; no other page is affected. -/
theorem Inv.mapTo (h : Inv memoryMap kernelReservedEnd a₀ k) (page : Page) (frame : PhysFrame) :
    Inv memoryMap kernelReservedEnd a₀ (k.mapTo M page frame).2 ∧
      used memoryMap kernelReservedEnd a₀ k.frames ⊆
        used memoryMap kernelReservedEnd a₀ (k.mapTo M page frame).2.frames ∧
      (k.mapTo M page frame).1 = k.mem.outcome k.level4 page.indices
        (free memoryMap kernelReservedEnd a₀ k.frames) ∧
      (∀ q, (k.mapTo M page frame).2.translate q =
        if (k.mapTo M page frame).1 = .ok () ∧ q = page then some (frame, []) else k.translate q) ∧
      ((k.mapTo M page frame).1 = .ok () → free memoryMap kernelReservedEnd a₀ k.frames =
        free memoryMap kernelReservedEnd a₀ (k.mapTo M page frame).2.frames +
          k.mem.missing k.level4 page.indices) := by
  have hMapped := hM.mapTo (frameSupply hBytes hIdx) frame page.indices_ne_nil h.frames h.tree
    h.nodes
  refine ⟨h.of_changed hMapped.inv hMapped.changed, hMapped.changed.grows, hMapped.result, ?_,
    hMapped.spent⟩
  intro q
  by_cases hq : q = page
  · subst hq
    simp only [and_true]
    exact hMapped.changed.at_path
  · rw [if_neg fun hAnd => hq hAnd.2]
    exact hMapped.changed.elsewhere q.indices rfl fun hEq => hq (Page.indices_inj hEq)

include hM in
/-- **`unmap`** removes the translation of its page if that is a frame of its own. -/
theorem Inv.unmap (h : Inv memoryMap kernelReservedEnd a₀ k) (page : Page) :
    Inv memoryMap kernelReservedEnd a₀ (k.unmap M page).2 ∧
      (∀ frame, (k.unmap M page).1 = some frame → k.translate page = some (frame, [])) ∧
      ∀ q, (k.unmap M page).2.translate q =
        if (k.unmap M page).1.isSome ∧ q = page then none else k.translate q := by
  obtain ⟨hResult, hChanged⟩ := hM.unmap page.indices_ne_nil h.tree h.nodes
  refine ⟨h.of_changed h.frames hChanged, fun frame hSome => ?_, fun q => ?_⟩
  · exact translate_of_walk (hResult.symm.trans hSome)
  by_cases hq : q = page
  · subst hq
    simp only [and_true]
    rw [show (k.unmap M q).1 = _ from hResult]
    exact hChanged.at_path
  · rw [if_neg fun hAnd => hq hAnd.2]
    exact hChanged.elsewhere q.indices rfl fun hEq => hq (Page.indices_inj hEq)

include hBytes hIdx in
/-- **`allocate_frame`** gives a frame that is not in use, as long as there is one. -/
theorem Inv.allocateFrame (h : Inv memoryMap kernelReservedEnd a₀ k) :
    Inv memoryMap kernelReservedEnd a₀ k.allocateFrame.2 ∧
      k.allocateFrame.2.mem = k.mem ∧ k.allocateFrame.2.level4 = k.level4 ∧
      used memoryMap kernelReservedEnd a₀ k.frames ⊆
        used memoryMap kernelReservedEnd a₀ k.allocateFrame.2.frames ∧
      ((∃ f, k.allocateFrame.1 = some f ∧ f ∉ used memoryMap kernelReservedEnd a₀ k.frames ∧
          k.allocateFrame.2.given = k.given ++ [f] ∧
          free memoryMap kernelReservedEnd a₀ k.frames =
            free memoryMap kernelReservedEnd a₀ k.allocateFrame.2.frames + 1) ∨
        (k.allocateFrame.1 = none ∧ k.allocateFrame.2.given = k.given ∧
          free memoryMap kernelReservedEnd a₀ k.frames = 0)) := by
  have hSupply := frameSupply hBytes hIdx
  rcases hAlloc : k.frames.allocate with ⟨_ | f, frames⟩
  · obtain ⟨hUsed, hFree, hFrames⟩ := hSupply.none h.frames hAlloc
    have hEq : k.allocateFrame = (none, { k with frames }) := by
      rw [Kernel.allocateFrame, hAlloc]
    rw [hEq]
    refine ⟨⟨hFrames, h.tree, ?_, ?_, h.nodup⟩, rfl, rfl, hUsed.ge, .inr ⟨rfl, rfl, hFree⟩⟩
    · exact fun g hg => hUsed ▸ h.nodes g hg
    · exact fun f hf => hUsed ▸ h.given f hf
  · obtain ⟨hNew, hUsed, hFree, hFrames⟩ := hSupply.some h.frames hAlloc
    have hEq : k.allocateFrame = (some f, { k with frames, given := k.given ++ [f] }) := by
      rw [Kernel.allocateFrame, hAlloc]
    rw [hEq]
    refine ⟨⟨hFrames, h.tree, ?_, ?_, ?_⟩, rfl, rfl, hUsed ▸ Set.subset_insert f _,
      .inl ⟨f, rfl, hNew, rfl, hFree⟩⟩
    · exact fun g hg => hUsed ▸ Set.mem_insert_of_mem f (h.nodes g hg)
    · intro g hg
      show g ∈ used memoryMap kernelReservedEnd a₀ frames ∧ _
      rw [hUsed]
      rcases List.mem_append.mp hg with hOld | hLast
      · exact ⟨Set.mem_insert_of_mem f (h.given g hOld).1, (h.given g hOld).2⟩
      · obtain rfl := List.mem_singleton.mp hLast
        exact ⟨Set.mem_insert g _, fun hNode => hNew (h.nodes g hNode)⟩
    · refine List.nodup_append.mpr ⟨h.nodup, List.nodup_singleton f, ?_⟩
      rintro g hg g' hg' rfl
      obtain rfl := List.mem_singleton.mp hg'
      exact hNew (h.given g hg).1

end Steps

-- ---------------------------------------------------------------------------
-- Whole runs
-- ---------------------------------------------------------------------------

/-- The calls that change the tables. -/
inductive Op where
  -- a round of `init_heap`
  | mapHeapPage (page : Page)
  -- device memory of the VBE driver or the timer
  | mapTo (page : Page) (frame : PhysFrame)
  | unmap (page : Page)
deriving DecidableEq

/-- A call may fail; the tables it has put in stay. -/
def step (M : Mapper PhysFrame Index) (k : Kernel) : Op → Option Kernel
  | .mapHeapPage page => some (k.mapHeapPage M page).2
  | .mapTo page frame => some (k.mapTo M page frame).2
  | .unmap page => some (k.unmap M page).2

/-- Address translation as a map from pages to frames. The part of a path inside a huge
frame is kept. -/
abbrev Translation := Page → Option (PhysFrame × List Index)

inductive Effect where
  | mapped (page : Page) (frame : PhysFrame)
  | unmapped (page : Page)
deriving DecidableEq

/-- A page without a translation gets one; a page with a frame of its own loses it. -/
def Effect.apply (tr : Translation) : Effect → Option Translation
  | mapped page frame =>
    match tr page with
    | none => some (Function.update tr page (some (frame, [])))
    | some _ => none
  | unmapped page =>
    match tr page with
    | some (_, []) => some (Function.update tr page none)
    | _ => none

/-- What a call that succeeds does. -/
def commit (M : Mapper PhysFrame Index) (k : Kernel) : Op → Option Effect
  | .mapHeapPage page =>
    match k.allocateFrame with
    | (some frame, k) =>
      if (k.mapTo M page frame).1 = .ok () then some (.mapped page frame) else none
    | (none, _) => none
  | .mapTo page frame =>
    if (k.mapTo M page frame).1 = .ok () then some (.mapped page frame) else none
  | .unmap page => (k.unmap M page).1.map fun _ => .unmapped page

section Runs

variable {M : Mapper PhysFrame Index} (hM : M.Lawful) {memoryMap : MemoryMap}
  {kernelReservedEnd : Option Nat} {a₀ : BootInfoFrameAllocator} {k : Kernel}
  (hBytes : a₀.bitmapBytes ≠ 0)
  (hIdx : ∀ f, Allocatable memoryMap kernelReservedEnd a₀ f → f.number < a₀.numFrames)

/-- The tables mean the translation `tr`. -/
def Means (memoryMap : MemoryMap) (kernelReservedEnd : Option Nat) (a₀ : BootInfoFrameAllocator)
    (k : Kernel) (tr : Translation) : Prop :=
  Inv memoryMap kernelReservedEnd a₀ k ∧ k.translate = tr

include hM hBytes hIdx in
theorem Means.mapTo {tr : Translation} (h : Means memoryMap kernelReservedEnd a₀ k tr)
    (page : Page) (frame : PhysFrame) :
    if (k.mapTo M page frame).1 = .ok () then
      ∃ tr', (Effect.mapped page frame).apply tr = some tr' ∧
        Means memoryMap kernelReservedEnd a₀ (k.mapTo M page frame).2 tr'
    else Means memoryMap kernelReservedEnd a₀ (k.mapTo M page frame).2 tr := by
  obtain ⟨hInv, rfl⟩ := h
  obtain ⟨hInv', -, hResult, hTranslate, -⟩ := hInv.mapTo hM hBytes hIdx page frame
  split_ifs with hOk
  · have hNone : k.translate page = none := translate_of_outcome_ok (hResult.symm.trans hOk)
    refine ⟨Function.update k.translate page (some (frame, [])), by rw [Effect.apply, hNone],
      hInv', funext fun q => ?_⟩
    rw [hTranslate q, Function.update_apply]
    simp only [hOk, true_and]
  · refine ⟨hInv', funext fun q => ?_⟩
    rw [hTranslate q, if_neg fun hAnd => hOk hAnd.1]

include hM hBytes hIdx in
/-- **The tables implement the translation.** Every call that succeeds changes one page,
as the map does; every call that fails changes none. -/
theorem simulation :
    Simulation (step M) Effect.apply (commit M) (Means memoryMap kernelReservedEnd a₀) where
  stutters := by
    intro k k' tr op h hStep hNone
    cases op with
    | mapHeapPage page =>
      obtain ⟨hInv, rfl⟩ := h
      obtain ⟨hInv₁, hMem, hRoot, -⟩ := hInv.allocateFrame hBytes hIdx
      have hSame : k.allocateFrame.2.translate = k.translate := by
        funext q
        rw [Kernel.translate, Kernel.translate, hMem, hRoot]
      simp only [step, Kernel.mapHeapPage, Option.some.injEq] at hStep
      rcases hAlloc : k.allocateFrame with ⟨_ | frame, k₁⟩
      · simp only [hAlloc] at hStep hInv₁ hSame
        exact hStep ▸ ⟨hInv₁, hSame⟩
      · simp only [hAlloc] at hStep hInv₁ hSame
        have hMap := Means.mapTo hM hBytes hIdx ⟨hInv₁, hSame⟩ page frame
        simp only [commit, hAlloc] at hNone
        split_ifs at hNone hMap
        exact hStep ▸ hMap
    | mapTo page frame =>
      have hMap := h.mapTo hM hBytes hIdx page frame
      simp only [step, Option.some.injEq] at hStep
      simp only [commit] at hNone
      split_ifs at hNone hMap
      exact hStep ▸ hMap
    | unmap page =>
      obtain ⟨hInv, rfl⟩ := h
      obtain ⟨hInv', -, hTranslate⟩ := hInv.unmap hM page
      simp only [step, Option.some.injEq] at hStep
      simp only [commit, Option.map_eq_none_iff] at hNone
      refine hStep ▸ ⟨hInv', funext fun q => ?_⟩
      rw [hTranslate q, hNone]
      simp
  commits := by
    intro k k' tr op e h hStep hSome
    cases op with
    | mapHeapPage page =>
      obtain ⟨hInv, rfl⟩ := h
      obtain ⟨hInv₁, hMem, hRoot, -⟩ := hInv.allocateFrame hBytes hIdx
      have hSame : k.allocateFrame.2.translate = k.translate := by
        funext q
        rw [Kernel.translate, Kernel.translate, hMem, hRoot]
      simp only [step, Kernel.mapHeapPage, Option.some.injEq] at hStep
      rcases hAlloc : k.allocateFrame with ⟨_ | frame, k₁⟩
      · simp [commit, hAlloc] at hSome
      · simp only [hAlloc] at hStep hInv₁ hSame
        have hMap := Means.mapTo hM hBytes hIdx ⟨hInv₁, hSame⟩ page frame
        simp only [commit, hAlloc] at hSome
        split_ifs at hSome hMap
        obtain rfl := Option.some.inj hSome
        exact hStep ▸ hMap
    | mapTo page frame =>
      have hMap := h.mapTo hM hBytes hIdx page frame
      simp only [step, Option.some.injEq] at hStep
      simp only [commit] at hSome
      split_ifs at hSome hMap
      obtain rfl := Option.some.inj hSome
      exact hStep ▸ hMap
    | unmap page =>
      obtain ⟨hInv, rfl⟩ := h
      obtain ⟨hInv', hWas, hTranslate⟩ := hInv.unmap hM page
      simp only [step, Option.some.injEq] at hStep
      simp only [commit, Option.map_eq_some_iff] at hSome
      obtain ⟨frame, hFrame, rfl⟩ := hSome
      refine ⟨Function.update k.translate page none, by rw [Effect.apply, hWas frame hFrame],
        hStep ▸ ⟨hInv', funext fun q => ?_⟩⟩
      rw [hTranslate q, hFrame, Function.update_apply]
      simp

end Runs

/-- The tables as the bootloader leaves them: a tree of frames outside the memory that
the allocator manages. -/
structure BootTables (memoryMap : MemoryMap) (kernelReservedEnd : Option Nat)
    (a₀ : BootInfoFrameAllocator) (level4 : PhysFrame) (mem : Tables PhysFrame Index) : Prop where
  tree    : mem.Tree level4 4
  outside : ∀ g, mem.IsNode level4 4 g → ¬ Allocatable memoryMap kernelReservedEnd a₀ g

/-- After `memory::init` and `BootInfoFrameAllocator::init`. -/
def Kernel.boot (memoryMap : MemoryMap) (kernelReservedEnd : Option Nat) (bitmap : Bitmap)
    (level4 : PhysFrame) (mem : Tables PhysFrame Index) : Kernel :=
  ⟨Frame.System.boot memoryMap kernelReservedEnd bitmap, level4, mem, []⟩

section Boot

variable {M : Mapper PhysFrame Index} {memoryMap : MemoryMap} {kernelReservedEnd : Option Nat}
  {bitmap : Bitmap} {level4 : PhysFrame} {mem : Tables PhysFrame Index}

theorem Inv.boot (hk : NoWrap kernelReservedEnd)
    (hBuilt : (BootInfoFrameAllocator.init memoryMap kernelReservedEnd bitmap).bitmapBytes ≠ 0)
    (hBoot : BootTables memoryMap kernelReservedEnd
      (BootInfoFrameAllocator.init memoryMap kernelReservedEnd bitmap) level4 mem) :
    Inv memoryMap kernelReservedEnd
      (BootInfoFrameAllocator.init memoryMap kernelReservedEnd bitmap)
      (Kernel.boot memoryMap kernelReservedEnd bitmap level4 mem) where
  frames := Frame.Inv.boot hk (BootInfoFrameAllocator.init_built hBuilt)
  tree := hBoot.tree
  nodes := fun g hg => .inr (hBoot.outside g hg)
  given := by simp [Kernel.boot]
  nodup := List.nodup_nil

end Boot

/-- Frames 3 to 49 usable, everything else unknown. -/
def lowMap : MemoryMap := [⟨3, 50, .usable, by decide, by decide⟩]

/-- Nothing is mapped. -/
def noTables : Tables PhysFrame Index := fun _ _ => .unused

theorem bootTables_noTables :
    BootTables lowMap none (BootInfoFrameAllocator.init lowMap none fun _ => 0) ⟨0⟩ noTables where
  tree := tree_of_unused fun _ => rfl
  outside := by
    intro g hg hAlloc
    obtain rfl : g = ⟨0⟩ := isNode_of_unused (fun _ => rfl) hg
    obtain ⟨r, hr, -, hLow, -⟩ := hAlloc.usable
    obtain rfl := List.mem_singleton.mp hr
    exact absurd hLow (by decide)

def lowBoot : Kernel := Kernel.boot lowMap none (fun _ => 0) ⟨0⟩ noTables

/-- A page of the heap and the text buffer at 0xB8000, mapped and unmapped again. -/
def mapAndUnmap : List Op :=
  [.mapHeapPage ⟨0x444444440, by decide⟩, .mapTo ⟨0x10, by decide⟩ ⟨0xB8⟩,
    .unmap ⟨0x10, by decide⟩]

end Neutrix.Paging
