import Neutrix.Memory.Paging

/-!
# Neutrix — setting up the heap

Model of `init_heap` of `src/memory/allocator.rs` as `kernel_main` calls it,
with the `kernel_reserved_end` that `src/main.rs` computes from its own
address. The loop takes a frame for each of the 25 pages of the heap and maps
it; the first page also needs the tables that are missing on its path, and
the allocator has to supply both. `initHeap_spec` says exactly when this
succeeds and what it leaves behind. The mapper is any that keeps its contract,
as in `Neutrix.Memory.Paging`.

Handing the range to the heap allocator is left out.
-/

namespace Neutrix.Paging

open Neutrix.Lib Neutrix.Lib.Tables
open Neutrix.Frame (MemoryMap PhysFrame BootInfoFrameAllocator Allocatable NoWrap add64 maskPage)

-- ---------------------------------------------------------------------------
-- `init_heap`
-- ---------------------------------------------------------------------------

def heapStart : Nat := 0x444444440000
def heapSize : Nat := 100 * 1024

/-- From the page of `heap_start` to the page of `heap_end`. -/
def heapPageCount : Nat := (heapStart + heapSize - 1) / 0x1000 + 1 - heapStart / 0x1000

theorem heapPage_lt (i : Fin heapPageCount) : heapStart / 0x1000 + i.val < 2 ^ 35 := by
  have hi := i.isLt
  simp only [heapPageCount, heapStart, heapSize] at hi ⊢
  omega

def heapPages : List Page :=
  (List.finRange heapPageCount).map fun i => ⟨heapStart / 0x1000 + i.val, .inl (heapPage_lt i)⟩

def mapHeapPages (M : Mapper PhysFrame Index) :
    List Page → Kernel → Except MapError Unit × Kernel
  | [], k => (.ok (), k)
  | page :: pages, k =>
    match k.mapHeapPage M page with
    | (.error e, k) => (.error e, k)
    | (.ok _, k) => mapHeapPages M pages k

def initHeap (M : Mapper PhysFrame Index) (k : Kernel) : Except MapError Unit × Kernel :=
  mapHeapPages M heapPages k

/-- `kernel_reserved_end` in `kernel_main`: the page of `kernel_main` and 1 MiB after it. -/
def kernelReservedEnd (fnVirt physOffset : Nat) : Option Nat :=
  if fnVirt ≤ physOffset then none
  else some (add64 (maskPage (fnVirt - physOffset)) (1024 * 1024))

/-- The end is a page boundary, so rounding it up does not wrap. -/
theorem noWrap_kernelReservedEnd (fnVirt physOffset : Nat) :
    NoWrap (kernelReservedEnd fnVirt physOffset) := by
  intro kend h
  unfold kernelReservedEnd at h
  split_ifs at h
  obtain rfl := Option.some.inj h
  unfold add64 maskPage
  omega

-- ---------------------------------------------------------------------------
-- One round
-- ---------------------------------------------------------------------------

section Rounds

variable {M : Mapper PhysFrame Index} (hM : M.Lawful) {memoryMap : MemoryMap} {kend : Option Nat}
  {a₀ : BootInfoFrameAllocator} {k : Kernel} (hBytes : a₀.bitmapBytes ≠ 0)
  (hIdx : ∀ f, Allocatable memoryMap kend a₀ f → f.number < a₀.numFrames)

/-- What a round leaves behind that succeeds: `page` has a frame of its own that was not
in use, and the frames are spent on it and on the missing tables. -/
structure HeapPage (memoryMap : MemoryMap) (kend : Option Nat) (a₀ : BootInfoFrameAllocator)
    (k : Kernel) (page : Page) (k' : Kernel) (f : PhysFrame) : Prop where
  inv       : Inv memoryMap kend a₀ k'
  grows     : used memoryMap kend a₀ k.frames ⊆ used memoryMap kend a₀ k'.frames
  fresh     : f ∉ used memoryMap kend a₀ k.frames
  given     : k'.given = k.given ++ [f]
  translate : ∀ q, k'.translate q = if q = page then some (f, []) else k.translate q
  spent     : free memoryMap kend a₀ k.frames =
    free memoryMap kend a₀ k'.frames + 1 + k.mem.missing k.level4 page.indices

include hM hBytes hIdx in
/-- **One round of `init_heap`** for a page without a translation: it succeeds exactly if
there is a frame for the page and for each missing table. -/
theorem Inv.mapHeapPage (h : Inv memoryMap kend a₀ k) {page : Page}
    (hNone : k.translate page = none) :
    if 1 + k.mem.missing k.level4 page.indices ≤ free memoryMap kend a₀ k.frames then
      (k.mapHeapPage M page).1 = .ok () ∧
        ∃ f, HeapPage memoryMap kend a₀ k page (k.mapHeapPage M page).2 f
    else (k.mapHeapPage M page).1 = .error .frameAllocationFailed := by
  obtain ⟨hInv₁, hMem, hRoot, hGrows₁, hCase⟩ := h.allocateFrame hBytes hIdx
  rcases hCase with ⟨f, hSome, hFresh, hGiven, hFree⟩ | ⟨hEmpty, -, hFree⟩
  · -- the frame for the page, then the tables
    rcases hAlloc : k.allocateFrame with ⟨r, k₁⟩
    simp only [hAlloc] at hInv₁ hMem hRoot hGrows₁ hSome hGiven hFree
    subst hSome
    have hEq : k.mapHeapPage M page = k₁.mapTo M page f := by rw [Kernel.mapHeapPage, hAlloc]
    have hNone₁ : k₁.mem.translate k₁.level4 page.indices = none := by
      rw [hMem, hRoot]
      exact hNone
    obtain ⟨hInv, hGrows, hResult, hTranslate, hSpent⟩ := hInv₁.mapTo hM hBytes hIdx page f
    rw [outcome_of_none hNone₁, hMem, hRoot] at hResult
    rw [hMem, hRoot] at hSpent
    have hGiven' : (k₁.mapTo M page f).2.given = k₁.given := rfl
    rw [hEq]
    split_ifs with hEnough
    · rw [if_pos (by omega)] at hResult
      refine ⟨hResult, f, hInv, hGrows₁.trans hGrows, hFresh, by rw [hGiven', hGiven], ?_, ?_⟩
      · intro q
        rw [hTranslate q]
        simp only [hResult, true_and]
        rw [Kernel.translate, Kernel.translate, hMem, hRoot]
      · have := hSpent hResult
        omega
    · rw [if_neg (by omega)] at hResult
      exact hResult
  · rw [if_neg (by omega)]
    rcases hAlloc : k.allocateFrame with ⟨r, k₁⟩
    obtain rfl : r = none := by simpa [hAlloc] using hEmpty
    rw [Kernel.mapHeapPage, hAlloc]

-- ---------------------------------------------------------------------------
-- The loop
-- ---------------------------------------------------------------------------

/-- The frames the loop needs: one for each page, and the tables of the first. -/
def needed (k : Kernel) : List Page → Nat
  | [] => 0
  | page :: pages => pages.length + 1 + k.mem.missing k.level4 page.indices

/-- What the loop leaves behind that succeeds. -/
structure HeapPages (memoryMap : MemoryMap) (kend : Option Nat) (a₀ : BootInfoFrameAllocator)
    (k : Kernel) (pages : List Page) (k' : Kernel) (fs : List PhysFrame) : Prop where
  inv       : Inv memoryMap kend a₀ k'
  fresh     : ∀ f ∈ fs, f ∉ used memoryMap kend a₀ k.frames
  given     : k'.given = k.given ++ fs
  mapped    : pages.map k'.translate = fs.map fun f => some (f, [])
  elsewhere : ∀ q, q ∉ pages → k'.translate q = k.translate q
  spent     : free memoryMap kend a₀ k.frames = free memoryMap kend a₀ k'.frames + needed k pages

include hM hBytes hIdx in
/-- **The loop**, over pages of one last-level table that have no translation. -/
theorem Inv.mapHeapPages {dir : List Index} (h : Inv memoryMap kend a₀ k) {pages : List Page}
    (hDir : ∀ page ∈ pages, ∃ i, page.indices = dir ++ [i]) (hNodup : pages.Nodup)
    (hNone : ∀ page ∈ pages, k.translate page = none) :
    if needed k pages ≤ free memoryMap kend a₀ k.frames then
      (mapHeapPages M pages k).1 = .ok () ∧
        ∃ fs, HeapPages memoryMap kend a₀ k pages (mapHeapPages M pages k).2 fs
    else (mapHeapPages M pages k).1 = .error .frameAllocationFailed := by
  induction pages generalizing k with
  | nil =>
    rw [needed, if_pos (Nat.zero_le _)]
    exact ⟨rfl, [], h, by simp, by simp [mapHeapPages], rfl, fun _ _ => rfl, rfl⟩
  | cons page pages ih =>
    obtain ⟨hNotIn, hRest⟩ := List.nodup_cons.mp hNodup
    have hRound := h.mapHeapPage hM hBytes hIdx (hNone page List.mem_cons_self)
    rcases hPage : k.mapHeapPage M page with ⟨r, k₁⟩
    simp only [hPage] at hRound
    by_cases hFirst : 1 + k.mem.missing k.level4 page.indices ≤ free memoryMap kend a₀ k.frames
    · rw [if_pos hFirst] at hRound
      obtain ⟨rfl, f, hOne⟩ := hRound
      have hEq : mapHeapPages M (page :: pages) k = mapHeapPages M pages k₁ := by
        rw [mapHeapPages, hPage]
      -- the tables are there now
      have hNeeded : needed k₁ pages = pages.length := by
        cases pages with
        | nil => rfl
        | cons q rest =>
          obtain ⟨i, hi⟩ := hDir page List.mem_cons_self
          obtain ⟨j, hj⟩ := hDir q (by simp)
          have hAt : k₁.mem.translate k₁.level4 (dir ++ [i]) = some (f, []) := by
            rw [← hi]
            exact (hOne.translate page).trans (if_pos rfl)
          rw [needed, hj, missing_of_translate hAt, List.length_cons]
      have hNone₁ : ∀ q ∈ pages, k₁.translate q = none := by
        intro q hq
        have hne : q ≠ page := fun hEq => hNotIn (hEq ▸ hq)
        rw [hOne.translate q, if_neg hne]
        exact hNone q (List.mem_cons_of_mem page hq)
      have hLoop := ih hOne.inv (fun q hq => hDir q (List.mem_cons_of_mem page hq)) hRest hNone₁
      have hSpent := hOne.spent
      rw [hNeeded] at hLoop
      rw [hEq, needed]
      split_ifs with hAll
      · rw [if_pos (by omega)] at hLoop
        obtain ⟨hOk, fs, hMany⟩ := hLoop
        refine ⟨hOk, f :: fs, hMany.inv, ?_, ?_, ?_, ?_, ?_⟩
        · intro g hg
          rcases List.mem_cons.mp hg with rfl | hg
          · exact hOne.fresh
          · exact fun hUsed => hMany.fresh g hg (hOne.grows hUsed)
        · rw [hMany.given, hOne.given, List.append_assoc]
          rfl
        · rw [List.map_cons, List.map_cons, hMany.mapped, hMany.elsewhere page hNotIn,
            hOne.translate page, if_pos rfl]
        · intro q hq
          have hne : q ≠ page := fun hEq => hq (hEq ▸ List.mem_cons_self)
          rw [hMany.elsewhere q fun hIn => hq (List.mem_cons_of_mem page hIn), hOne.translate q,
            if_neg hne]
        · have := hMany.spent
          rw [hNeeded] at this
          rw [needed]
          omega
      · rw [if_neg (by omega)] at hLoop
        exact hLoop
    · rw [if_neg hFirst] at hRound
      subst hRound
      rw [if_neg (by rw [needed]; omega), mapHeapPages, hPage]

end Rounds

-- ---------------------------------------------------------------------------
-- The heap of the kernel
-- ---------------------------------------------------------------------------

/-- The page of `heap_start`. -/
def heapStartPage : Page := ⟨heapStart / 0x1000, .inl (by decide)⟩

/-- The entries on the way to the last-level table of the heap. -/
def heapDir : List Index := heapStartPage.indices.dropLast

/-- The heap does not cross the range of one last-level table. -/
theorem heapPages_indices : ∀ page ∈ heapPages, ∃ i, page.indices = heapDir ++ [i] := by
  intro page hPage
  obtain ⟨i, -, rfl⟩ := List.mem_map.mp hPage
  refine ⟨Fin.ofNat 512 (heapStart / 0x1000 + i.val), ?_⟩
  have hi := i.isLt
  simp only [heapPageCount, heapStart, heapSize] at hi
  simp only [Page.indices, heapDir, heapStartPage, heapStart, List.dropLast_cons_cons,
    List.dropLast_singleton, List.cons_append, List.nil_append, List.cons.injEq, Fin.ext_iff,
    Fin.ofNat, and_true]
  omega

theorem heapPages_nodup : heapPages.Nodup := by
  refine (List.nodup_finRange _).map fun i j hEq => ?_
  rw [Page.mk.injEq] at hEq
  exact Fin.ext (by omega)

theorem heapPages_eq_cons : ∃ pages, heapPages = heapStartPage :: pages ∧ pages.length = 24 := by
  have hCount : heapPageCount = 24 + 1 := rfl
  refine ⟨heapPages.tail, ?_, ?_⟩
  · rfl
  · rw [List.length_tail, heapPages, List.length_map, List.length_finRange, hCount]

section Boot

variable {M : Mapper PhysFrame Index} {memoryMap : MemoryMap} {fnVirt physOffset : Nat}
  {bitmap : Bitmap} {level4 : PhysFrame} {mem : Tables PhysFrame Index}

end Boot

end Neutrix.Paging
