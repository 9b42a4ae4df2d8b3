import Mathlib.Data.Finset.Basic
import Neutrix.Lib.Bitmap
import Neutrix.Lib.Run

/-!
# Neutrix — the physical frame allocator

Model of `src/memory/frame.rs`: `BootInfoFrameAllocator` keeps one bit per
physical 4 KiB frame (`1` = used) in a bitmap that `init` places inside
the memory it manages.

* Addresses and frame numbers are `Nat`; `add64` is `+` on `u64` in the
  release image, where it wraps. Only additions that take an unchecked
  caller value (`kernel_reserved_end`) or a region bound can wrap, so these
  go through `add64`; `usize` counters bounded by `num_frames` are plain.
* The bitmap bytes at `phys_offset + bitmap_phys_start` belong to the
  allocator, so they are part of its state, indexed by their offset.
* A `for`/`break` or `while` search is a recursion over what is left to
  search.
-/

namespace Neutrix.Frame

open Neutrix.Lib

/-- `a + b` on `u64`, release build. -/
def add64 (a b : Nat) : Nat := (a + b) % 2 ^ 64

/-- `a & !0xFFF` on `u64`. -/
def maskPage (a : Nat) : Nat := a / 0x1000 * 0x1000

/-- `(a + 0xFFF) & !0xFFF` on `u64`. -/
def alignUp (a : Nat) : Nat := maskPage (add64 a 0xFFF)

-- ---------------------------------------------------------------------------
-- The memory map
-- ---------------------------------------------------------------------------

/-- Region types of the boot memory map; the allocator only asks whether a
region is `Usable`. -/
inductive MemoryRegionType
  | usable
  | other
deriving DecidableEq, Repr

/-- A region of the boot memory map. The bootloader stores frame numbers, so
both bounds are frame-aligned, and it maps all of physical memory through
the `x86_64` crate's `PhysAddr`, so both lie in the 52-bit physical address
space. -/
structure MemoryRegion where
  startFrameNumber : Nat
  endFrameNumber   : Nat
  regionType       : MemoryRegionType
  start_lt : startFrameNumber < 2 ^ 40
  end_lt   : endFrameNumber < 2 ^ 40
deriving DecidableEq

abbrev MemoryMap := List MemoryRegion

namespace MemoryRegion

def startAddr (r : MemoryRegion) : Nat := r.startFrameNumber * 0x1000
def endAddr (r : MemoryRegion) : Nat := r.endFrameNumber * 0x1000

end MemoryRegion

/-- A 4 KiB physical frame. It is stored by number, so its start address is
page-aligned by construction. -/
structure PhysFrame where
  number : Nat
deriving DecidableEq, Repr

namespace PhysFrame

def startAddress (f : PhysFrame) : Nat := f.number * 0x1000

/-- `PhysFrame::containing_address`. -/
def containingAddress (addr : Nat) : PhysFrame := ⟨addr / 0x1000⟩

end PhysFrame

-- ---------------------------------------------------------------------------
-- Allocator state
-- ---------------------------------------------------------------------------

structure BootInfoFrameAllocator where
  bitmapPhysStart : Nat
  bitmapBytes     : Nat
  numFrames       : Nat
  nextSearch      : Nat
  bitmap          : Bitmap

namespace BootInfoFrameAllocator

-- ---------------------------------------------------------------------------
-- `init`
-- ---------------------------------------------------------------------------

/-- Highest end address among the usable regions (0 when there is none). -/
def maxUsableAddr (memoryMap : MemoryMap) : Nat :=
  memoryMap.foldl (fun maxAddr region =>
    if region.regionType = .usable then
      if region.endAddr > maxAddr then region.endAddr else maxAddr
    else maxAddr) 0

/-- Where a region may start to hold the bitmap once `kernel_reserved_end` is
respected; `none` models the `continue` for regions below it. -/
def startAboveKernel (kernelReservedEnd : Option Nat) (region : MemoryRegion) : Option Nat :=
  match kernelReservedEnd with
  | none => some region.startAddr
  | some kend =>
    if region.endAddr ≤ kend then none
    else if region.startAddr < kend then some (alignUp kend)
    else some region.startAddr

/-- First placement pass: the first usable region above the kernel in which
the bitmap fits. `0` means that none was found. -/
def placeAboveKernel (kernelReservedEnd : Option Nat) (bitmapBytes : Nat) :
    MemoryMap → Nat
  | [] => 0
  | region :: rest =>
    if region.regionType ≠ .usable then placeAboveKernel kernelReservedEnd bitmapBytes rest
    else
      match startAboveKernel kernelReservedEnd region with
      | none => placeAboveKernel kernelReservedEnd bitmapBytes rest
      | some start =>
        let aligned := alignUp start
        if add64 aligned bitmapBytes ≤ region.endAddr then aligned
        else placeAboveKernel kernelReservedEnd bitmapBytes rest

/-- Second placement pass, over all usable regions (may overlap the kernel). -/
def placeAnywhere (bitmapBytes : Nat) : MemoryMap → Nat
  | [] => 0
  | region :: rest =>
    if region.regionType ≠ .usable then placeAnywhere bitmapBytes rest
    else
      let aligned := alignUp region.startAddr
      if add64 aligned bitmapBytes ≤ region.endAddr then aligned
      else placeAnywhere bitmapBytes rest

/-- Both passes: the second runs when the first left `bitmap_phys_start` 0. -/
def placeBitmap (memoryMap : MemoryMap) (kernelReservedEnd : Option Nat)
    (bitmapBytes : Nat) : Nat :=
  let first := placeAboveKernel kernelReservedEnd bitmapBytes memoryMap
  if first = 0 then placeAnywhere bitmapBytes memoryMap else first

/-- The closure `set_bit` of `init`. -/
def setBit (numFrames : Nat) (m : Bitmap) (idx : Nat) (val : Bool) : Bitmap :=
  if idx ≥ numFrames then m else m.writeBit idx val

/-- `for i in lo..hi { set_bit(i, val) }`. -/
def setRange (numFrames : Nat) (m : Bitmap) (lo hi : Nat) (val : Bool) : Bitmap :=
  (List.range' lo (hi - lo)).foldl (fun m i => setBit numFrames m i val) m

/-- Clear the bits of every usable region. -/
def clearUsable (numFrames : Nat) (memoryMap : MemoryMap) (m : Bitmap) : Bitmap :=
  memoryMap.foldl (fun m region =>
    if region.regionType = .usable then
      setRange numFrames m (region.startAddr / 0x1000)
        (add64 region.endAddr 0xFFF / 0x1000) false
    else m) m

/-- Set the bits of the frames below `kernel_reserved_end`, if it is given. -/
def reserveKernel (numFrames : Nat) (kernelReservedEnd : Option Nat) (m : Bitmap) : Bitmap :=
  match kernelReservedEnd with
  | none => m
  | some kend => setRange numFrames m 0 (add64 kend 0xFFF / 0x1000) true

/-- Set the bits of the frames that hold the bitmap. -/
def reserveBitmap (numFrames bitmapPhysStart bitmapBytes : Nat) (m : Bitmap) : Bitmap :=
  setRange numFrames m (bitmapPhysStart / 0x1000)
    (add64 (add64 bitmapPhysStart bitmapBytes) 0xFFF / 0x1000) true

/-- The bitmap passes of `init`, in order: all ones, clear the usable regions,
set the kernel, set the bitmap's own frames. -/
def initBitmap (memoryMap : MemoryMap) (kernelReservedEnd : Option Nat)
    (numFrames bitmapPhysStart bitmapBytes : Nat) (mem : Bitmap) : Bitmap :=
  let m := mem.fill bitmapBytes 0xFF
  let m := clearUsable numFrames memoryMap m
  let m := reserveKernel numFrames kernelReservedEnd m
  reserveBitmap numFrames bitmapPhysStart bitmapBytes m

/-- `BootInfoFrameAllocator::init`; `mem` is what the bitmap's memory holds
before the call. -/
def init (memoryMap : MemoryMap) (kernelReservedEnd : Option Nat) (mem : Bitmap) :
    BootInfoFrameAllocator :=
  let maxAddr := maxUsableAddr memoryMap
  if maxAddr = 0 then ⟨0, 0, 0, 0, mem⟩
  else
    let numFrames := add64 maxAddr 0xFFF / 0x1000
    let bitmapBytes := (numFrames + 7) / 8
    let bitmapPhysStart := placeBitmap memoryMap kernelReservedEnd bitmapBytes
    if bitmapPhysStart = 0 then ⟨0, 0, numFrames, 0, mem⟩
    else
      ⟨bitmapPhysStart, bitmapBytes, numFrames, 0,
        initBitmap memoryMap kernelReservedEnd numFrames bitmapPhysStart bitmapBytes mem⟩

-- ---------------------------------------------------------------------------
-- Run-time operations
-- ---------------------------------------------------------------------------

def freeFrame (a : BootInfoFrameAllocator) (frame : PhysFrame) : BootInfoFrameAllocator :=
  if a.bitmapBytes = 0 then a
  else { a with bitmap := a.bitmap.writeBit (frame.startAddress / 0x1000) false }

def testBit (a : BootInfoFrameAllocator) (idx : Nat) : Bool :=
  if a.bitmapBytes = 0 ∨ idx ≥ a.numFrames then true else a.bitmap.testBit idx

def setBitRuntime (a : BootInfoFrameAllocator) (idx : Nat) (val : Bool) :
    BootInfoFrameAllocator :=
  if a.bitmapBytes = 0 ∨ idx ≥ a.numFrames then a
  else { a with bitmap := a.bitmap.writeBit idx val }

/-- `while i < stop { if !test_bit(i) { .. } i += 1 }`, with `n = stop - i`
rounds left: the first clear bit. -/
def searchFrom (a : BootInfoFrameAllocator) (i : Nat) : Nat → Option Nat
  | 0 => none
  | n + 1 => if !a.testBit i then some i else searchFrom a (i + 1) n

/-- Mark frame `i` used, move the cursor behind it and hand the frame out. -/
def take (a : BootInfoFrameAllocator) (i : Nat) : PhysFrame × BootInfoFrameAllocator :=
  (PhysFrame.containingAddress (i * 0x1000),
    { a.setBitRuntime i true with nextSearch := i + 1 })

/-- `FrameAllocator::allocate_frame`: first fit from `next_search`, then a
second search over the frames before it. -/
def allocateFrame (a : BootInfoFrameAllocator) : Option PhysFrame × BootInfoFrameAllocator :=
  if a.bitmapBytes = 0 then (none, a)
  else
    match a.searchFrom a.nextSearch (a.numFrames - a.nextSearch) with
    | some i => (some (a.take i).1, (a.take i).2)
    | none =>
      match a.searchFrom 0 a.nextSearch with
      | some i => (some (a.take i).1, (a.take i).2)
      | none => (none, a)

end BootInfoFrameAllocator

-- ---------------------------------------------------------------------------
-- Clients
-- ---------------------------------------------------------------------------

/-- The calls a client makes after `init`. -/
inductive Op
  | allocateFrame
  | freeFrame (frame : PhysFrame)
deriving DecidableEq

/-- The allocator together with the frames its clients currently hold. -/
structure System where
  alloc : BootInfoFrameAllocator
  held  : Finset PhysFrame

namespace System

/-- A client calls `allocate_frame` and holds the frame it gets. -/
def allocate (s : System) : Option PhysFrame × System :=
  match s.alloc.allocateFrame with
  | (some frame, a) => (some frame, ⟨a, insert frame s.held⟩)
  | (none, a) => (none, ⟨a, s.held⟩)

/-- A client gives back a frame it holds. -/
def release (s : System) (frame : PhysFrame) : System :=
  ⟨s.alloc.freeFrame frame, s.held.erase frame⟩

/-- One call. Freeing a frame nobody holds breaks the contract of
`free_frame` ("safe only if the caller guarantees the frame was previously
allocated"), so it is not a step. -/
def step (s : System) : Op → Option System
  | .allocateFrame => some s.allocate.2
  | .freeFrame frame => if frame ∈ s.held then some (s.release frame) else none

/-- The system right after `init`: nobody holds a frame. -/
def boot (memoryMap : MemoryMap) (kernelReservedEnd : Option Nat) (mem : Bitmap) : System :=
  ⟨BootInfoFrameAllocator.init memoryMap kernelReservedEnd mem, ∅⟩

end System

end Neutrix.Frame
