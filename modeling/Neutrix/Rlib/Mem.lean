import Mathlib.Algebra.Order.Ring.Int
import Neutrix.Lib.ByteMemory
import Neutrix.Lib.While

/-!
# Neutrix — the memory routines

Model of `src/rlib/mem.rs`. Pointers are addresses, and a region does not
wrap the address space. A `Machine` is memory with the addresses loaded and
stored so far. `memcpy` and `memset` advance their pointers and count their
length down, in four `while` loops each; `none` would be a loop that needs
more than `len` rounds.

The SSE2 intrinsics have their documented meaning: `cmpeqEpi8` fills the
equal bytes with ones, `movemaskEpi8` collects the 16 sign bits and extends
them with zeros to an `i32`, and `set1Epi8` repeats a byte.
-/

namespace Neutrix.Rlib

open Neutrix.Lib

-- ---------------------------------------------------------------------------
-- SSE2
-- ---------------------------------------------------------------------------

/-- `__m128i` as 16 bytes. -/
abbrev M128i : Type := Fin 16 → UInt8

def loaduSi128 (mem : Memory) (p : Nat) : M128i := fun i => mem (p + i)

def storeuSi128 (mem : Memory) (p : Nat) (v : M128i) : Memory := fun a =>
  if h : p ≤ a ∧ a < p + 16 then v ⟨a - p, by omega⟩ else mem a

def cmpeqEpi8 (v w : M128i) : M128i := fun i => if v i = w i then 0xFF else 0

def set1Epi8 (value : UInt8) : M128i := fun _ => value

def movemaskEpi8 (v : M128i) : Int :=
  ((List.finRange 16).map fun i => if 0x80 ≤ v i then (2 : Int) ^ i.val else 0).sum

-- ---------------------------------------------------------------------------
-- memcmp
-- ---------------------------------------------------------------------------

/-- `(x as i32) - (y as i32)`. -/
def byteDiff (x y : UInt8) : Int := (x.toNat : Int) - y.toNat

def slowByteCmp (mem : Memory) (a b n : Nat) : Int :=
  match (List.range n).find? fun i => mem (a + i) ≠ mem (b + i) with
  | some i => byteDiff (mem (a + i)) (mem (b + i))
  | none => 0

/-- The mask of equal bytes of the 16 bytes at `a` and at `b`. -/
def equalMask (mem : Memory) (a b : Nat) : Int :=
  movemaskEpi8 (cmpeqEpi8 (loaduSi128 mem a) (loaduSi128 mem b))

def cmpTail (mem : Memory) : Nat → Nat → Nat → Int
  | _, _, 0 => 0
  | a, b, len + 1 =>
    if mem a ≠ mem b then byteDiff (mem a) (mem b) else cmpTail mem (a + 1) (b + 1) len

/-- The loop over 16 bytes at a time, for `fuel` rounds at most, and the tail. -/
def cmpLoop16 (mem : Memory) : Nat → Nat → Nat → Nat → Int
  | 0, a, b, len => cmpTail mem a b len
  | fuel + 1, a, b, len =>
    if len ≥ 16 then
      if equalMask mem a b ≠ -1 then slowByteCmp mem a b 16
      else cmpLoop16 mem fuel (a + 16) (b + 16) (len - 16)
    else cmpTail mem a b len

/-- The loop over 64 bytes at a time, for `fuel` rounds at most, and what follows it. -/
def cmpLoop64 (mem : Memory) : Nat → Nat → Nat → Nat → Int
  | 0, a, b, len => cmpLoop16 mem (len / 16) a b len
  | fuel + 1, a, b, len =>
    if len ≥ 64 then
      if equalMask mem a b ≠ -1 then slowByteCmp mem a b 16
      else if equalMask mem (a + 16) (b + 16) ≠ -1 then slowByteCmp mem (a + 16) (b + 16) 16
      else if equalMask mem (a + 32) (b + 32) ≠ -1 then slowByteCmp mem (a + 32) (b + 32) 16
      else if equalMask mem (a + 48) (b + 48) ≠ -1 then slowByteCmp mem (a + 48) (b + 48) 16
      else cmpLoop64 mem fuel (a + 64) (b + 64) (len - 64)
    else cmpLoop16 mem (len / 16) a b len

def memcmp (mem : Memory) (a b len : Nat) : Int :=
  if len = 0 then 0 else cmpLoop64 mem (len / 64) a b len

-- ---------------------------------------------------------------------------
-- memmove
-- ---------------------------------------------------------------------------

structure Machine where
  mem    : Memory
  loads  : List Nat
  stores : List Nat

/-- `*dst = *src`. -/
def Machine.copyByte (m : Machine) (dst src : Nat) : Machine where
  mem    := m.mem.write8 dst (m.mem src)
  loads  := m.loads ++ [src]
  stores := m.stores ++ [dst]

/-- A 16-byte load and the store of what it loaded. -/
def Machine.copy16 (m : Machine) (dst src : Nat) : Machine where
  mem    := storeuSi128 m.mem dst (loaduSi128 m.mem src)
  loads  := m.loads ++ List.range' src 16
  stores := m.stores ++ List.range' dst 16

section Memmove

variable (dest src n : Nat)

/-- Bytes from the start on, until the destination is aligned; the offset reached. -/
def alignForward : Nat → Nat → Machine → Nat × Machine
  | 0, offset, m => (offset, m)
  | fuel + 1, offset, m =>
    if offset < n ∧ (dest + offset) &&& 0xF ≠ 0 then
      alignForward fuel (offset + 1) (m.copyByte (dest + offset) (src + offset))
    else (offset, m)

def moveForward (m : Machine) : Machine :=
  let (offset, m) := alignForward dest src n n 0 m
  let chunks := (n - offset) / 16
  let remainder := (n - offset) % 16
  let m := (List.range chunks).foldl (fun m i =>
    m.copy16 (dest + (offset + i * 16)) (src + (offset + i * 16))) m
  (List.range remainder).foldl (fun m i =>
    m.copyByte (dest + (n - remainder + i)) (src + (n - remainder + i))) m

/-- Bytes from the end on, until the destination is aligned; how many there were. -/
def alignBackward : Nat → Nat → Machine → Nat × Machine
  | 0, offset, m => (offset, m)
  | fuel + 1, offset, m =>
    if offset < n ∧ (dest + (n - offset - 1)) &&& 0xF ≠ 15 then
      alignBackward fuel (offset + 1)
        (m.copyByte (dest + (n - offset - 1)) (src + (n - offset - 1)))
    else (offset, m)

def moveBackward (m : Machine) : Machine :=
  let (offset, m) := alignBackward dest src n n 0 m
  let chunks := (n - offset) / 16
  let remainder := (n - offset) % 16
  let m := (List.range chunks).foldl (fun m i =>
    m.copy16 (dest + (n - offset - (i + 1) * 16)) (src + (n - offset - (i + 1) * 16))) m
  (List.range remainder).foldl (fun m i =>
    m.copyByte (dest + (remainder - i - 1)) (src + (remainder - i - 1))) m

/-- The returned pointer and the machine after the call. -/
def memmove (m : Machine) : Nat × Machine :=
  if dest = src ∨ n = 0 then (dest, m)
  else if dest < src then (dest, moveForward dest src n m)
  else (dest, moveBackward dest src n m)

end Memmove

-- ---------------------------------------------------------------------------
-- memcpy
-- ---------------------------------------------------------------------------

def Machine.load16 (m : Machine) (p : Nat) : M128i × Machine :=
  (loaduSi128 m.mem p, { m with loads := m.loads ++ List.range' p 16 })

def Machine.store16 (m : Machine) (p : Nat) (v : M128i) : Machine :=
  { m with mem := storeuSi128 m.mem p v, stores := m.stores ++ List.range' p 16 }

/-- The body of the unrolled loop: four loads, then four stores. -/
def Machine.copy64 (m : Machine) (dst src : Nat) : Machine :=
  let (c0, m) := m.load16 src
  let (c1, m) := m.load16 (src + 16)
  let (c2, m) := m.load16 (src + 32)
  let (c3, m) := m.load16 (src + 48)
  let m := m.store16 dst c0
  let m := m.store16 (dst + 16) c1
  let m := m.store16 (dst + 32) c2
  m.store16 (dst + 48) c3

/-- The variables of `memcpy`, and the machine. -/
structure CopyState where
  dst : Nat
  src : Nat
  len : Nat
  m   : Machine

namespace CopyState

/-- Both pointers go up by `w` and the length goes down by it. -/
def advance (s : CopyState) (w : Nat) (m : Machine) : CopyState where
  dst := s.dst + w
  src := s.src + w
  len := s.len - w
  m   := m

def copyByte (s : CopyState) : CopyState := s.advance 1 (s.m.copyByte s.dst s.src)

def copy16 (s : CopyState) : CopyState := s.advance 16 (s.m.copy16 s.dst s.src)

def copy64 (s : CopyState) : CopyState := s.advance 64 (s.m.copy64 s.dst s.src)

end CopyState

def memcpy (dst src len : Nat) (m : Machine) : Option Machine :=
  if len = 0 then some m
  else do
    let s : CopyState := { dst, src, len, m }
    let s ← loop (fun s => s.dst &&& 15 ≠ 0 ∧ s.len > 0) CopyState.copyByte len s
    let s ← loop (fun s => s.len ≥ 64) CopyState.copy64 len s
    let s ← loop (fun s => s.len ≥ 16) CopyState.copy16 len s
    let s ← loop (fun s => s.len > 0) CopyState.copyByte len s
    return s.m

-- ---------------------------------------------------------------------------
-- memset
-- ---------------------------------------------------------------------------

def Machine.storeByte (m : Machine) (p : Nat) (v : UInt8) : Machine :=
  { m with mem := m.mem.write8 p v, stores := m.stores ++ [p] }

/-- The variables of `memset`, and the machine. -/
structure FillState where
  dst : Nat
  len : Nat
  m   : Machine

namespace FillState

def advance (s : FillState) (w : Nat) (m : Machine) : FillState where
  dst := s.dst + w
  len := s.len - w
  m   := m

def storeByte (value : UInt8) (s : FillState) : FillState :=
  s.advance 1 (s.m.storeByte s.dst value)

def store16 (fill : M128i) (s : FillState) : FillState := s.advance 16 (s.m.store16 s.dst fill)

def store64 (fill : M128i) (s : FillState) : FillState :=
  let m := s.m.store16 s.dst fill
  let m := m.store16 (s.dst + 16) fill
  let m := m.store16 (s.dst + 32) fill
  s.advance 64 (m.store16 (s.dst + 48) fill)

end FillState

def memset (dst : Nat) (value : UInt8) (len : Nat) (m : Machine) : Option Machine :=
  if len = 0 then some m
  else do
    let fill := set1Epi8 value
    let s : FillState := { dst, len, m }
    let s ← loop (fun s => s.dst &&& 15 ≠ 0 ∧ s.len > 0) (FillState.storeByte value) len s
    let s ← loop (fun s => s.len ≥ 64) (FillState.store64 fill) len s
    let s ← loop (fun s => s.len ≥ 16) (FillState.store16 fill) len s
    let s ← loop (fun s => s.len > 0) (FillState.storeByte value) len s
    return s.m

end Neutrix.Rlib
