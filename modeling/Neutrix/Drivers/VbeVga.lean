import Mathlib.Tactic.Ring
import Neutrix.Lib.ByteMemory

/-!
# Neutrix — drawing into the framebuffer

Model of the drawing part of `src/driver_framework/drivers/vbe_vga.rs`: the
active driver's framebuffer addresses and geometry, and the primitives the
console and the mouse cursor draw with. Addresses are natural numbers (the
mapped framebuffer does not wrap the address space).
-/

namespace Neutrix

open Neutrix.Lib

structure FramebufferInfo where
  width  : Nat
  height : Nat
  bpp    : Nat
  pitch  : Nat
deriving DecidableEq, Repr

/-- The state of a started `VbeVgaDriver` that drawing depends on: the virtual
addresses of the mapped BARs, and what the mode registers said. -/
structure VbeVga where
  addrs  : List Nat
  fbInfo : Option FramebufferInfo

namespace VbeVga

-- ---------------------------------------------------------------------------
-- Active driver
-- ---------------------------------------------------------------------------

/-- Without an active driver there is no framebuffer. -/
def getFramebufferAddrs : Option VbeVga → List Nat
  | none => []
  | some drv => drv.addrs

def getFbInfo : Option VbeVga → Option FramebufferInfo
  | none => none
  | some drv => drv.fbInfo

/-- What `start` makes of the resolution and depth registers. -/
def readMode (xres yres bpp : UInt16) : Option FramebufferInfo :=
  if xres ≠ 0 ∧ yres ≠ 0 then
    some { width := xres.toNat, height := yres.toNat, bpp := bpp.toNat,
           pitch := xres.toNat * ((bpp.toNat + 7) / 8) }
  else none

theorem readMode_32bpp {xres yres : UInt16} (hx : 0 < xres.toNat) (hy : 0 < yres.toNat) :
    readMode xres yres 32 = some ⟨xres.toNat, yres.toNat, 32, xres.toNat * 4⟩ := by
  have hNe : ∀ {n : UInt16}, 0 < n.toNat → n ≠ 0 := by
    rintro n hn rfl
    exact Nat.lt_irrefl 0 hn
  rw [readMode, if_pos ⟨hNe hx, hNe hy⟩]
  rfl

/-- The pitch that drawing falls back to is that of 1024 pixels at 32 bpp. -/
def pitch (drv : VbeVga) : Nat :=
  match drv.fbInfo with
  | some info => info.pitch
  | none => 1024 * 4

-- ---------------------------------------------------------------------------
-- Font
-- ---------------------------------------------------------------------------

/-- `FONT8X8`: 95 glyphs from the space on, one byte per row, leftmost pixel in
the top bit. -/
def font8x8 : List (List UInt8) := [
  [0x00, 0x00, 0x00, 0x00, 0x00, 0x00, 0x00, 0x00],
  [0x18, 0x3c, 0x3c, 0x18, 0x18, 0x00, 0x18, 0x00],
  [0x6c, 0x6c, 0x48, 0x00, 0x00, 0x00, 0x00, 0x00],
  [0x6c, 0x6c, 0xfe, 0x6c, 0xfe, 0x6c, 0x6c, 0x00],
  [0x18, 0x3e, 0x60, 0x3c, 0x06, 0x7c, 0x18, 0x00],
  [0x00, 0xc6, 0xcc, 0x18, 0x30, 0x66, 0xc6, 0x00],
  [0x38, 0x6c, 0x38, 0x76, 0xdc, 0xcc, 0x76, 0x00],
  [0x30, 0x30, 0x60, 0x00, 0x00, 0x00, 0x00, 0x00],
  [0x0c, 0x18, 0x30, 0x30, 0x30, 0x18, 0x0c, 0x00],
  [0x30, 0x18, 0x0c, 0x0c, 0x0c, 0x18, 0x30, 0x00],
  [0x00, 0x66, 0x3c, 0xff, 0x3c, 0x66, 0x00, 0x00],
  [0x00, 0x18, 0x18, 0x7e, 0x18, 0x18, 0x00, 0x00],
  [0x00, 0x00, 0x00, 0x00, 0x00, 0x18, 0x18, 0x30],
  [0x00, 0x00, 0x00, 0x7e, 0x00, 0x00, 0x00, 0x00],
  [0x00, 0x00, 0x00, 0x00, 0x00, 0x18, 0x18, 0x00],
  [0x06, 0x0c, 0x18, 0x30, 0x60, 0xc0, 0x80, 0x00],
  [0x7c, 0xc6, 0xce, 0xd6, 0xe6, 0xc6, 0x7c, 0x00],
  [0x18, 0x38, 0x18, 0x18, 0x18, 0x18, 0x7e, 0x00],
  [0x7c, 0xc6, 0x06, 0x1c, 0x30, 0x66, 0xfe, 0x00],
  [0x7c, 0xc6, 0x06, 0x3c, 0x06, 0xc6, 0x7c, 0x00],
  [0x0c, 0x1c, 0x3c, 0x6c, 0xfe, 0x0c, 0x1e, 0x00],
  [0xfe, 0xc0, 0xc0, 0xfc, 0x06, 0xc6, 0x7c, 0x00],
  [0x3c, 0x60, 0xc0, 0xfc, 0xc6, 0xc6, 0x7c, 0x00],
  [0xfe, 0xc6, 0x0c, 0x18, 0x30, 0x30, 0x30, 0x00],
  [0x7c, 0xc6, 0xc6, 0x7c, 0xc6, 0xc6, 0x7c, 0x00],
  [0x7c, 0xc6, 0xc6, 0x7e, 0x06, 0x0c, 0x78, 0x00],
  [0x00, 0x18, 0x18, 0x00, 0x00, 0x18, 0x18, 0x00],
  [0x00, 0x18, 0x18, 0x00, 0x00, 0x18, 0x18, 0x30],
  [0x0e, 0x1c, 0x38, 0x70, 0x38, 0x1c, 0x0e, 0x00],
  [0x00, 0x00, 0x7e, 0x00, 0x00, 0x7e, 0x00, 0x00],
  [0x70, 0x38, 0x1c, 0x0e, 0x1c, 0x38, 0x70, 0x00],
  [0x7c, 0xc6, 0x0e, 0x1c, 0x18, 0x00, 0x18, 0x00],
  [0x7c, 0xc6, 0xde, 0xde, 0xde, 0xc0, 0x78, 0x00],
  [0x10, 0x38, 0x6c, 0xc6, 0xfe, 0xc6, 0xc6, 0x00],
  [0xfc, 0x66, 0x66, 0x7c, 0x66, 0x66, 0xfc, 0x00],
  [0x3c, 0x66, 0xc0, 0xc0, 0xc0, 0x66, 0x3c, 0x00],
  [0xf8, 0x6c, 0x66, 0x66, 0x66, 0x6c, 0xf8, 0x00],
  [0xfe, 0x62, 0x68, 0x78, 0x68, 0x62, 0xfe, 0x00],
  [0xfe, 0x62, 0x68, 0x78, 0x68, 0x60, 0xf0, 0x00],
  [0x3c, 0x66, 0xc0, 0xc0, 0xce, 0x66, 0x3c, 0x00],
  [0xc6, 0xc6, 0xc6, 0xfe, 0xc6, 0xc6, 0xc6, 0x00],
  [0x7e, 0x18, 0x18, 0x18, 0x18, 0x18, 0x7e, 0x00],
  [0x1e, 0x0c, 0x0c, 0x0c, 0xcc, 0xcc, 0x78, 0x00],
  [0xe6, 0x66, 0x6c, 0x78, 0x6c, 0x66, 0xe6, 0x00],
  [0xf0, 0x60, 0x60, 0x60, 0x62, 0x66, 0xfe, 0x00],
  [0xc6, 0xee, 0xfe, 0xfe, 0xd6, 0xc6, 0xc6, 0x00],
  [0xc6, 0xe6, 0xf6, 0xde, 0xce, 0xc6, 0xc6, 0x00],
  [0x7c, 0xc6, 0xc6, 0xc6, 0xc6, 0xc6, 0x7c, 0x00],
  [0xfc, 0x66, 0x66, 0x7c, 0x60, 0x60, 0xf0, 0x00],
  [0x7c, 0xc6, 0xc6, 0xc6, 0xd6, 0xcc, 0x7a, 0x00],
  [0xfc, 0x66, 0x66, 0x7c, 0x6c, 0x66, 0xe6, 0x00],
  [0x7c, 0xc6, 0xc0, 0x7c, 0x06, 0xc6, 0x7c, 0x00],
  [0xff, 0x99, 0x18, 0x18, 0x18, 0x18, 0x3c, 0x00],
  [0xc6, 0xc6, 0xc6, 0xc6, 0xc6, 0xc6, 0x7c, 0x00],
  [0xc6, 0xc6, 0xc6, 0xc6, 0xc6, 0x6c, 0x38, 0x00],
  [0xc6, 0xc6, 0xc6, 0xd6, 0xfe, 0xee, 0xc6, 0x00],
  [0xc6, 0x6c, 0x38, 0x10, 0x38, 0x6c, 0xc6, 0x00],
  [0xcc, 0xcc, 0x98, 0x30, 0x30, 0x30, 0x78, 0x00],
  [0xfe, 0xce, 0x9c, 0x38, 0x70, 0xe6, 0xfe, 0x00],
  [0x3c, 0x30, 0x30, 0x30, 0x30, 0x30, 0x3c, 0x00],
  [0xc0, 0x60, 0x30, 0x18, 0x0c, 0x06, 0x02, 0x00],
  [0x3c, 0x0c, 0x0c, 0x0c, 0x0c, 0x0c, 0x3c, 0x00],
  [0x10, 0x38, 0x6c, 0xc6, 0x00, 0x00, 0x00, 0x00],
  [0x00, 0x00, 0x00, 0x00, 0x00, 0x00, 0x00, 0xff],
  [0x30, 0x18, 0x0c, 0x00, 0x00, 0x00, 0x00, 0x00],
  [0x00, 0x00, 0x78, 0x0c, 0x7c, 0xcc, 0x76, 0x00],
  [0xe0, 0x60, 0x7c, 0x66, 0x66, 0x66, 0xdc, 0x00],
  [0x00, 0x00, 0x7c, 0xc0, 0xc0, 0xc0, 0x7c, 0x00],
  [0x1c, 0x0c, 0x7c, 0xcc, 0xcc, 0xcc, 0x76, 0x00],
  [0x00, 0x00, 0x7c, 0xc6, 0xfe, 0xc0, 0x7c, 0x00],
  [0x3c, 0x66, 0x60, 0xf8, 0x60, 0x60, 0xf0, 0x00],
  [0x00, 0x00, 0x76, 0xcc, 0xcc, 0x7c, 0x0c, 0xf8],
  [0xe0, 0x60, 0x6c, 0x76, 0x66, 0x66, 0xe6, 0x00],
  [0x18, 0x00, 0x38, 0x18, 0x18, 0x18, 0x3c, 0x00],
  [0x0c, 0x00, 0x1c, 0x0c, 0x0c, 0xcc, 0xcc, 0x78],
  [0xe0, 0x60, 0x66, 0x6c, 0x78, 0x6c, 0xe6, 0x00],
  [0x38, 0x18, 0x18, 0x18, 0x18, 0x18, 0x3c, 0x00],
  [0x00, 0x00, 0xec, 0xfe, 0xd6, 0xd6, 0xd6, 0x00],
  [0x00, 0x00, 0xdc, 0x66, 0x66, 0x66, 0x66, 0x00],
  [0x00, 0x00, 0x7c, 0xc6, 0xc6, 0xc6, 0x7c, 0x00],
  [0x00, 0x00, 0xdc, 0x66, 0x66, 0x7c, 0x60, 0xf0],
  [0x00, 0x00, 0x76, 0xcc, 0xcc, 0x7c, 0x0c, 0x1e],
  [0x00, 0x00, 0xdc, 0x76, 0x60, 0x60, 0xf0, 0x00],
  [0x00, 0x00, 0x7e, 0xc0, 0x7c, 0x06, 0xfc, 0x00],
  [0x30, 0x30, 0xfc, 0x30, 0x30, 0x36, 0x1c, 0x00],
  [0x00, 0x00, 0xcc, 0xcc, 0xcc, 0xcc, 0x76, 0x00],
  [0x00, 0x00, 0xc6, 0xc6, 0xc6, 0x6c, 0x38, 0x00],
  [0x00, 0x00, 0xc6, 0xd6, 0xd6, 0xfe, 0x6c, 0x00],
  [0x00, 0x00, 0xc6, 0x6c, 0x38, 0x6c, 0xc6, 0x00],
  [0x00, 0x00, 0xc6, 0xc6, 0xc6, 0x7e, 0x06, 0xfc],
  [0x00, 0x00, 0xfe, 0x8c, 0x18, 0x32, 0xfe, 0x00],
  [0x0e, 0x18, 0x18, 0x70, 0x18, 0x18, 0x0e, 0x00],
  [0x18, 0x18, 0x18, 0x00, 0x18, 0x18, 0x18, 0x00],
  [0x70, 0x18, 0x18, 0x0e, 0x18, 0x18, 0x70, 0x00],
  [0x76, 0xdc, 0x00, 0x00, 0x00, 0x00, 0x00, 0x00]]

/-- `VGA8X8::get_glyph`. The outer `none` is the panic of an index beyond the
table, the inner one says that there is no glyph. -/
def getGlyph (ch : UInt8) : Option (Option (List UInt8)) :=
  if ch < 0x20 ∨ ch > 0x7F then some none
  else
    match font8x8[(ch - 0x20).toNat]? with
    | some glyph => some (some glyph)
    | none => none

-- ---------------------------------------------------------------------------
-- Primitives
-- ---------------------------------------------------------------------------

/-- Address of a pixel: `base.add(y * pitch).add(x * 4)`. -/
def pixelAddr (pitch fb x y : Nat) : Nat := fb + y * pitch + x * 4

/-- The pixels of a 32 bpp mode are numbered row by row. -/
theorem pixelAddr_eq (width fb x y : Nat) :
    pixelAddr (width * 4) fb x y = fb + 4 * (x + width * y) := by
  rw [pixelAddr]
  ring

theorem pixelIndex_inj {width x y x' y' : Nat} (hx : x < width) (hx' : x' < width) :
    x + width * y = x' + width * y' ↔ x = x' ∧ y = y' := by
  refine ⟨fun h => ?_, fun h => by rw [h.1, h.2]⟩
  have hMod := congrArg (· % width) h
  have hDiv := congrArg (· / width) h
  have hPos := Nat.zero_lt_of_lt hx
  simp only [Nat.add_mul_mod_self_left, Nat.mod_eq_of_lt hx, Nat.mod_eq_of_lt hx'] at hMod
  simp only [Nat.add_mul_div_left _ _ hPos, Nat.div_eq_of_lt hx, Nat.div_eq_of_lt hx',
    Nat.zero_add] at hDiv
  exact ⟨hMod, hDiv⟩

def drawPixelAt (drv : VbeVga) (mem : Memory) (fb x y : Nat) (color : UInt32) : Memory :=
  mem.write32 (pixelAddr drv.pitch fb x y) color

def drawRectAt (drv : VbeVga) (mem : Memory) (fb x y w h : Nat) (color : UInt32) : Memory :=
  (List.range' y h).foldl (fun mem yy =>
    (List.range' x w).foldl (fun mem xx =>
      mem.write32 (pixelAddr drv.pitch fb xx yy) color) mem) mem

/-- Row `r` of the procedural glyph for characters outside the font. -/
def fallbackRow (ch : UInt8) (r : Nat) : UInt8 :=
  let pattern := (ch + UInt8.ofNat r) ^^^ (ch >>> UInt8.ofNat (r % 8))
  let k := UInt8.ofNat (r % 8)
  -- rotate left by `r & 7`
  if k = 0 then pattern else (pattern <<< k) ||| (pattern >>> (8 - k))

/-- One glyph row; `bit c` is the mask of column `c`. -/
def drawRow (drv : VbeVga) (mem : Memory) (fb x y : Nat) (bits : UInt8) (bit : Nat → UInt8)
    (color : UInt32) : Memory :=
  (List.range 8).foldl (fun mem c =>
    if bits &&& bit c ≠ 0 then mem.write32 (pixelAddr drv.pitch fb (x + c) y) color
    else mem) mem

def drawCharAt (drv : VbeVga) (mem : Memory) (fb x y : Nat) (ch : UInt8) (color : UInt32) :
    Option Memory :=
  match getGlyph ch with
  | none => none
  | some (some glyph) =>
    some ((List.range 8).foldl (fun mem r =>
      drawRow drv mem fb x (y + r) (glyph.getD r 0) (fun c => 1 <<< UInt8.ofNat (7 - c)) color) mem)
  | some none =>
    some ((List.range 8).foldl (fun mem r =>
      drawRow drv mem fb x (y + r) (fallbackRow ch r) (fun c => 1 <<< UInt8.ofNat c) color) mem)

end VbeVga

end Neutrix
