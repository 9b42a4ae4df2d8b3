import Mathlib.Algebra.Order.Ring.Int
import Mathlib.Data.List.ProdSigma
import Neutrix.Drivers.VbeVga

/-!
# Neutrix — the mouse cursor

Model of the cursor part of `src/driver_framework/drivers/ps2mouse.rs`: the
position of the software cursor, the background saved under it, and the
redraw that `set_cursor_pos` and every mouse packet end in. The saved pixels
are a function of row and column, as their vector always has `W * H` entries.
-/

namespace Neutrix

open Neutrix.Lib

namespace Ps2Mouse

abbrev W : Nat := 12
abbrev H : Nat := 16

def arrow : List UInt16 :=
  [0b100000000000,
   0b110000000000,
   0b111000000000,
   0b111100000000,
   0b111110000000,
   0b111111000000,
   0b111111100000,
   0b111111110000,
   0b111111100000,
   0b111111000000,
   0b111110000000,
   0b111100000000,
   0b111000000000,
   0b110000000000,
   0b100000000000,
   0b000000000000]

/-- The arrow bitmap has the pixel. -/
def arrowBit (row : Fin H) (col : Fin W) : Bool :=
  (arrow.getD row 0) &&& (1 <<< UInt16.ofNat (W - 1 - col)) ≠ 0

structure SavedBg where
  px     : Nat
  py     : Nat
  pixels : Fin H → Fin W → UInt32

structure Mouse where
  cursorX : Int
  cursorY : Int
  savedBg : Option SavedBg

/-- `Ps2MouseDriver::new`. -/
def Mouse.new : Mouse := { cursorX := 40, cursorY := 40, savedBg := none }

-- ---------------------------------------------------------------------------
-- `redraw_cursor`
-- ---------------------------------------------------------------------------

/-- `for row in 0..H` with `for col in 0..W` inside. -/
def block : List (Fin H × Fin W) := List.finRange H ×ˢ List.finRange W

def clampTo (maxPos pos : Int) : Int :=
  let pos := if pos < 0 then 0 else pos
  if pos > maxPos then maxPos else pos

/-- `as usize` of a signed value. -/
def asUsize (i : Int) : Nat := (i % 2 ^ 64).toNat

/-- Where the block is drawn for a cursor position. -/
def drawnAt (info : FramebufferInfo) (x y : Int) : Nat × Nat :=
  (asUsize (clampTo (info.width - W) x), asUsize (clampTo (info.height - H) y))

def restoreBg (drv : VbeVga) (mem : Memory) (fb : Nat) (saved : SavedBg) : Memory :=
  block.foldl (fun mem i =>
    drv.drawPixelAt mem fb (saved.px + i.2) (saved.py + i.1) (saved.pixels i.1 i.2)) mem

/-- Reads the block with the pitch of the mode. -/
def captureBg (info : FramebufferInfo) (mem : Memory) (fb bx by_ : Nat) : SavedBg where
  px := bx
  py := by_
  pixels row col := mem.read32 (VbeVga.pixelAddr info.pitch fb (bx + col) (by_ + row))

def drawArrow (drv : VbeVga) (mem : Memory) (fb bx by_ : Nat) : Memory :=
  block.foldl (fun mem i =>
    if arrowBit i.1 i.2 then drv.drawPixelAt mem fb (bx + i.2) (by_ + i.1) 0xFFFFFFFF else mem) mem

/-- The previous background is put back if the block is drawn elsewhere now. -/
def restorePrevious (drv : VbeVga) (fb : Nat) (savedBg : Option SavedBg) (at_ : Nat × Nat)
    (mem : Memory) : Memory :=
  match savedBg with
  | some saved =>
    if saved.px ≠ at_.1 ∨ saved.py ≠ at_.2 then restoreBg drv mem fb saved else mem
  | none => mem

def redrawAt (drv : VbeVga) (info : FramebufferInfo) (fb : Nat) (m : Mouse) (mem : Memory) :
    Mouse × Memory :=
  let (bx, by_) := drawnAt info m.cursorX m.cursorY
  let mem := restorePrevious drv fb m.savedBg (bx, by_) mem
  ({ m with savedBg := some (captureBg info mem fb bx by_) }, drawArrow drv mem fb bx by_)

/-- Nothing is drawn without a framebuffer or its geometry. -/
def redrawCursor (vbe : Option VbeVga) (m : Mouse) (mem : Memory) : Mouse × Memory :=
  match vbe with
  | none => (m, mem)
  | some drv =>
    match drv.addrs, drv.fbInfo with
    | fb :: _, some info => redrawAt drv info fb m mem
    | _, _ => (m, mem)

-- ---------------------------------------------------------------------------
-- Cursor updates
-- ---------------------------------------------------------------------------

structure MousePacket where
  buttons : UInt8
  dx      : Int8
  dy      : Int8
deriving DecidableEq

def mouseSensNum : Int := 1
def mouseSensDen : Int := 1
def mouseMaxDelta : Int := 16
def mouseInvertY : Bool := false

def clampDelta (d : Int) : Int :=
  if d > mouseMaxDelta then mouseMaxDelta
  else if d < -mouseMaxDelta then -mouseMaxDelta
  else d

def scaleDelta (d : Int) : Int := (d * mouseSensNum).tdiv mouseSensDen

/-- `i32::saturating_add`. -/
def saturatingAdd (a b : Int) : Int := max (-2 ^ 31) (min (2 ^ 31 - 1) (a + b))

/-- What one packet does in `mouse_event_loop`, before the redraw. -/
def Mouse.applyPacket (m : Mouse) (pkt : MousePacket) : Mouse :=
  let dx := scaleDelta (clampDelta pkt.dx.toInt)
  let dy := scaleDelta (clampDelta pkt.dy.toInt)
  let screenDy := if mouseInvertY then dy else -dy
  { m with
    cursorX := saturatingAdd m.cursorX dx
    cursorY := saturatingAdd m.cursorY screenDy }

inductive Update
  | setCursorPos (x y : Int32)
  | packet (pkt : MousePacket)
deriving DecidableEq

/-- The driver with the cursor where the update puts it. -/
def Mouse.place (m : Mouse) : Update → Mouse
  | .setCursorPos x y => { m with cursorX := x.toInt, cursorY := y.toInt }
  | .packet pkt => m.applyPacket pkt

/-- `set_cursor_pos`, or one round of the event loop. -/
def update (vbe : Option VbeVga) (s : Mouse × Memory) (u : Update) : Mouse × Memory :=
  redrawCursor vbe (s.1.place u) s.2

end Ps2Mouse

end Neutrix
