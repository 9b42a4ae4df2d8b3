import Neutrix.BootVga.VgaBuffer
import Neutrix.Drivers.VbeVga

/-!
# Neutrix — the framebuffer console

Model of `src/driver_framework/drivers/console.rs` and of the printing
functions that lead to it. `Display` holds what they share: the active
framebuffer driver, memory, the consoles, and the boot VGA writer that
printing falls back to. `none` is the panic of `draw_char_at` on a byte
whose glyph is missing from the font table.
-/

namespace Neutrix

open Neutrix.Lib Neutrix.Vga

structure Console where
  fbVirt : Nat
  cols   : Nat
  rows   : Nat
  curX   : Nat
  curY   : Nat
  fg     : UInt32
  bg     : UInt32
  charW  : Nat
  charH  : Nat
deriving DecidableEq, Repr

structure Display where
  vbe      : Option VbeVga
  mem      : Memory
  consoles : List Console
  writer   : Writer

namespace Console

-- ---------------------------------------------------------------------------
-- One console
-- ---------------------------------------------------------------------------

def newline (c : Console) : Console := { c with curX := 0, curY := c.curY + 1 }

/-- The clearing loop of the scroll: words as long as four bytes are left. -/
def clearBytes (bg : UInt32) : Memory → Nat → Nat → Memory
  | mem, _, 0 => mem
  | mem, p, n + 4 => clearBytes bg (mem.write32 p bg) (p + 4) n
  | mem, p, n + 1 => clearBytes bg (mem.write8 p 0) (p + 1) n

/-- `vbe_vga::draw_rect_at`, which does nothing without an active driver. -/
def drawRectAt (vbe : Option VbeVga) (mem : Memory) (fb x y w h : Nat) (color : UInt32) :
    Memory :=
  match vbe with
  | none => mem
  | some drv => drv.drawRectAt mem fb x y w h color

def drawCharAt (vbe : Option VbeVga) (mem : Memory) (fb x y : Nat) (ch : UInt8) (color : UInt32) :
    Option Memory :=
  match vbe with
  | none => some mem
  | some drv => drv.drawCharAt mem fb x y ch color

def scrollMut (vbe : Option VbeVga) (c : Console) (mem : Memory) (lines : Nat) :
    Console × Memory :=
  if lines = 0 then (c, mem)
  else
    let pitch := match VbeVga.getFbInfo vbe with
      | some info => info.pitch
      | none => 1024 * 4
    if lines ≥ c.rows then
      ({ c with curX := 0, curY := 0 },
        drawRectAt vbe mem c.fbVirt 0 0 (c.cols * c.charW) (c.rows * c.charH) c.bg)
    else
      let moveHeight := (c.rows - lines) * c.charH
      let srcOffset := lines * c.charH * pitch
      let moveBytes := moveHeight * pitch
      let mem := mem.copy (c.fbVirt + srcOffset) c.fbVirt moveBytes
      let clearStart := (c.rows - lines) * c.charH * pitch
      let clearLen := lines * c.charH * pitch
      (c, clearBytes c.bg mem (c.fbVirt + clearStart) clearLen)

/-- `newline`, then scroll when the cursor left the last row. -/
def newlineScroll (vbe : Option VbeVga) (c : Console) (mem : Memory) : Console × Memory :=
  let c := c.newline
  if c.curY ≥ c.rows then
    let (c, mem) := scrollMut vbe c mem 1
    ({ c with curY := c.rows - 1 }, mem)
  else (c, mem)

def backspace (vbe : Option VbeVga) (fb : Nat) (c : Console) (mem : Memory) : Console × Memory :=
  let c :=
    if c.curX > 0 then { c with curX := c.curX - 1 }
    else if c.curY > 0 then { c with curY := c.curY - 1, curX := c.cols - 1 }
    else c
  (c, drawRectAt vbe mem fb (c.curX * c.charW) (c.curY * c.charH) c.charW c.charH c.bg)

/-- The tab stop after the cursor. -/
def nextTab (c : Console) : Nat := (c.curX / 8 + 1) * 8

/-- Moves to the next tab stop, or to the next line when there is none; this
branch has no scroll check. -/
def tab (c : Console) : Console :=
  if c.nextTab ≥ c.cols then c.newline else { c with curX := c.nextTab }

def putChar (vbe : Option VbeVga) (fb : Nat) (c : Console) (mem : Memory) (b : UInt8) :
    Option (Console × Memory) :=
  match drawCharAt vbe mem fb (c.curX * c.charW) (c.curY * c.charH) b c.fg with
  | none => none
  | some mem =>
    let c := { c with curX := c.curX + 1 }
    if c.curX ≥ c.cols then some (newlineScroll vbe c mem) else some (c, mem)

/-- One round of the loop in `console_print_first`. -/
def printByte (vbe : Option VbeVga) (fb : Nat) (s : Console × Memory) (b : UInt8) :
    Option (Console × Memory) :=
  let (c, mem) := s
  if b = 0x0A then some (newlineScroll vbe c mem)
  else if b = 0x0D then some ({ c with curX := 0 }, mem)
  else if b = 8 then some (backspace vbe fb c mem)
  else if b = 9 then some (c.tab, mem)
  else putChar vbe fb c mem b

def printBytes (vbe : Option VbeVga) (fb : Nat) (s : Console × Memory) :
    List UInt8 → Option (Console × Memory)
  | [] => some s
  | b :: rest => match printByte vbe fb s b with
    | some s => printBytes vbe fb s rest
    | none => none

def clear (vbe : Option VbeVga) (c : Console) (mem : Memory) : Console × Memory :=
  ({ c with curX := 0, curY := 0 },
    drawRectAt vbe mem c.fbVirt 0 0 (c.cols * c.charW) (c.rows * c.charH) c.bg)

def setCursor (c : Console) (col row : Nat) : Console :=
  { c with curX := min col (c.cols - 1), curY := min row (c.rows - 1) }

end Console

namespace Display

-- ---------------------------------------------------------------------------
-- The first framebuffer's console
-- ---------------------------------------------------------------------------

/-- The console made for a framebuffer that has none yet. -/
def newConsole (vbe : Option VbeVga) (fbVirt : Nat) : Console :=
  let (cols, rows) := match VbeVga.getFbInfo vbe with
    | some info =>
      let cols := info.width / 9
      let rows := info.height / 8
      (if cols = 0 then 80 else cols, if rows = 0 then 25 else rows)
    | none => (80, 25)
  { fbVirt, cols, rows, curX := 0, curY := 0, fg := 0xFFFFFFFF, bg := 0, charW := 9, charH := 8 }

/-- Index of the framebuffer's console, which is made if it does not exist. -/
def getOrCreateConsole (d : Display) (fbVirt : Nat) : Nat × Display :=
  match d.consoles.findIdx? (fun c => c.fbVirt = fbVirt) with
  | some i => (i, d)
  | none => (d.consoles.length, { d with consoles := d.consoles ++ [newConsole d.vbe fbVirt] })

/-- `consoles.remove(idx)`, the work, `consoles.insert(idx, console)`. -/
def withConsole (d : Display) (fb : Nat)
    (f : Console × Memory → Option (Console × Memory)) : Option Display :=
  let (idx, d) := d.getOrCreateConsole fb
  match d.consoles[idx]? with
  | none => none
  | some console =>
    match f (console, d.mem) with
    | none => none
    | some (console, mem) =>
      some { d with mem, consoles := (d.consoles.eraseIdx idx).insertIdx idx console }

def consolePrintFirst (d : Display) (s : List UInt8) : Option (Bool × Display) :=
  match VbeVga.getFramebufferAddrs d.vbe with
  | [] => some (false, { d with writer := d.writer.writeString s })
  | fb :: _ =>
    match d.withConsole fb (fun cm => Console.printBytes d.vbe fb cm s) with
    | some d => some (true, d)
    | none => none

def consoleClearFirst (d : Display) : Option Display :=
  match VbeVga.getFramebufferAddrs d.vbe with
  | [] => some { d with writer := d.writer.clearScreen }
  | fb :: _ => d.withConsole fb fun (c, mem) => some (c.clear d.vbe mem)

/-- The helpers that only set fields: `consoles.get_mut(idx)`. -/
def modifyConsole (d : Display) (f : Console → Console) : Display :=
  match VbeVga.getFramebufferAddrs d.vbe with
  | [] => d
  | fb :: _ =>
    let (idx, d) := d.getOrCreateConsole fb
    { d with consoles := d.consoles.modify idx f }

def consoleSetColorsFirst (d : Display) (fg bg : UInt32) : Display :=
  d.modifyConsole fun c => { c with fg, bg }

def consoleSetCursorFirst (d : Display) (col row : Nat) : Display :=
  d.modifyConsole fun c => c.setCursor col row

-- ---------------------------------------------------------------------------
-- `print!`
-- ---------------------------------------------------------------------------

/-- `vbe_try_print`: the pieces are formatted into one string. -/
def vbeTryPrint (d : Display) (pieces : List (List UInt8)) : Option (Bool × Display) :=
  d.consolePrintFirst pieces.flatten

/-- `_print`. -/
def print (d : Display) (pieces : List (List UInt8)) : Option Display :=
  match d.vbeTryPrint pieces with
  | none => none
  | some (true, d) => some d
  | some (false, d) => some { d with writer := d.writer.writeFmt pieces }

end Display

end Neutrix
