import Mathlib.Tactic.Common

/-!
# Neutrix — the boot VGA text buffer

Model of `src/bootvga/vga_buffer.rs`. The buffer is a function of row and
column, of which the writer uses 25 by 80; `hwCursor` is the position last
sent to ports 0x3D4/0x3D5. Strings are their bytes.
-/

namespace Neutrix.Vga

def bufferHeight : Nat := 25
def bufferWidth : Nat := 80

structure ScreenChar where
  asciiCharacter : UInt8
  colorCode      : UInt8
deriving DecidableEq, Repr

structure Writer where
  rowPosition    : Nat
  columnPosition : Nat
  colorCode      : UInt8
  buffer         : Nat → Nat → ScreenChar
  hwCursor       : UInt16

namespace Writer

/-- `self.buffer.chars[row][col].write(ch)`. -/
def setChar (w : Writer) (row col : Nat) (ch : ScreenChar) : Writer :=
  { w with buffer := fun r c => if r = row ∧ c = col then ch else w.buffer r c }

/-- The position in 16 bits, sent as high and low byte. -/
def updateCursor (w : Writer) : Writer :=
  { w with
    hwCursor := (UInt16.ofNat w.rowPosition * UInt16.ofNat bufferWidth
      + UInt16.ofNat w.columnPosition) }

def blank (w : Writer) : ScreenChar := ⟨0x20, w.colorCode⟩

def clearRow (w : Writer) (row : Nat) : Writer :=
  (List.range bufferWidth).foldl (fun w' col => w'.setChar row col w.blank) w

/-- Copies every row to the one above, from the top, and clears the last. -/
def shiftUp (w : Writer) : Writer :=
  let moved := (List.range' 1 (bufferHeight - 1)).foldl (fun w row =>
    (List.range bufferWidth).foldl (fun w col =>
      w.setChar (row - 1) col (w.buffer row col)) w) w
  moved.clearRow (bufferHeight - 1)

def newLine (w : Writer) : Writer :=
  let w := { w with columnPosition := 0 }
  let w :=
    if w.rowPosition < bufferHeight - 1 then { w with rowPosition := w.rowPosition + 1 }
    else w.shiftUp
  w.updateCursor

/-- The character at the cursor, which moves on by one column. -/
def putByte (w : Writer) (byte : UInt8) : Writer :=
  let w := w.setChar w.rowPosition w.columnPosition ⟨byte, w.colorCode⟩
  { w with columnPosition := w.columnPosition + 1 }.updateCursor

def writeByte (w : Writer) (byte : UInt8) : Writer :=
  if byte = 0x0A then w.newLine
  else
    let w := if w.columnPosition ≥ bufferWidth then w.newLine else w
    let w :=
      if w.rowPosition ≥ bufferHeight then
        { w.shiftUp with rowPosition := bufferHeight - 1 }
      else w
    w.putByte byte

/-- Bytes that are neither printable ASCII nor a newline are shown as 0xFE. -/
def shownByte (byte : UInt8) : UInt8 :=
  if (0x20 ≤ byte ∧ byte ≤ 0x7E) ∨ byte = 0x0A then byte else 0xFE

def writeString (w : Writer) (s : List UInt8) : Writer :=
  s.foldl (fun w byte => w.writeByte (shownByte byte)) w

/-- `write_fmt`: the formatted pieces, one `write_str` each. -/
def writeFmt (w : Writer) (pieces : List (List UInt8)) : Writer := pieces.foldl writeString w

def setColor (w : Writer) (foreground background : UInt8) : Writer :=
  { w with colorCode := (background <<< 4) ||| foreground }

def setPosition (w : Writer) (row col : Nat) : Writer :=
  let w :=
    if row < bufferHeight ∧ col < bufferWidth then
      { w with rowPosition := row, columnPosition := col }
    else w
  w.updateCursor

def clearScreen (w : Writer) : Writer :=
  { (List.range bufferHeight).foldl clearRow w with rowPosition := 0, columnPosition := 0 }

end Writer

end Neutrix.Vga
