import Mathlib.Logic.Function.Basic
import Neutrix.Drivers.ConsoleCursor
import Neutrix.Drivers.TextScreen

/-!
# Neutrix — the text grid

The abstract view of the console is a grid of characters with a cursor
(`TextGrid`): a character replaces what was in its cell, the scroll moves
the rows up, a backspace blanks the cell it goes back to. The console has
the cursor of the grid (`newlineScroll_console`, `backspace_eq`) but not its
characters. What it has is pixels, 9 by 8 of them for each cell, and each
drawing call of `console.rs` comes with what it does to them
(`cellPixel_rect`, `cellPixel_clear`, `cellPixel_char`,
`cellPixel_newlineScroll`).
-/

namespace Neutrix

open Neutrix.Lib

-- ---------------------------------------------------------------------------
-- The text
-- ---------------------------------------------------------------------------

/-- Every pixel of glyph `a` is one of glyph `b`. -/
def GlyphWithin (a b : UInt8) : Prop := ∀ i < 9, ∀ j < 8, glyphBit a i j → glyphBit b i j

/-- Characters by row and column, and the position of the next one. -/
structure TextGrid where
  cells : Nat → Nat → UInt8
  curX  : Nat
  curY  : Nat

namespace TextGrid

/-- Nothing but spaces. -/
def blank : TextGrid := ⟨fun _ _ => 0x20, 0, 0⟩

variable (cols rows : Nat) (g : TextGrid)

def scroll : TextGrid :=
  { g with cells := fun row => if row + 1 < rows then g.cells (row + 1) else fun _ => 0x20 }

def newline : TextGrid :=
  if g.curY + 1 < rows then { g with curX := 0, curY := g.curY + 1 }
  else { g.scroll rows with curX := 0, curY := rows - 1 }

/-- The character replaces the one at the cursor. -/
def write (ch : UInt8) : TextGrid :=
  { g with cells := Function.update g.cells g.curY (Function.update (g.cells g.curY) g.curX ch) }

/-- One step back, to the end of the line above if need be. -/
def stepBack : TextGrid :=
  if 0 < g.curX then { g with curX := g.curX - 1 }
  else if 0 < g.curY then { g with curX := cols - 1, curY := g.curY - 1 }
  else g

def back : TextGrid := (g.stepBack cols).write 0x20

def put (ch : UInt8) : TextGrid :=
  if g.curX + 1 < cols then { g.write ch with curX := g.curX + 1 } else (g.write ch).newline rows

def byte (b : UInt8) : TextGrid :=
  if b = 0x0A then g.newline rows
  else if b = 0x0D then { g with curX := 0 }
  else if b = 8 then g.back cols
  else g.put cols rows b

def call : Display.Call → TextGrid
  | .print s => s.foldl (byte cols rows) g
  | .setCursor col row => { g with curX := min col (cols - 1), curY := min row (rows - 1) }
  | .setColors _ _ => g
  | .clear => blank

/-- The cursor is in the grid. -/
def Inside : Prop := g.curX < cols ∧ g.curY < rows

variable {cols rows g}

theorem inside_newline (h : g.Inside cols rows) : (g.newline rows).Inside cols rows := by
  have hX := Nat.zero_lt_of_lt h.1
  have hY := h.2
  unfold newline Inside
  split <;> dsimp only <;> omega

theorem inside_back (h : g.Inside cols rows) : (g.back cols).Inside cols rows := by
  have hX := h.1
  have hY := h.2
  unfold back stepBack write Inside
  split_ifs <;> dsimp only <;> omega

theorem inside_put (h : g.Inside cols rows) (ch : UInt8) :
    (g.put cols rows ch).Inside cols rows := by
  have hWrite : (g.write ch).Inside cols rows := h
  unfold put
  split_ifs with hX
  · exact ⟨hX, h.2⟩
  · exact inside_newline hWrite

/-- The console with the grid's cursor. -/
def console (g : TextGrid) (c : Console) : Console := { c with curX := g.curX, curY := g.curY }

theorem newlineScroll_console (vbe : Option VbeVga) (c : Console) (mem : Memory) :
    (Console.newlineScroll vbe (g.console c) mem).1 = (g.newline c.rows).console c := by
  unfold Console.newlineScroll Console.scrollMut newline
  dsimp only [Console.newline, console]
  by_cases hLine : g.curY + 1 < c.rows
  · rw [if_pos hLine, if_neg (Nat.not_le.mpr hLine)]
  · rw [if_neg hLine, if_pos (Nat.le_of_not_lt hLine), if_neg Nat.one_ne_zero]
    split <;> rfl

/-- A backspace fills the cell it goes back to. -/
theorem backspace_eq (vbe : Option VbeVga) (fb : Nat) (c : Console) (mem : Memory) :
    Console.backspace vbe fb (g.console c) mem = ((g.back c.cols).console c,
      Console.drawRectAt vbe mem fb ((g.stepBack c.cols).curX * c.charW)
        ((g.stepBack c.cols).curY * c.charH) c.charW c.charH c.bg) := by
  simp only [Console.backspace, back, stepBack, write, console]
  by_cases hX : 0 < g.curX
  · simp only [gt_iff_lt, if_pos hX]
  · simp only [gt_iff_lt, if_neg hX]
    split_ifs <;> rfl

theorem cells_stepBack : (g.stepBack cols).cells = g.cells := by
  unfold stepBack
  split_ifs <;> rfl

theorem inside_stepBack (h : g.Inside cols rows) : (g.stepBack cols).Inside cols rows :=
  inside_back h

theorem curY_write (ch : UInt8) : (g.write ch).curY = g.curY := rfl

/-- A character written to the cell at the cursor, and the other cells. -/
theorem cells_write (ch : UInt8) (row col : Nat) :
    (g.write ch).cells row col = if row = g.curY ∧ col = g.curX then ch else g.cells row col := by
  simp only [write, Function.update_apply]
  split_ifs <;> simp_all

/-- The character is written over one it does not cover, and its cell stays in
sight: the scroll of a console of one row clears the cell again. -/
def Overdraws (cols rows : Nat) (g : TextGrid) (ch : UInt8) : Prop :=
  ¬ GlyphWithin (g.cells g.curY g.curX) ch ∧ ¬ (rows = 1 ∧ g.curX + 1 = cols)

end TextGrid

-- ---------------------------------------------------------------------------
-- The cells
-- ---------------------------------------------------------------------------

theorem glyphBit_space (i j : Nat) : glyphBit 0x20 i j = false := by
  have hGlyph : VbeVga.getGlyph 0x20 = some (some (List.replicate 8 0)) := by decide
  have hZero : (List.replicate 8 (0 : UInt8)).getD j 0 = 0 := by
    rw [List.getD_eq_getElem?_getD, List.getElem?_replicate]
    split <;> rfl
  simp only [glyphBit, hGlyph, hZero]
  simp

/-- The space has no pixel, so every character covers it. -/
theorem glyphWithin_space (ch : UInt8) : GlyphWithin 0x20 ch := by
  intro i _ j _ hBit
  rw [glyphBit_space] at hBit
  contradiction

namespace TextScreen

variable (S : TextScreen)

/-- A console made for the screen. -/
structure Fits (c : Console) : Prop where
  fbVirt : c.fbVirt = S.fb
  cols   : c.cols = S.width / 9
  rows   : c.rows = S.height / 8
  charW  : c.charW = 9
  charH  : c.charH = 8

/-- Pixel `(i, j)` of a cell. -/
def cellPixel (mem : Memory) (row col i j : Nat) : UInt32 := S.pixel mem (col * 9 + i) (row * 8 + j)

/-- The cell shows its character, in the foreground colour on the background colour. -/
def CellShows (c : Console) (mem : Memory) (g : TextGrid) (row col : Nat) : Prop :=
  ∀ i < 9, ∀ j < 8,
    S.cellPixel mem row col i j = if glyphBit (g.cells row col) i j then c.fg else c.bg

/-- Every cell shows its character. -/
def Rendered (c : Console) (mem : Memory) (g : TextGrid) : Prop :=
  ∀ row < c.rows, ∀ col < c.cols, S.CellShows c mem g row col

/-- There is room for a character. -/
theorem text_pos : 0 < S.width / 9 ∧ 0 < S.height / 8 :=
  ⟨Nat.div_pos S.wide (by decide), Nat.div_pos S.high (by decide)⟩

variable {S} {c : Console} {mem : Memory}

theorem Fits.cell_lt (h : S.Fits c) {col i : Nat} (hCol : col < c.cols) (hI : i < 9) :
    col * 9 + i < S.width := by
  have := h.cols
  omega

theorem Fits.cell_fits (h : S.Fits c) {col : Nat} (hCol : col < c.cols) :
    col * 9 + 9 ≤ S.width := by
  have := h.cols
  omega

/-- A cell filled with a colour. -/
theorem cellPixel_rect (h : S.Fits c) {x : Nat} (hX : x < c.cols) (y : Nat) (color : UInt32)
    {row col i j : Nat} (hCol : col < c.cols) (hI : i < 9) (hJ : j < 8) :
    S.cellPixel (Console.drawRectAt (some S.drv) mem S.fb (x * 9) (y * 8) 9 8 color) row col i j =
      if row = y ∧ col = x then color else S.cellPixel mem row col i j := by
  have hPaint := rect_paints (h.cell_fits hX) (y * 8) 8 color mem
    ⟨(col * 9 + i, row * 8 + j), h.cell_lt hCol hI⟩
  dsimp only at hPaint
  split_ifs with hCell
  · exact hPaint.1 (by omega)
  · exact hPaint.2 (by omega)

/-- The whole text area filled with a colour. -/
theorem cellPixel_clear (h : S.Fits c) (color : UInt32) {row col i j : Nat} (hRow : row < c.rows)
    (hCol : col < c.cols) (hI : i < 9) (hJ : j < 8) :
    S.cellPixel (Console.drawRectAt (some S.drv) mem c.fbVirt 0 0 (c.cols * c.charW)
      (c.rows * c.charH) color) row col i j = color := by
  have hWide : 0 + c.cols * 9 ≤ S.width := by
    have := h.cols
    omega
  rw [h.fbVirt, h.charW, h.charH]
  exact (rect_paints hWide 0 (c.rows * 8) color mem
    ⟨(col * 9 + i, row * 8 + j), h.cell_lt hCol hI⟩).1 (by dsimp only; omega)

/-- A character drawn into a cell. -/
theorem cellPixel_char (h : S.Fits c) (mem : Memory) {x : Nat} (hX : x < c.cols) (y : Nat)
    {ch : UInt8} {glyph : List UInt8} (hGlyph : VbeVga.getGlyph ch = some (some glyph))
    (color : UInt32) :
    ∃ mem', Console.drawCharAt (some S.drv) mem S.fb (x * 9) (y * 8) ch color = some mem' ∧
      ∀ {row col i j : Nat}, col < c.cols → i < 9 → j < 8 → S.cellPixel mem' row col i j =
        if (row = y ∧ col = x) ∧ glyphBit ch i j then color else S.cellPixel mem row col i j := by
  have hFits := h.cell_fits hX
  obtain ⟨draw, hDraw, hPaint⟩ := char_paints (S := S) (x := x * 9) (by omega) (y * 8) hGlyph color
  refine ⟨draw mem, hDraw mem, fun {row col i j} hCol hI hJ => ?_⟩
  have hAt := hPaint mem ⟨(col * 9 + i, row * 8 + j), h.cell_lt hCol hI⟩
  split_ifs with hCell
  · obtain ⟨⟨rfl, rfl⟩, hBit⟩ := hCell
    -- column 8 is blank in every glyph
    have hI' : i < 8 := by
      by_contra hNot
      simp [glyphBit, hGlyph, hNot] at hBit
    exact hAt.1 ⟨i, hI', j, hJ, hBit, rfl⟩
  · refine hAt.2 ?_
    rintro ⟨i', hI', j', hJ', hBit, hEq⟩
    simp only [Prod.mk.injEq] at hEq
    obtain rfl : col = x := by omega
    obtain rfl : row = y := by omega
    obtain rfl : i = i' := by omega
    obtain rfl : j = j' := by omega
    exact hCell ⟨⟨rfl, rfl⟩, hBit⟩

/-- A new line, with the scroll at the end of the text area. -/
theorem cellPixel_newlineScroll (h : S.Fits c) (g : TextGrid) {row col i j : Nat}
    (hRow : row < c.rows) (hCol : col < c.cols) (hI : i < 9) (hJ : j < 8) :
    S.cellPixel (Console.newlineScroll (some S.drv) (g.console c) mem).2 row col i j =
      if g.curY + 1 < c.rows then S.cellPixel mem row col i j
      else if row + 1 < c.rows then S.cellPixel mem (row + 1) col i j
      else c.bg := by
  unfold Console.newlineScroll
  dsimp only [Console.newline, TextGrid.console]
  by_cases hLine : g.curY + 1 < c.rows
  · rw [if_pos hLine, if_neg (Nat.not_le.mpr hLine)]
  · rw [if_neg hLine, if_pos (Nat.le_of_not_lt hLine)]
    by_cases hOne : 1 < c.rows
    · have hScroll := pixel_scroll (c := { c with curX := 0, curY := g.curY + 1 }) h.fbVirt h.charH
        hOne mem ⟨(col * 9 + i, row * 8 + j), h.cell_lt hCol hI⟩
      dsimp only at hScroll
      refine Eq.trans hScroll ?_
      by_cases hMoved : row + 1 < c.rows
      · rw [if_pos hMoved, if_pos (by omega), cellPixel]
        congr 1
        omega
      · rw [if_neg hMoved, if_neg (by omega), if_pos (by omega)]
    · -- a console of one row is cleared
      rw [Console.scrollMut, if_neg Nat.one_ne_zero, if_pos (Nat.le_of_not_lt hOne),
        if_neg (by omega)]
      exact cellPixel_clear h c.bg hRow hCol hI hJ

end TextScreen

end Neutrix
