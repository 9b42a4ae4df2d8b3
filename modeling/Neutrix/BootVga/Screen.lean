import Neutrix.BootVga.Layout
import Neutrix.Lib.LineWrap
import Neutrix.Lib.Run

/-!
# Neutrix — what the boot VGA screen shows

The lines of a text (`textLines`) are the lines of its pieces between
newlines, each broken after 80 bytes. The writer's layout of a text that
starts in the first column puts exactly these lines under each other
(`lineBreaks_typeset`, `charAt_typeset`), and what does not fit is scrolled
out at the top.

The buffer is an array of 25 arrays of 80 cells, and an index outside it
panics. The writer with these checks is written down again as partial
functions (`writeString?`), which return what the unchecked ones do.

* `writeString_shows_lines` — after clearing the screen, a text is written
  without a panic and the screen shows the last 25 of its lines.
-/

namespace Neutrix.Vga

open Neutrix.Lib

-- ---------------------------------------------------------------------------
-- Lines and layout
-- ---------------------------------------------------------------------------

/-- The lines of a text as they are shown. -/
def textLines (s : List UInt8) : List (List UInt8) :=
  (wrapLines 0x0A bufferWidth s).map (List.map Writer.shownByte)

theorem shownByte_eq_newline_iff (b : UInt8) : Writer.shownByte b = 0x0A ↔ b = 0x0A := by
  unfold Writer.shownByte
  split_ifs with hShown
  · exact Iff.rfl
  · exact iff_of_false (by decide) fun hNl => hShown (Or.inr hNl)

theorem typeset_shown (s : List UInt8) :
    typeset 0x0A bufferWidth [] (s.map Writer.shownByte) = textLines s := by
  rw [textLines, ← typeset_nil 0x0A (show 0 < bufferWidth by decide)]
  exact typeset_map shownByte_eq_newline_iff s []

theorem lineBreaks_typeset (bs line : List UInt8) :
    (typeset 0x0A bufferWidth line bs).length = lineBreaks line.length bs + 1 := by
  induction bs generalizing line with
  | nil => rfl
  | cons b rest ih =>
    rw [typeset, lineBreaks, advance]
    split_ifs
    · rw [List.length_cons, ih, List.length_nil, Nat.add_comm 1]
    · rw [List.length_cons, ih, List.length_singleton, Nat.add_comm 1]
    · rw [ih, List.length_append, List.length_singleton, Nat.zero_add]

theorem getElem?_concat_or (begun : List UInt8) (b : UInt8) (col : Nat) :
    (begun ++ [b])[col]? = (if col = begun.length then some b else none).or begun[col]? := by
  rcases Nat.lt_trichotomy col begun.length with hLt | rfl | hGt
  · rw [List.getElem?_append_left hLt, if_neg (Nat.ne_of_lt hLt), Option.none_or]
  · rw [List.getElem?_concat_length, if_pos rfl, Option.some_or]
  · rw [if_neg (Nat.ne_of_gt hGt), Option.none_or, List.getElem?_eq_none (Nat.le_of_lt hGt),
      List.getElem?_eq_none (by rw [List.length_append]; exact hGt)]

/-- The bytes of the text lie over those of the line begun before. -/
theorem charAt_typeset (bs begun : List UInt8) (row col : Nat) :
    ((typeset 0x0A bufferWidth begun bs).getD row [])[col]? =
      (charAt begun.length bs row col).or (if row = 0 then begun[col]? else none) := by
  induction bs generalizing begun row with
  | nil =>
    rw [typeset, charAt, Option.none_or]
    cases row <;> rfl
  | cons b rest ih =>
    rw [typeset, charAt, advance]
    by_cases hNl : b = 0x0A
    · rw [if_pos hNl, if_pos hNl]
      cases row with
      | zero => simp
      | succ row =>
        rw [List.getD_cons_succ, ih]
        simp [hNl]
    · rw [if_neg hNl, if_neg hNl]
      by_cases hFull : bufferWidth ≤ begun.length
      · -- a new line that begins with `b`
        rw [if_pos hFull, if_pos hFull]
        cases row with
        | zero => simp
        | succ row =>
          rw [List.getD_cons_succ, ih]
          have hFirst : (if row = 0 then [b][col]? else none) =
              if b ≠ 0x0A ∧ row + 1 = 1 ∧ col + 1 = 1 then some b else none := by
            rcases col with _ | col <;> simp [hNl]
          simp [hFirst]
      · rw [if_neg hFull, if_neg hFull, ih, List.length_append, List.length_singleton]
        have hLast : (if row = 0 then (begun ++ [b])[col]? else none) =
            (if b ≠ 0x0A ∧ row = 0 ∧ col + 1 = begun.length + 1 then some b else none).or
              (if row = 0 then begun[col]? else none) := by
          by_cases hRow : row = 0
          · simp [hRow, hNl, getElem?_concat_or]
          · simp [hRow]
        simp only [hLast, Nat.not_lt_zero, if_false, Nat.sub_zero, Option.or_assoc]

namespace Writer

variable {w : Writer}

-- ---------------------------------------------------------------------------
-- The writer with its index checks
-- ---------------------------------------------------------------------------

def getChar? (w : Writer) (row col : Nat) : Option ScreenChar :=
  if row < bufferHeight ∧ col < bufferWidth then some (w.buffer row col) else none

def setChar? (w : Writer) (row col : Nat) (ch : ScreenChar) : Option Writer :=
  if row < bufferHeight ∧ col < bufferWidth then some (w.setChar row col ch) else none

def clearRow? (w : Writer) (row : Nat) : Option Writer :=
  (List.range bufferWidth).foldlM (fun w' col => w'.setChar? row col w.blank) w

def shiftUp? (w : Writer) : Option Writer :=
  ((List.range' 1 (bufferHeight - 1)).foldlM (fun (w : Writer) row =>
    (List.range bufferWidth).foldlM (fun (w : Writer) col =>
      (w.getChar? row col).bind fun ch => w.setChar? (row - 1) col ch) w) w).bind
    fun moved => moved.clearRow? (bufferHeight - 1)

def newLine? (w : Writer) : Option Writer :=
  let w := { w with columnPosition := 0 }
  (if w.rowPosition < bufferHeight - 1 then some { w with rowPosition := w.rowPosition + 1 }
    else w.shiftUp?).map updateCursor

def putByte? (w : Writer) (byte : UInt8) : Option Writer :=
  (w.setChar? w.rowPosition w.columnPosition ⟨byte, w.colorCode⟩).map fun w =>
    { w with columnPosition := w.columnPosition + 1 }.updateCursor

def writeByte? (w : Writer) (byte : UInt8) : Option Writer :=
  if byte = 0x0A then w.newLine?
  else
    (if w.columnPosition ≥ bufferWidth then w.newLine? else some w).bind fun w =>
      (if w.rowPosition ≥ bufferHeight then
        w.shiftUp?.map fun w => { w with rowPosition := bufferHeight - 1 }
      else some w).bind fun w => w.putByte? byte

def writeString? (w : Writer) (s : List UInt8) : Option Writer :=
  s.foldlM (fun w byte => w.writeByte? (shownByte byte)) w

def clearScreen? (w : Writer) : Option Writer :=
  ((List.range bufferHeight).foldlM clearRow? w).map fun w =>
    { w with rowPosition := 0, columnPosition := 0 }

theorem clearRow?_eq (w : Writer) {row : Nat} (hRow : row < bufferHeight) :
    w.clearRow? row = some (w.clearRow row) := by
  refine foldlM_eq_some (P := fun _ => True) _ trivial fun w' _ col hCol => ⟨?_, trivial⟩
  exact if_pos ⟨hRow, List.mem_range.mp hCol⟩

theorem shiftUp?_eq (w : Writer) : w.shiftUp? = some w.shiftUp := by
  have hRows : (List.range' 1 (bufferHeight - 1)).foldlM (fun (w : Writer) row =>
      (List.range bufferWidth).foldlM (fun (w : Writer) col =>
        (w.getChar? row col).bind fun ch => w.setChar? (row - 1) col ch) w) w =
      some ((List.range' 1 (bufferHeight - 1)).foldl (fun w row =>
        (List.range bufferWidth).foldl (fun w col =>
          w.setChar (row - 1) col (w.buffer row col)) w) w) := by
    refine foldlM_eq_some (P := fun _ => True) _ trivial fun w _ row hRow => ⟨?_, trivial⟩
    obtain ⟨hLow, hHigh⟩ := List.mem_range'_1.mp hRow
    refine foldlM_eq_some (P := fun _ => True) _ trivial fun w _ col hCol => ⟨?_, trivial⟩
    have hCol := List.mem_range.mp hCol
    simp only [bufferHeight] at hHigh
    have hRead : row < bufferHeight := by simp only [bufferHeight]; omega
    have hWrite : row - 1 < bufferHeight := by simp only [bufferHeight]; omega
    rw [getChar?, if_pos ⟨hRead, hCol⟩, Option.bind_some, setChar?, if_pos ⟨hWrite, hCol⟩]
  rw [shiftUp?, hRows, Option.bind_some, clearRow?_eq _ (by decide), shiftUp]

theorem newLine?_eq (w : Writer) : w.newLine? = some w.newLine := by
  unfold newLine? newLine
  dsimp only
  rw [shiftUp?_eq]
  split_ifs <;> rfl

/-- The wrap comes before the byte, so the byte is put inside the buffer. -/
theorem writeByte?_eq (h : w.Ok) (b : UInt8) : w.writeByte? b = some (w.writeByte b) := by
  have hPut : ∀ w' : Writer, w'.rowPosition < bufferHeight → w'.columnPosition < bufferWidth →
      w'.putByte? b = some (w'.putByte b) := by
    intro w' hRow hCol
    rw [putByte?, setChar?, if_pos ⟨hRow, hCol⟩, Option.map_some]
    rfl
  by_cases hNl : b = 0x0A
  · rw [writeByte?, if_pos hNl, newLine?_eq, writeByte, if_pos hNl]
  · rw [writeByte?, if_neg hNl, writeByte_eq h hNl]
    by_cases hFull : w.columnPosition ≥ bufferWidth
    · have hLine := newLine_wrote h
      have hRow := (hLine.ok (Nat.zero_le _)).row
      have hCol : w.newLine.columnPosition < bufferWidth := by
        rw [hLine.col]
        decide
      rw [if_pos hFull, if_pos hFull, newLine?_eq, Option.bind_some,
        if_neg (Nat.not_le.mpr hRow), Option.bind_some, hPut _ hRow hCol]
    · rw [if_neg hFull, if_neg hFull, Option.bind_some, if_neg (Nat.not_le.mpr h.row),
        Option.bind_some, hPut _ h.row (Nat.lt_of_not_le hFull)]

theorem writeString?_eq (h : w.Ok) (s : List UInt8) :
    w.writeString? s = some (w.writeString s) := by
  refine foldlM_eq_some _ h fun w' hOk b _ => ⟨writeByte?_eq hOk _, ?_⟩
  exact (writeByte_wrote hOk _).ok (advance_col_le hOk.col _)

theorem clearScreen?_eq (w : Writer) : w.clearScreen? = some w.clearScreen := by
  have hRows : (List.range bufferHeight).foldlM clearRow? w =
      some ((List.range bufferHeight).foldl clearRow w) := by
    refine foldlM_eq_some (P := fun _ => True) _ trivial fun w' _ row hRow => ⟨?_, trivial⟩
    exact clearRow?_eq w' (List.mem_range.mp hRow)
  rw [clearScreen?, hRows, Option.map_some, clearScreen]

-- ---------------------------------------------------------------------------
-- The screen after clearing and writing
-- ---------------------------------------------------------------------------

/-- The byte of a list of lines in row `r` and column `c`, or a blank. -/
def shownAt (lines : List (List UInt8)) (r c : Nat) : UInt8 :=
  (lines.getD r []).getD c 0x20

theorem shownAt_drop (lines : List (List UInt8)) (k r c : Nat) :
    shownAt (lines.drop k) r c = ((lines.getD (r + k) [])[c]?).getD 0x20 := by
  have hDrop : (lines.drop k).getD r [] = lines.getD (r + k) [] := by
    rw [List.getD_eq_getElem?_getD, List.getElem?_drop, Nat.add_comm,
      ← List.getD_eq_getElem?_getD]
  rw [shownAt, hDrop, List.getD_eq_getElem?_getD]

theorem clearScreen_colorCode (w : Writer) : w.clearScreen.colorCode = w.colorCode := by
  rw [clearScreen, clearRows_eq]

/-- A cleared screen is blank, however far it is scrolled. -/
theorem clearScreen_scrolled (w : Writer) (out r : Nat) {c : Nat} (hc : c < bufferWidth) :
    w.clearScreen.scrolled out r c = ⟨0x20, w.colorCode⟩ := by
  rw [scrolled, blank, clearScreen_colorCode, clearScreen, clearRows_eq]
  by_cases hIn : r + out < bufferHeight
  · simp [hIn, hc, blank]
  · simp [hIn]

/-- **After `clear_screen` a text fills the screen from the top, and when it is too long
its last 25 lines are shown.** Every index is checked, no check fails, and the cursor
is in the row of the last line. -/
theorem writeString_shows_lines (w : Writer) (s : List UInt8) :
    let w' := w.clearScreen.writeString s
    let shown := (textLines s).drop ((textLines s).length - bufferHeight)
    (w.clearScreen?.bind fun cleared => cleared.writeString? s) = some w' ∧
    (∀ r < bufferHeight, ∀ c < bufferWidth,
      w'.buffer r c = ⟨shownAt shown r c, w.colorCode⟩) ∧
    w'.rowPosition = min (textLines s).length bufferHeight - 1 := by
  intro w' shown
  have hOk : w.clearScreen.Ok := ⟨Nat.zero_lt_succ 24, Nat.zero_le _⟩
  have hWrote := writeString_wrote hOk s
  have hBreaks : (textLines s).length = lineBreaks 0 (s.map shownByte) + 1 := by
    rw [← typeset_shown, lineBreaks_typeset, List.length_nil]
  have hChar : ∀ r c, ((textLines s).getD r [])[c]? =
      charAt 0 (s.map shownByte) r c := by
    intro r c
    rw [← typeset_shown, charAt_typeset]
    simp
  have hCol : w.clearScreen.columnPosition = 0 := rfl
  have hRow : w.clearScreen.rowPosition = 0 := rfl
  rw [hCol] at hWrote
  refine ⟨?_, fun r hr c hc => ?_, ?_⟩
  · rw [clearScreen?_eq, Option.bind_some, writeString?_eq hOk]
  · have hOut : w.clearScreen.rowPosition + lineBreaks 0 (s.map shownByte) - (bufferHeight - 1) =
        (textLines s).length - bufferHeight := by
      rw [hRow, hBreaks]
      simp only [bufferHeight]
      omega
    have hShown : shownAt shown r c =
        (charAt 0 (s.map shownByte) (r + ((textLines s).length - bufferHeight)) c).getD 0x20 :=
      (shownAt_drop _ _ r c).trans (congrArg (Option.getD · 0x20) (hChar _ c))
    rw [hWrote.buffer r hr c hc, laid, overlaid, hOut, hRow, if_neg (Nat.not_lt_zero _),
      Nat.sub_zero, clearScreen_scrolled w _ r hc, clearScreen_colorCode, hShown]
    -- the cleared screen shows through where the text has no byte
    cases charAt 0 (s.map shownByte) (r + ((textLines s).length - bufferHeight)) c <;> rfl
  · rw [hWrote.row, hRow, hBreaks]
    simp only [bufferHeight]
    omega

end Writer

end Neutrix.Vga
