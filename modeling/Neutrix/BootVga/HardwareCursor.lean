import Mathlib.Data.List.Basic
import Mathlib.Data.List.Induction
import Neutrix.BootVga.Layout

/-!
# Neutrix — the hardware cursor of the boot VGA writer

The position sent to the VGA ports is a second copy of the writer's
position. It is right when it is the cell in which the next printable byte
will be stored (`CursorRight`). A full line is wrapped by the byte after it,
so that cell is not always at the writer's position (`nextCell`).

The position sent is `row * 80 + col` (`Sent`). Behind the last column this
is already the first cell of the next row, but from the last row it is
outside the screen while the byte will go to the last row again. And
`clear_screen` moves the cursor without sending anything.

* `hardwareCursor_iff` — the cursor is right after every operation exactly
  when none fills the last row, or stays behind it, and nothing that sends no
  position changes the next cell or finds another position sent.
-/

namespace Neutrix.Vga.Writer

variable {w : Writer}

-- ---------------------------------------------------------------------------
-- The next cell
-- ---------------------------------------------------------------------------

/-- The wrap that a printable byte does first. -/
def wrapped (w : Writer) : Writer := if w.columnPosition ≥ bufferWidth then w.newLine else w

/-- Row and column of the cell in which the next printable byte is stored. -/
def nextCell (w : Writer) : Nat × Nat :=
  if w.columnPosition ≥ bufferWidth then (min (bufferHeight - 1) (w.rowPosition + 1), 0)
  else (w.rowPosition, w.columnPosition)

theorem nextCell_eq (h : w.Ok) :
    w.nextCell = (w.wrapped.rowPosition, w.wrapped.columnPosition) ∧
      w.wrapped.colorCode = w.colorCode := by
  unfold nextCell wrapped
  split_ifs with hFull
  · have hLine := newLine_wrote h
    exact ⟨Prod.ext hLine.row.symm hLine.col.symm, hLine.color⟩
  · exact ⟨rfl, rfl⟩

theorem nextCell_lt (h : w.Ok) : w.nextCell.1 < bufferHeight ∧ w.nextCell.2 < bufferWidth := by
  have hRow := h.row
  unfold nextCell
  split_ifs with hFull
  · exact ⟨Nat.lt_of_le_of_lt (Nat.min_le_left _ _) (by decide), Nat.zero_lt_succ 79⟩
  · exact ⟨hRow, Nat.lt_of_not_le hFull⟩

/-- A byte other than a newline changes its cell after the wrap, and nothing else. -/
theorem writeByte_buffer (h : w.Ok) {b : UInt8} (hNl : b ≠ 0x0A) (r c : Nat) :
    (w.writeByte b).buffer r c =
      if (r, c) = w.nextCell then ⟨b, w.colorCode⟩ else w.wrapped.buffer r c := by
  obtain ⟨hCell, hColor⟩ := nextCell_eq h
  have hWrite : w.writeByte b = w.wrapped.putByte b := by
    rw [writeByte_eq h hNl, wrapped]
    split_ifs <;> rfl
  rw [hWrite, hCell, ← hColor]
  simp only [putByte, updateCursor, setChar, Prod.mk.injEq]

-- ---------------------------------------------------------------------------
-- When the cursor is right
-- ---------------------------------------------------------------------------

/-- The position last sent is that of a cell on the screen, and the next printable byte
will be stored there. -/
def CursorRight (w : Writer) : Prop :=
  ∃ row < bufferHeight, ∃ col < bufferWidth,
    w.hwCursor.toNat = row * bufferWidth + col ∧
    ∀ b : UInt8, 0x20 ≤ b ∧ b ≤ 0x7E → (w.writeByte b).buffer row col = ⟨b, w.colorCode⟩

theorem cursorRight_iff (h : w.Ok) :
    w.CursorRight ↔ w.hwCursor.toNat = w.nextCell.1 * bufferWidth + w.nextCell.2 := by
  constructor
  · rintro ⟨row, -, col, -, hSent, hStored⟩
    have hCell : (row, col) = w.nextCell := by
      by_contra hOther
      -- elsewhere the screen does not depend on the byte
      have hA := hStored 0x41 (by decide)
      have hB := hStored 0x42 (by decide)
      rw [writeByte_buffer h (by decide), if_neg hOther] at hA hB
      have hSame : (0x41 : UInt8) = 0x42 :=
        congrArg ScreenChar.asciiCharacter (hA.symm.trans hB)
      exact absurd hSame (by decide)
    rw [← hCell]
    exact hSent
  · intro hSent
    obtain ⟨hRow, hCol⟩ := nextCell_lt h
    refine ⟨_, hRow, _, hCol, hSent, fun b hb => ?_⟩
    have hNl : b ≠ 0x0A := by
      rintro rfl
      exact absurd hb.1 (by decide)
    rw [writeByte_buffer h hNl, if_pos rfl]

/-- The position was sent after the last move. -/
def Sent (w : Writer) : Prop := w.updateCursor = w

theorem sent_updateCursor (w : Writer) : w.updateCursor.Sent := rfl

/-- A position that was sent is right but behind the last row. -/
theorem Sent.cursorRight_iff (hSent : w.Sent) (h : w.Ok) :
    w.CursorRight ↔ ¬ (w.rowPosition + 1 = bufferHeight ∧ w.columnPosition = bufferWidth) := by
  have hRow := h.row
  have hCol := h.col
  have hPos : w.hwCursor = UInt16.ofNat w.rowPosition * UInt16.ofNat bufferWidth +
      UInt16.ofNat w.columnPosition := (congrArg hwCursor hSent).symm
  have hNat : w.hwCursor.toNat = w.rowPosition * bufferWidth + w.columnPosition := by
    simp only [hPos, UInt16.toNat_add, UInt16.toNat_mul, UInt16.toNat_ofNat', bufferWidth,
      bufferHeight] at hRow hCol ⊢
    omega
  rw [Writer.cursorRight_iff h, hNat, nextCell]
  by_cases hFull : w.columnPosition ≥ bufferWidth
  · rw [if_pos hFull]
    simp only [bufferWidth, bufferHeight] at hRow hCol hFull ⊢
    omega
  · rw [if_neg hFull]
    exact iff_of_true rfl fun hLast => hFull (Nat.le_of_eq hLast.2.symm)

theorem newLine_sent (w : Writer) : w.newLine.Sent := by
  unfold newLine
  exact sent_updateCursor _

theorem writeByte_sent (w : Writer) (b : UInt8) : (w.writeByte b).Sent := by
  unfold writeByte
  by_cases hNl : b = 0x0A
  · rw [if_pos hNl]
    exact newLine_sent w
  · rw [if_neg hNl]
    exact sent_updateCursor _

theorem writeString_sent (w : Writer) {s : List UInt8} (hs : s ≠ []) : (w.writeString s).Sent := by
  obtain ⟨front, b, rfl⟩ := (List.eq_nil_or_concat' s).resolve_left hs
  rw [writeString, List.foldl_append, List.foldl_cons, List.foldl_nil]
  exact writeByte_sent _ _

-- ---------------------------------------------------------------------------
-- Operations
-- ---------------------------------------------------------------------------

/-- The public operations of the writer: single bytes and the calls of `Op`. -/
inductive CursorOp
  | writeByte (b : UInt8)
  | op (op : Op)

def applyCursor (w : Writer) : CursorOp → Writer
  | .writeByte b => w.writeByte b
  | .op op => w.apply op

/-- What has to hold before an operation for the cursor to be right after it. -/
def Follows (w : Writer) : CursorOp → Prop
  -- the byte does not fill the last row
  | .writeByte b =>
    ¬ (b ≠ 0x0A ∧ w.rowPosition + 1 = bufferHeight ∧ w.columnPosition + 1 = bufferWidth)
  -- nor does the text; without any text nothing is sent
  | .op (.writeString s) =>
    if s = [] then w.hwCursor.toNat = w.nextCell.1 * bufferWidth + w.nextCell.2
    else ¬ (bufferHeight ≤ w.rowPosition + lineBreaks w.columnPosition (s.map shownByte) + 1 ∧
      endColumn w.columnPosition (s.map shownByte) = bufferWidth)
  -- a position off the screen is refused, and the old one sent again
  | .op (.setPosition row col) =>
    (row < bufferHeight ∧ col < bufferWidth) ∨
      ¬ (w.rowPosition + 1 = bufferHeight ∧ w.columnPosition = bufferWidth)
  | .op (.setColor _ _) => w.hwCursor.toNat = w.nextCell.1 * bufferWidth + w.nextCell.2
  | .op .clearScreen => w.hwCursor = 0

theorem applyCursor_ok (h : w.Ok) (o : CursorOp) : (w.applyCursor o).Ok := by
  cases o with
  | writeByte b => exact (writeByte_wrote h b).ok (advance_col_le h.col b)
  | op op => exact apply_ok h op

theorem writeByte_right_iff (h : w.Ok) (b : UInt8) :
    (w.writeByte b).CursorRight ↔ w.Follows (.writeByte b) := by
  have hRow := h.row
  have hWrote := writeByte_wrote h b
  rw [(writeByte_sent w b).cursorRight_iff (applyCursor_ok h (.writeByte b)), hWrote.row,
    hWrote.col, Follows, advance]
  by_cases hNl : b = 0x0A
  · rw [if_pos hNl]
    exact iff_of_true (fun hLast => absurd hLast.2 (by decide)) fun hFill => hFill.1 hNl
  · rw [if_neg hNl]
    by_cases hFull : w.columnPosition ≥ bufferWidth
    · rw [if_pos hFull]
      refine iff_of_true (fun hLast => absurd hLast.2 (by decide)) fun hFill => ?_
      exact Nat.not_succ_le_self _ (hFill.2.2 ▸ hFull)
    · rw [if_neg hFull]
      simp only [bufferHeight, bufferWidth, ne_eq, hNl, not_false_eq_true, true_and] at hRow ⊢
      omega

theorem writeString_right_iff (h : w.Ok) (s : List UInt8) :
    (w.writeString s).CursorRight ↔ w.Follows (.op (.writeString s)) := by
  rw [Follows]
  by_cases hs : s = []
  · rw [if_pos hs, hs]
    exact cursorRight_iff h
  · have hRow := h.row
    have hWrote := writeString_wrote h s
    rw [if_neg hs, (writeString_sent w hs).cursorRight_iff (apply_ok h (.writeString s)),
      hWrote.row, hWrote.col]
    simp only [bufferHeight] at hRow ⊢
    omega

theorem setPosition_right_iff (h : w.Ok) (row col : Nat) :
    (w.setPosition row col).CursorRight ↔ w.Follows (.op (.setPosition row col)) := by
  have hSent : (w.setPosition row col).Sent := sent_updateCursor _
  rw [hSent.cursorRight_iff (apply_ok h (.setPosition row col)), Follows, setPosition]
  by_cases hIn : row < bufferHeight ∧ col < bufferWidth
  · refine iff_of_true ?_ (Or.inl hIn)
    simp only [if_pos hIn, updateCursor]
    omega
  · simp only [if_neg hIn, updateCursor, or_iff_right hIn]

/-- **Step.** -/
theorem applyCursor_right_iff (h : w.Ok) (o : CursorOp) :
    (w.applyCursor o).CursorRight ↔ w.Follows o := by
  match o with
  | .writeByte b => exact writeByte_right_iff h b
  | .op (.writeString s) => exact writeString_right_iff h s
  | .op (.setPosition row col) => exact setPosition_right_iff h row col
  | .op (.setColor foreground background) =>
    exact cursorRight_iff (w := w.setColor foreground background) ⟨h.row, h.col⟩
  | .op .clearScreen =>
    have hCursor : w.clearScreen.hwCursor = w.hwCursor := by rw [clearScreen, clearRows_eq]
    have hOk : w.clearScreen.Ok := apply_ok h .clearScreen
    show w.clearScreen.CursorRight ↔ w.hwCursor = 0
    have hCell : w.clearScreen.nextCell = (0, 0) := if_neg (Nat.not_le.mpr (Nat.zero_lt_succ 79))
    rw [cursorRight_iff hOk, hCursor, hCell, ← UInt16.toNat_inj]
    rfl

/-- **After every operation the position last sent is that of the cell in which the next
printable byte will be stored, iff every operation meets its condition on the writer
before it.** From every writer whose cursor is in the buffer, which every reachable
one is. -/
theorem hardwareCursor_iff (w : Writer) (h : w.Ok) (ops : List CursorOp) :
    (∀ before o, before ++ [o] <+: ops →
      ((before ++ [o]).foldl applyCursor w).CursorRight) ↔
    (∀ before o, before ++ [o] <+: ops → (before.foldl applyCursor w).Follows o) := by
  have hOk : ∀ before : List CursorOp, (before.foldl applyCursor w).Ok := by
    intro before
    induction before using List.reverseRecOn with
    | nil => exact h
    | append_singleton before o ih =>
      rw [List.foldl_append]
      exact applyCursor_ok ih o
  refine forall₃_congr fun before o _ => ?_
  rw [List.foldl_append]
  exact applyCursor_right_iff (hOk before) o

/-- The writer at boot. -/
def boot : Writer := ⟨24, 0, 0x0E, fun _ _ => ⟨0x20, 0⟩, 0⟩

theorem boot_ok : boot.Ok := ⟨by decide, by decide⟩

/-- The first byte after boot is followed. -/
theorem hardwareCursor_first_byte :
    boot.Ok ∧ ∀ before o, before ++ [o] <+: [CursorOp.writeByte 0x41] →
      ((before ++ [o]).foldl applyCursor boot).CursorRight := by
  refine ⟨boot_ok, (hardwareCursor_iff boot boot_ok _).mpr fun before o hPre => ?_⟩
  obtain ⟨rfl, rfl⟩ : before = [] ∧ CursorOp.writeByte 0x41 = o := by
    rcases before with _ | ⟨x, rest⟩
    · simpa [eq_comm] using hPre
    · simp at hPre
  exact fun hFull => absurd hFull.2.2 (by decide)

/-- After clearing the screen the cursor stays behind the byte that was written before:
position 1921, where the next byte goes to position 0. -/
theorem clearScreen_keeps_cursor :
    ([CursorOp.writeByte 0x41, .op .clearScreen].foldl applyCursor boot).hwCursor = 1921 ∧
    ([CursorOp.writeByte 0x41, .op .clearScreen].foldl applyCursor boot).nextCell = (0, 0) ∧
    ¬ ([CursorOp.writeByte 0x41, .op .clearScreen].foldl applyCursor boot).CursorRight := by
  have hSent : ([CursorOp.writeByte 0x41].foldl applyCursor boot).hwCursor = 1921 := by decide
  have hOk := applyCursor_ok boot_ok (.writeByte 0x41)
  refine ⟨by decide +kernel, by decide +kernel, fun hRight => ?_⟩
  have hZero := (applyCursor_right_iff hOk (.op .clearScreen)).mp hRight
  exact absurd (hSent.symm.trans hZero) (by decide)

end Neutrix.Vga.Writer
