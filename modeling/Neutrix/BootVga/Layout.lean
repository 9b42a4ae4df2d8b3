import Mathlib.Tactic.SplitIfs
import Neutrix.BootVga.VgaBuffer

/-!
# Neutrix — where the boot VGA writer puts a text

The writer works cell by cell: it moves the cursor, wraps, scrolls. This
module says what a whole text does. Its layout depends only on the column it
starts in: `lineBreaks` counts the lines it moves down, `endColumn` is the
column it ends in, and `charAt` is the byte it puts in a column of one of
its lines. `Wrote` describes a writer after a write in these terms, with every
row that the breaks push past the bottom scrolled out at the top; such
descriptions compose (`Wrote.trans`), and `writeString_wrote` gives the one of
a whole text.
-/

namespace Neutrix.Vga

-- ---------------------------------------------------------------------------
-- Layout of a text
-- ---------------------------------------------------------------------------

/-- Lines moved down, and column reached, by one byte written in column `col`. -/
def advance (col : Nat) (b : UInt8) : Nat × Nat :=
  if b = 0x0A then (1, 0)
  else if col ≥ bufferWidth then (1, 1)
  else (0, col + 1)

def lineBreaks : Nat → List UInt8 → Nat
  | _, [] => 0
  | col, b :: bs => (advance col b).1 + lineBreaks (advance col b).2 bs

def endColumn : Nat → List UInt8 → Nat
  | col, [] => col
  | col, b :: bs => endColumn (advance col b).2 bs

/-- The byte put in column `c` of the `line`-th line of the text. -/
def charAt : Nat → List UInt8 → Nat → Nat → Option UInt8
  | _, [], _, _ => none
  | col, b :: bs, line, c =>
    (if line < (advance col b).1 then none
      else charAt (advance col b).2 bs (line - (advance col b).1) c).or
    (if b ≠ 0x0A ∧ line = (advance col b).1 ∧ c + 1 = (advance col b).2 then some b else none)

theorem advance_col_le {col : Nat} (h : col ≤ bufferWidth) (b : UInt8) :
    (advance col b).2 ≤ bufferWidth := by
  unfold advance
  split_ifs <;> simp only [bufferWidth] at * <;> omega

theorem endColumn_le {col : Nat} (h : col ≤ bufferWidth) (bs : List UInt8) :
    endColumn col bs ≤ bufferWidth := by
  induction bs generalizing col with
  | nil => exact h
  | cons b bs ih => exact ih (advance_col_le h b)

namespace Writer

-- ---------------------------------------------------------------------------
-- Scrolling
-- ---------------------------------------------------------------------------

/-- A row filled column by column, with values that do not depend on the row. -/
theorem fillRow_eq (w : Writer) (row n : Nat) (val : Writer → Nat → ScreenChar)
    (hVal : ∀ w' col, (∀ r ≠ row, ∀ c, w'.buffer r c = w.buffer r c) → val w' col = val w col) :
    (List.range n).foldl (fun w' col => w'.setChar row col (val w' col)) w =
      { w with buffer := fun r c => if r = row ∧ c < n then val w c else w.buffer r c } := by
  induction n with
  | zero => simp
  | succ n ih =>
    rw [List.range_succ, List.foldl_append, ih]
    have hLastVal := hVal
      { w with buffer := fun r c => if r = row ∧ c < n then val w c else w.buffer r c } n
      (fun r hr c => by simp [hr])
    simp only [List.foldl_cons, List.foldl_nil, hLastVal, setChar, Writer.mk.injEq, true_and,
      and_true]
    funext r c
    by_cases hLast : r = row ∧ c = n
    · simp [hLast]
    · have hIff : (r = row ∧ c < n + 1) ↔ (r = row ∧ c < n) := by omega
      simp only [if_neg hLast, hIff]

theorem clearRow_eq (w : Writer) (row : Nat) :
    w.clearRow row =
      { w with buffer := fun r c => if r = row ∧ c < bufferWidth then w.blank else w.buffer r c } :=
  fillRow_eq w row bufferWidth (fun _ _ => w.blank) fun _ _ _ => rfl

theorem clearRows_eq (w : Writer) (n : Nat) :
    (List.range n).foldl clearRow w =
      { w with buffer := fun r c => if r < n ∧ c < bufferWidth then w.blank else w.buffer r c } := by
  induction n with
  | zero => simp
  | succ n ih =>
    rw [List.range_succ, List.foldl_append, ih, List.foldl_cons, List.foldl_nil, clearRow_eq]
    simp only [Writer.mk.injEq, true_and, and_true]
    funext r c
    by_cases hLast : r = n
    · by_cases hCol : c < bufferWidth <;> simp [hLast, hCol, blank]
    · have hIff : r < n + 1 ↔ r < n := by omega
      simp [hLast, hIff]

/-- The rows 1 to `n` copied up, from the top. -/
theorem copyRows_eq (w : Writer) (n : Nat) :
    (List.range' 1 n).foldl (fun w row =>
      (List.range bufferWidth).foldl (fun w col =>
        w.setChar (row - 1) col (w.buffer row col)) w) w =
      { w with buffer := fun r c =>
          if r < n ∧ c < bufferWidth then w.buffer (r + 1) c else w.buffer r c } := by
  induction n with
  | zero => simp
  | succ n ih =>
    rw [List.range'_1_concat, List.foldl_append, ih]
    have hRow : 1 + n = n + 1 := Nat.add_comm 1 n
    have hCopy := fun w : Writer => fillRow_eq w n bufferWidth
      (fun w' col => w'.buffer (n + 1) col)
      (fun w' col hBuf => hBuf (n + 1) (Nat.succ_ne_self n) col)
    simp only [List.foldl_cons, List.foldl_nil, hRow, Nat.add_sub_cancel, hCopy,
      Writer.mk.injEq, true_and, and_true]
    funext r c
    by_cases hr : r = n
    · subst hr
      have hBelow : ¬ r + 1 < r := by omega
      by_cases hc : c < bufferWidth <;> simp [hc, hBelow]
    · have hIff : r < n + 1 ↔ r < n := by omega
      simp [hr, hIff]

theorem shiftUp_eq (w : Writer) :
    w.shiftUp =
      { w with buffer := fun r c =>
          if c < bufferWidth ∧ r < bufferHeight - 1 then w.buffer (r + 1) c
          else if c < bufferWidth ∧ r = bufferHeight - 1 then w.blank
          else w.buffer r c } := by
  unfold shiftUp
  rw [copyRows_eq, clearRow_eq]
  simp only [Writer.mk.injEq, true_and, and_true]
  funext r c
  by_cases hc : c < bufferWidth
  · by_cases hr : r = bufferHeight - 1
    · simp [hc, hr, blank]
    · simp [hc, hr]
  · simp [hc]

/-- The cursor is in the buffer, or right after the last column of its row. -/
structure Ok (w : Writer) : Prop where
  row : w.rowPosition < bufferHeight
  col : w.columnPosition ≤ bufferWidth

/-- The cell of `w` that is in row `r` after `n` rows were scrolled out. -/
def scrolled (w : Writer) (n r c : Nat) : ScreenChar :=
  if r + n < bufferHeight then w.buffer (r + n) c else w.blank

variable {w : Writer}

-- ---------------------------------------------------------------------------
-- Writing
-- ---------------------------------------------------------------------------

/-- Cell of `w` after `out` rows were scrolled out, with the bytes `marks` put on
the lines from that of the cursor on. -/
def overlaid (w : Writer) (out : Nat) (marks : Nat → Nat → Option UInt8) (r c : Nat) : ScreenChar :=
  match (if r + out < w.rowPosition then none else marks (r + out - w.rowPosition) c) with
  | some b => ⟨b, w.colorCode⟩
  | none => w.scrolled out r c

/-- Cell of `w` after `brk` line breaks, with `marks` put on the lines passed. -/
def laid (w : Writer) (brk : Nat) (marks : Nat → Nat → Option UInt8) : Nat → Nat → ScreenChar :=
  w.overlaid (w.rowPosition + brk - (bufferHeight - 1)) marks

/-- `w'` is `w` moved `brk` lines down to column `col`, with `marks` put on the way. -/
structure Wrote (w w' : Writer) (brk col : Nat) (marks : Nat → Nat → Option UInt8) : Prop where
  row    : w'.rowPosition = min (bufferHeight - 1) (w.rowPosition + brk)
  col    : w'.columnPosition = col
  color  : w'.colorCode = w.colorCode
  within : ∀ line c b, marks line c = some b → line ≤ brk
  buffer : ∀ r < bufferHeight, ∀ c < bufferWidth, w'.buffer r c = w.laid brk marks r c

theorem Wrote.ok {w' : Writer} {brk col : Nat} {marks : Nat → Nat → Option UInt8}
    (h : Wrote w w' brk col marks) (hCol : col ≤ bufferWidth) : w'.Ok := by
  refine ⟨?_, ?_⟩
  · rw [h.row]
    exact Nat.lt_of_le_of_lt (Nat.min_le_left _ _) (by decide)
  · rw [h.col]
    exact hCol

theorem Wrote.congr {w' : Writer} {brk col : Nat} {m m' : Nat → Nat → Option UInt8}
    (h : Wrote w w' brk col m) (hm : ∀ line c, m line c = m' line c) : Wrote w w' brk col m' := by
  obtain rfl : m = m' := funext fun line => funext (hm line)
  exact h

theorem wrote_nil (h : w.Ok) : Wrote w w 0 w.columnPosition fun _ _ => none := by
  have hRow := h.row
  simp only [bufferHeight] at hRow
  have hNone : w.rowPosition - (bufferHeight - 1) = 0 := by simp only [bufferHeight]; omega
  refine ⟨?_, rfl, rfl, (fun _ _ _ hb => nomatch hb), fun r hr c _ => ?_⟩
  · simp only [bufferHeight]
    omega
  · simp only [laid, overlaid, Nat.add_zero, hNone, ite_self, scrolled, if_pos hr]

/-- What scrolling leaves of a write: its cells, scrolled that much further. -/
theorem Wrote.scrolled_eq {w' : Writer} {k col : Nat} {m : Nat → Nat → Option UInt8}
    (hOk : w.Ok) (h : Wrote w w' k col m) {c : Nat} (hc : c < bufferWidth) (n r : Nat) :
    w'.scrolled n r c = w.overlaid (n + (w.rowPosition + k - (bufferHeight - 1))) m r c := by
  have hRow := hOk.row
  generalize hOut : w.rowPosition + k - (bufferHeight - 1) = out
  unfold scrolled overlaid
  rw [← Nat.add_assoc]
  by_cases hIn : r + n < bufferHeight
  · rw [if_pos hIn, h.buffer _ hIn c hc, laid, hOut, overlaid, scrolled, scrolled, ← Nat.add_assoc]
  · -- below the buffer the write put nothing
    have hNoMark : m (r + n + out - w.rowPosition) c = none := by
      rcases hm : m (r + n + out - w.rowPosition) c with _ | b
      · rfl
      · have := h.within _ _ _ hm
        omega
    rw [if_neg hIn, hNoMark, ite_self, scrolled, if_neg (by omega), blank, blank, h.color]

/-- **Two writes in a row.** The second's marks lie on top of the first's. -/
theorem Wrote.trans {w' w'' : Writer} {k k' col col' : Nat} {m m' : Nat → Nat → Option UInt8}
    (hOk : w.Ok) (h : Wrote w w' k col m) (h' : Wrote w' w'' k' col' m') :
    Wrote w w'' (k + k') col' fun line c =>
      (if line < k then none else m' (line - k) c).or (m line c) := by
  have hRow := hOk.row
  have hRow' := h.row
  refine ⟨?_, h'.col, h'.color.trans h.color, ?_, ?_⟩
  · rw [h'.row, hRow']
    omega
  · intro line c b hb
    rcases Option.or_eq_some_iff.mp hb with hSecond | ⟨_, hFirst⟩
    · split_ifs at hSecond with hLine
      have := h'.within _ _ _ hSecond
      omega
    · have := h.within _ _ _ hFirst
      omega
  · intro r hr c hc
    rw [h'.buffer r hr c hc, laid, laid, overlaid, h.scrolled_eq hOk hc, h.color]
    -- the rows scrolled out add up, and so do the lines passed
    have hOut : w.rowPosition + (k + k') - (bufferHeight - 1) =
        (w'.rowPosition + k' - (bufferHeight - 1)) + (w.rowPosition + k - (bufferHeight - 1)) := by
      omega
    have hEdge : w'.rowPosition + (w.rowPosition + k - (bufferHeight - 1)) = w.rowPosition + k := by
      omega
    rw [hOut]
    generalize w'.rowPosition + k' - (bufferHeight - 1) = out'
    generalize w.rowPosition + k - (bufferHeight - 1) = out at hEdge
    have hLine : r + out' - w'.rowPosition = r + (out' + out) - w.rowPosition - k := by omega
    have hMark : (if r + out' < w'.rowPosition then none else m' (r + out' - w'.rowPosition) c) =
        (if r + (out' + out) < w.rowPosition then none
          else if r + (out' + out) - w.rowPosition < k then none
          else m' (r + (out' + out) - w.rowPosition - k) c) := by
      rw [hLine]
      split_ifs <;> first | rfl | omega
    rw [hMark]
    unfold overlaid
    by_cases hAbove : r + (out' + out) < w.rowPosition
    · simp only [if_pos hAbove]
    · simp only [if_neg hAbove]
      cases (if r + (out' + out) - w.rowPosition < k then none
        else m' (r + (out' + out) - w.rowPosition - k) c) <;> rfl

/-- A new line moves down, and scrolls once at the bottom. -/
theorem newLine_wrote (h : w.Ok) : Wrote w w.newLine 1 0 fun _ _ => none := by
  have hRow := h.row
  simp only [bufferHeight] at hRow
  unfold newLine
  dsimp only
  split_ifs with hUp
  · simp only [bufferHeight] at hUp
    have hNone : w.rowPosition + 1 - (bufferHeight - 1) = 0 := by simp only [bufferHeight]; omega
    refine ⟨?_, rfl, rfl, (fun _ _ _ hb => nomatch hb), fun r hr c _ => ?_⟩
    · simp only [updateCursor, bufferHeight]
      omega
    · simp only [updateCursor, laid, overlaid, hNone, ite_self, scrolled, Nat.add_zero, if_pos hr]
  · simp only [bufferHeight] at hUp
    have hOne : w.rowPosition + 1 - (bufferHeight - 1) = 1 := by simp only [bufferHeight]; omega
    rw [shiftUp_eq]
    refine ⟨?_, rfl, rfl, (fun _ _ _ hb => nomatch hb), fun r hr c hc => ?_⟩
    · simp only [updateCursor, bufferHeight]
      omega
    · simp only [updateCursor, laid, overlaid, hOne, ite_self, scrolled, hc, true_and, blank]
      by_cases hLast : r < bufferHeight - 1
      · rw [if_pos hLast, if_pos (by omega)]
      · rw [if_neg hLast, if_pos (by omega), if_neg (by omega)]

theorem writeByte_eq (h : w.Ok) {b : UInt8} (hNl : b ≠ 0x0A) :
    w.writeByte b =
      if w.columnPosition ≥ bufferWidth then w.newLine.putByte b else w.putByte b := by
  unfold writeByte
  rw [if_neg hNl]
  by_cases hFull : w.columnPosition ≥ bufferWidth
  · have hOk := (newLine_wrote h).ok (Nat.zero_le _)
    simp only [if_pos hFull, if_neg (Nat.not_le.mpr hOk.row)]
  · simp only [if_neg hFull, if_neg (Nat.not_le.mpr h.row)]

/-- The byte in one cell. -/
def mark (b : UInt8) (line col : Nat) : Nat → Nat → Option UInt8 :=
  fun l c => if l = line ∧ c = col then some b else none

theorem putByte_wrote (h : w.Ok) (b : UInt8) :
    Wrote w (w.putByte b) 0 (w.columnPosition + 1) (mark b 0 w.columnPosition) := by
  have hRow := h.row
  simp only [bufferHeight] at hRow
  have hNone : w.rowPosition - (bufferHeight - 1) = 0 := by simp only [bufferHeight]; omega
  refine ⟨?_, rfl, rfl, ?_, ?_⟩
  · simp only [putByte, updateCursor, setChar, bufferHeight]
    omega
  · intro line c b' hb
    simp only [mark] at hb
    split_ifs at hb with hAt
    exact Nat.le_of_eq hAt.1
  · intro r hr c _
    simp only [putByte, updateCursor, setChar, laid, overlaid, Nat.add_zero, hNone, scrolled, if_pos hr, mark]
    by_cases hAbove : r < w.rowPosition
    · have hNe : ¬ (r = w.rowPosition ∧ c = w.columnPosition) := by omega
      simp only [if_pos hAbove, if_neg hNe]
    · have hIff : (r - w.rowPosition = 0 ∧ c = w.columnPosition) ↔
          (r = w.rowPosition ∧ c = w.columnPosition) := by omega
      simp only [if_neg hAbove, hIff]
      split_ifs <;> rfl

theorem writeByte_wrote (h : w.Ok) (b : UInt8) :
    Wrote w (w.writeByte b) (advance w.columnPosition b).1 (advance w.columnPosition b).2
      fun line c => if b ≠ 0x0A ∧ line = (advance w.columnPosition b).1 ∧
        c + 1 = (advance w.columnPosition b).2 then some b else none := by
  by_cases hNl : b = 0x0A
  · simp only [advance, writeByte, hNl, if_true, ne_eq, not_true_eq_false, false_and, if_false]
    exact newLine_wrote h
  · rw [writeByte_eq h hNl]
    by_cases hFull : w.columnPosition ≥ bufferWidth
    · -- the line is full: a new line, then the character in its first column
      have hLine := newLine_wrote h
      have hPut := putByte_wrote (hLine.ok (Nat.zero_le _)) b
      rw [hLine.col] at hPut
      simp only [advance, if_neg hNl, if_pos hFull]
      refine (hLine.trans h hPut).congr ?_
      intro line c
      simp only [mark, ne_eq, hNl, not_false_eq_true, true_and, Option.or_none]
      split_ifs <;> first | rfl | omega
    · simp only [advance, if_neg hNl, if_neg hFull]
      refine (putByte_wrote h b).congr ?_
      intro line c
      simp only [mark, ne_eq, hNl, not_false_eq_true, true_and, Nat.add_right_cancel_iff]

/-- **A text is laid out as `lineBreaks`, `endColumn` and `charAt` say.** -/
theorem writeString_wrote (h : w.Ok) (s : List UInt8) :
    Wrote w (w.writeString s) (lineBreaks w.columnPosition (s.map shownByte))
      (endColumn w.columnPosition (s.map shownByte))
      (charAt w.columnPosition (s.map shownByte)) := by
  induction s generalizing w with
  | nil => exact wrote_nil h
  | cons b rest ih =>
    have hByte := writeByte_wrote h (shownByte b)
    have hRest := ih (hByte.ok (advance_col_le h.col _))
    rw [hByte.col] at hRest
    exact hByte.trans h hRest

-- ---------------------------------------------------------------------------
-- Reachable writers
-- ---------------------------------------------------------------------------

/-- The calls the rest of the kernel can make on the global writer. -/
inductive Op
  | writeString (s : List UInt8)
  | setColor (foreground background : UInt8)
  | setPosition (row col : Nat)
  | clearScreen

def apply (w : Writer) : Op → Writer
  | .writeString s => w.writeString s
  | .setColor foreground background => w.setColor foreground background
  | .setPosition row col => w.setPosition row col
  | .clearScreen => w.clearScreen

theorem apply_ok (h : w.Ok) (op : Op) : (w.apply op).Ok := by
  cases op with
  | writeString s => exact (writeString_wrote h s).ok (endColumn_le h.col _)
  | setColor foreground background => exact ⟨h.row, h.col⟩
  | setPosition row col =>
    simp only [apply, setPosition]
    split_ifs with hIn
    · exact ⟨hIn.1, Nat.le_of_lt hIn.2⟩
    · exact ⟨h.row, h.col⟩
  | clearScreen => exact ⟨Nat.zero_lt_succ 24, Nat.zero_le _⟩

/-- **The cursor is in the buffer after any sequence of calls.** -/
theorem foldl_apply_ok (h : w.Ok) (ops : List Op) : (ops.foldl apply w).Ok := by
  induction ops generalizing w with
  | nil => exact h
  | cons op rest ih => exact ih (apply_ok h op)

end Writer

end Neutrix.Vga
