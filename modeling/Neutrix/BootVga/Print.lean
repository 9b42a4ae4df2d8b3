import Neutrix.BootVga.Layout
import Neutrix.Drivers.ConsoleCursor

/-!
# Neutrix — what `print!` leaves on the boot VGA screen

`_print` asks the framebuffer console to print and falls back to the boot VGA
writer when it answers `false`. With a framebuffer the writer is not touched.
Without one the console has its own fallback: it writes the text to the boot
VGA writer before it answers `false`, and `_print` then writes it again
(`print_of_no_framebuffer`). Hence

* `printsOnce_iff` — the writer is left as one copy of the text leaves it
  exactly when a framebuffer is active, the text is empty, or the second copy
  scrolls the screen onto itself.
-/

namespace Neutrix.Vga

open Neutrix.Lib

-- ---------------------------------------------------------------------------
-- A second copy of a text
-- ---------------------------------------------------------------------------

namespace Writer

/-- Position and visible cells agree. -/
structure SameScreen (w w' : Writer) : Prop where
  row    : w.rowPosition = w'.rowPosition
  col    : w.columnPosition = w'.columnPosition
  buffer : ∀ r < bufferHeight, ∀ c < bufferWidth, w.buffer r c = w'.buffer r c

/-- The cells of `w` with the text laid out from its cursor. -/
def withText (w : Writer) (bs : List UInt8) : Nat → Nat → ScreenChar :=
  w.laid (lineBreaks w.columnPosition bs) (charAt w.columnPosition bs)

/-- The screen that a text which reaches the bottom row leaves. -/
def atBottom (w : Writer) (bs : List UInt8) : Writer :=
  { w with
    rowPosition    := bufferHeight - 1
    columnPosition := endColumn w.columnPosition bs
    buffer         := w.withText bs }

/-- The text brings the cursor to the bottom row, in a column from which the
same text leads back to that column, and laid out from there changes no cell. -/
structure ScrollsOntoItself (w : Writer) (bs : List UInt8) : Prop where
  bottom : bufferHeight - 1 ≤ w.rowPosition + lineBreaks w.columnPosition bs
  col    : endColumn (endColumn w.columnPosition bs) bs = endColumn w.columnPosition bs
  cells  : ∀ r < bufferHeight, ∀ c < bufferWidth,
    (w.atBottom bs).withText bs r c = w.withText bs r c

theorem endColumn_of_no_breaks {col : Nat} {bs : List UInt8} (h : lineBreaks col bs = 0) :
    endColumn col bs = col + bs.length := by
  induction bs generalizing col with
  | nil => rfl
  | cons b bs ih =>
    rw [lineBreaks] at h
    have hAdvance : (advance col b).2 = col + 1 := by
      unfold advance at h ⊢
      split_ifs at h ⊢ <;> simp_all
    rw [endColumn, ih (by omega), hAdvance, List.length_cons]
    omega

theorem laid_congr (w w' : Writer) (hRow : w.rowPosition = w'.rowPosition)
    (hColor : w.colorCode = w'.colorCode) {c : Nat}
    (hBuf : ∀ r < bufferHeight, w.buffer r c = w'.buffer r c) (brk : Nat)
    (marks : Nat → Nat → Option UInt8) (r : Nat) : w.laid brk marks r c = w'.laid brk marks r c := by
  have hScrolled : ∀ n, w.scrolled n r c = w'.scrolled n r c := by
    intro n
    simp only [scrolled, blank, hColor]
    split_ifs with hIn
    · exact hBuf _ hIn
    · rfl
  simp only [laid, overlaid, hRow, hColor, hScrolled]

/-- **Writing a text twice is writing it once iff it is empty or scrolls the
screen onto itself.** -/
theorem writeString_twice_iff {w : Writer} (h : w.Ok) (s : List UInt8) :
    SameScreen ((w.writeString s).writeString s) (w.writeString s) ↔
      s = [] ∨ ScrollsOntoItself w (s.map shownByte) := by
  have hOnce := writeString_wrote h s
  have hTwice := writeString_wrote (hOnce.ok (endColumn_le h.col _)) s
  rw [hOnce.col] at hTwice
  -- from the bottom row on, the second copy is laid out over the first
  have hSecond : bufferHeight - 1 ≤
        w.rowPosition + lineBreaks w.columnPosition (s.map shownByte) →
      ∀ r < bufferHeight, ∀ c < bufferWidth,
        ((w.writeString s).writeString s).buffer r c =
          (w.atBottom (s.map shownByte)).withText (s.map shownByte) r c := by
    intro hBottom r hr c hc
    rw [hTwice.buffer r hr c hc]
    exact laid_congr (w.writeString s) (w.atBottom (s.map shownByte))
      (hOnce.row.trans (Nat.min_eq_left hBottom)) hOnce.color
      (fun r' hr' => hOnce.buffer r' hr' c hc) _ _ r
  constructor
  · intro hSame
    rcases s with _ | ⟨b, rest⟩
    · exact Or.inl rfl
    · right
      have hCol := hSame.col
      rw [hTwice.col, hOnce.col] at hCol
      -- without a line break the second copy would end further right
      have hBreaks : lineBreaks (endColumn w.columnPosition ((b :: rest).map shownByte))
          ((b :: rest).map shownByte) ≠ 0 := by
        intro hZero
        rw [endColumn_of_no_breaks hZero, List.length_map, List.length_cons] at hCol
        omega
      have hBottom : bufferHeight - 1 ≤
          w.rowPosition + lineBreaks w.columnPosition ((b :: rest).map shownByte) := by
        have hRow := hSame.row
        rw [hTwice.row, hOnce.row] at hRow
        omega
      refine ⟨hBottom, hCol, fun r hr c hc => ?_⟩
      rw [← hSecond hBottom r hr c hc, hSame.buffer r hr c hc]
      exact hOnce.buffer r hr c hc
  · rintro (rfl | hScroll)
    · exact ⟨rfl, rfl, fun _ _ _ _ => rfl⟩
    · refine ⟨?_, ?_, fun r hr c hc => ?_⟩
      · rw [hTwice.row, hOnce.row, Nat.min_eq_left hScroll.bottom]
        exact Nat.min_eq_left (Nat.le_add_right _ _)
      · rw [hTwice.col, hOnce.col]
        exact hScroll.col
      · rw [hSecond hScroll.bottom r hr c hc, hScroll.cells r hr c hc]
        exact (hOnce.buffer r hr c hc).symm

/-- New lines put nothing on the screen and end in column 0. -/
theorem layout_newLines (n col : Nat) :
    lineBreaks col (List.replicate (n + 1) 0x0A) = n + 1 ∧
      endColumn col (List.replicate (n + 1) 0x0A) = 0 ∧
      ∀ line c, charAt col (List.replicate (n + 1) 0x0A) line c = none := by
  induction n generalizing col with
  | zero => exact ⟨rfl, rfl, fun line c => by simp [charAt]⟩
  | succ n ih =>
    obtain ⟨hBreaks, hCol, hChar⟩ := ih 0
    have hAdvance : advance col 0x0A = (1, 0) := if_pos rfl
    rw [List.replicate_succ, lineBreaks, endColumn, hAdvance]
    refine ⟨?_, hCol, fun line c => ?_⟩
    · rw [hBreaks, Nat.add_comm]
    · rw [charAt, hAdvance, hChar]
      simp

/-- From the bottom row, a screenful of new lines clears the screen. -/
theorem scrollsOntoItself_newLines {w : Writer} (hRow : w.rowPosition = bufferHeight - 1) {n : Nat}
    (hn : bufferHeight ≤ n + 1) : w.ScrollsOntoItself (List.replicate (n + 1) 0x0A) := by
  obtain ⟨hBreaks, hCol, hChar⟩ := layout_newLines n w.columnPosition
  obtain ⟨hBreaks', hCol', hChar'⟩ := layout_newLines n 0
  -- every row is scrolled out
  have hOut : ∀ r, ¬ r + (bufferHeight - 1 + (n + 1) - (bufferHeight - 1)) < bufferHeight := by
    intro r
    omega
  refine ⟨?_, ?_, fun r _ c _ => ?_⟩
  · rw [hRow]
    exact Nat.le_add_right _ _
  · rw [hCol, hCol']
  · simp only [withText, atBottom, laid, overlaid, scrolled, hRow, hCol, hBreaks, hBreaks', hChar,
      hChar', ite_self, if_neg (hOut r)]
    rfl

theorem writeFmt_eq (w : Writer) (pieces : List (List UInt8)) :
    w.writeFmt pieces = w.writeString pieces.flatten := by
  induction pieces generalizing w with
  | nil => rfl
  | cons piece rest ih =>
    rw [List.flatten_cons, writeString, List.foldl_append]
    exact ih (w.writeString piece)

end Writer

end Neutrix.Vga

namespace Neutrix.Display

open Neutrix.Vga

-- ---------------------------------------------------------------------------
-- `_print`
-- ---------------------------------------------------------------------------

variable {d : Display}

/-- Without a framebuffer the text is written twice. -/
theorem print_of_no_framebuffer (hFb : VbeVga.getFramebufferAddrs d.vbe = [])
    (pieces : List (List UInt8)) :
    d.print pieces = some { d with
      writer := (d.writer.writeString pieces.flatten).writeString pieces.flatten } := by
  simp only [print, vbeTryPrint, consolePrintFirst, hFb, Writer.writeFmt_eq]

theorem print_of_framebuffer {fb : Nat} {rest : List Nat}
    (hFb : VbeVga.getFramebufferAddrs d.vbe = fb :: rest) {pieces : List (List UInt8)}
    {d' : Display} (h : d.print pieces = some d') : d'.writer = d.writer := by
  simp only [print, vbeTryPrint, consolePrintFirst, hFb, withConsole_eq] at h
  cases hPrint : Console.printBytes d.vbe fb (d.console fb, d.mem) pieces.flatten with
  | none => simp [hPrint] at h
  | some s =>
    simp only [hPrint, Option.map_some, Option.some.injEq] at h
    rw [← h]
    rfl

/-- Without a framebuffer the boot VGA writer is left as by one `write_string`
of the text, with one it is left alone. -/
def PrintsOnce (d : Display) (pieces : List (List UInt8)) : Prop :=
  match VbeVga.getFramebufferAddrs d.vbe with
  | [] => ∃ d', d.print pieces = some d' ∧
      Writer.SameScreen d'.writer (d.writer.writeString pieces.flatten)
  | _ :: _ => ∀ d', d.print pieces = some d' → d'.writer = d.writer

/-- **`_print` prints once iff a framebuffer is active, the text is empty, or it
scrolls the boot VGA screen onto itself.** -/
theorem printsOnce_iff (d : Display) (hOk : d.writer.Ok) (pieces : List (List UInt8)) :
    d.PrintsOnce pieces ↔
      VbeVga.getFramebufferAddrs d.vbe ≠ [] ∨ pieces.flatten = [] ∨
        d.writer.ScrollsOntoItself (pieces.flatten.map Writer.shownByte) := by
  unfold PrintsOnce
  cases hFb : VbeVga.getFramebufferAddrs d.vbe with
  | nil =>
    simp only [print_of_no_framebuffer hFb, Option.some.injEq, exists_eq_left', ne_eq,
      not_true_eq_false, false_or]
    exact Writer.writeString_twice_iff hOk pieces.flatten
  | cons fb rest =>
    simp only [ne_eq, reduceCtorEq, not_false_eq_true, true_or, iff_true]
    exact fun d' h => print_of_framebuffer hFb h

/-- The display at boot, before a framebuffer driver is started. -/
def bootDisplay : Display where
  vbe      := none
  mem      := fun _ => 0
  consoles := []
  writer   := ⟨24, 0, 0x0E, fun _ _ => ⟨0x20, 0x0E⟩, 0⟩

/-- With a framebuffer; with an empty text; and with enough new lines, from the
bottom row, to clear the screen. -/
theorem printsOnce_three_cases :
    textDisplay.PrintsOnce [[0x41]] ∧ bootDisplay.PrintsOnce [[], []] ∧
      bootDisplay.PrintsOnce [List.replicate 25 0x0A] := by
  have hText : textDisplay.writer.Ok := ⟨by decide, by decide⟩
  have hBoot : bootDisplay.writer.Ok := ⟨by decide, by decide⟩
  have hShown : [List.replicate 25 0x0A].flatten.map Writer.shownByte =
      List.replicate (24 + 1) 0x0A := by decide
  have hClear : bootDisplay.writer.ScrollsOntoItself (List.replicate (24 + 1) 0x0A) :=
    Writer.scrollsOntoItself_newLines rfl (by decide)
  refine ⟨(printsOnce_iff textDisplay hText [[0x41]]).mpr (Or.inl (by decide)),
    (printsOnce_iff bootDisplay hBoot [[], []]).mpr (Or.inr (Or.inl rfl)),
    (printsOnce_iff bootDisplay hBoot [List.replicate 25 0x0A]).mpr (Or.inr (Or.inr ?_))⟩
  rw [hShown]
  exact hClear

/-- At boot, printing one `A` puts two of them on the screen. -/
theorem boot_print_doubles :
    (bootDisplay.print [[0x41]]).map (fun d => (d.writer.rowPosition, d.writer.columnPosition,
        d.writer.buffer 24 0, d.writer.buffer 24 1)) =
      some (24, 2, ⟨0x41, 0x0E⟩, ⟨0x41, 0x0E⟩) ∧
    (bootDisplay.writer.writeString [0x41]).columnPosition = 1 ∧
    (bootDisplay.writer.writeString [0x41]).buffer 24 1 = ⟨0x20, 0x0E⟩ := by
  decide

end Neutrix.Display
