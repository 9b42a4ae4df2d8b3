import Neutrix.Drivers.TextGrid

/-!
# Neutrix — the console shows its text

The pixels of the cells have to agree with the characters of the text grid
(`Rendered`). They do after clearing, scrolling and backspaces
(`clear_shows`, `newline_shows`, `back_shows`). A character is drawn without
clearing the cell first, so the pixels of the old character stay where the
new glyph has none (`put_shows_iff`). Hence

* `rendered_iff` — the cells show the text of the grid after every byte
  exactly when no character is written over one whose glyph it does not
  cover.
-/

namespace Neutrix

open Neutrix.Lib

namespace TextScreen

variable {S : TextScreen} {c : Console} {mem : Memory} {g : TextGrid}

-- ---------------------------------------------------------------------------
-- One byte
-- ---------------------------------------------------------------------------

/-- **A new line** keeps what the cells show, as far as they stay in sight. -/
theorem cellShows_newline_iff (h : S.Fits c) {row col : Nat} (hRow : row < c.rows)
    (hCol : col < c.cols) :
    S.CellShows c (Console.newlineScroll (some S.drv) (g.console c) mem).2 (g.newline c.rows)
        row col ↔
      if g.curY + 1 < c.rows then S.CellShows c mem g row col
      else row + 1 < c.rows → S.CellShows c mem g (row + 1) col := by
  unfold CellShows TextGrid.newline
  by_cases hLine : g.curY + 1 < c.rows
  · rw [if_pos hLine, if_pos hLine]
    refine forall₄_congr fun i hI j hJ => ?_
    rw [cellPixel_newlineScroll h g hRow hCol hI hJ, if_pos hLine]
  · rw [if_neg hLine, if_neg hLine]
    by_cases hMoved : row + 1 < c.rows
    · simp only [hMoved, forall_const]
      refine forall₄_congr fun i hI j hJ => ?_
      rw [cellPixel_newlineScroll h g hRow hCol hI hJ, if_neg hLine, if_pos hMoved]
      simp only [TextGrid.scroll, if_pos hMoved]
    · refine iff_of_true (fun i hI j hJ => ?_) fun hRow' => absurd hRow' hMoved
      rw [cellPixel_newlineScroll h g hRow hCol hI hJ, if_neg hLine, if_neg hMoved]
      simp only [TextGrid.scroll, if_neg hMoved, glyphBit_space, Bool.false_eq_true, if_false]

theorem newline_shows (h : S.Fits c) (hShows : S.Rendered c mem g) :
    S.Rendered c (Console.newlineScroll (some S.drv) (g.console c) mem).2 (g.newline c.rows) := by
  intro row hRow col hCol
  rw [cellShows_newline_iff h hRow hCol]
  split_ifs with hLine
  · exact hShows row hRow col hCol
  · exact fun hRow' => hShows (row + 1) hRow' col hCol

theorem back_shows (h : S.Fits c) (hIn : g.Inside c.cols c.rows) (hShows : S.Rendered c mem g) :
    S.Rendered c (Console.backspace (some S.drv) S.fb (g.console c) mem).2 (g.back c.cols) := by
  intro row hRow col hCol i hI j hJ
  have hX := (TextGrid.inside_stepBack hIn).1
  rw [TextGrid.backspace_eq, h.charW, h.charH, cellPixel_rect h hX _ c.bg hCol hI hJ,
    TextGrid.back, TextGrid.cells_write, TextGrid.cells_stepBack]
  -- the cell the cursor is in now, and the others
  by_cases hCell : row = (g.stepBack c.cols).curY ∧ col = (g.stepBack c.cols).curX
  · rw [if_pos hCell, if_pos hCell, glyphBit_space, if_neg Bool.false_ne_true]
  · rw [if_neg hCell, if_neg hCell]
    exact hShows row hRow col hCol i hI j hJ

section Write

variable {ch : UInt8} {drawn : Memory}

/-- `drawn` is memory after the character was drawn at the cursor. -/
def DrawnAt (S : TextScreen) (c : Console) (mem : Memory) (g : TextGrid) (ch : UInt8)
    (drawn : Memory) : Prop :=
  ∀ {row col i j : Nat}, col < c.cols → i < 9 → j < 8 → S.cellPixel drawn row col i j =
    if (row = g.curY ∧ col = g.curX) ∧ glyphBit ch i j then c.fg else S.cellPixel mem row col i j

theorem write_shows_others (hDrawn : DrawnAt S c mem g ch drawn) (hShows : S.Rendered c mem g)
    {row col : Nat} (hRow : row < c.rows) (hCol : col < c.cols)
    (hOther : ¬ (row = g.curY ∧ col = g.curX)) : S.CellShows c drawn (g.write ch) row col := by
  intro i hI j hJ
  rw [hDrawn hCol hI hJ, TextGrid.cells_write, if_neg hOther, if_neg fun hCell => hOther hCell.1]
  exact hShows row hRow col hCol i hI j hJ

/-- **A character** replaces what its cell shows iff its glyph covers the old one. -/
theorem write_shows_iff (hDrawn : DrawnAt S c mem g ch drawn) (hShows : S.Rendered c mem g)
    (hIn : g.Inside c.cols c.rows) :
    S.CellShows c drawn (g.write ch) g.curY g.curX ↔
      c.fg = c.bg ∨ GlyphWithin (g.cells g.curY g.curX) ch := by
  have hPixel : ∀ i < 9, ∀ j < 8,
      ((S.cellPixel drawn g.curY g.curX i j =
        if glyphBit ((g.write ch).cells g.curY g.curX) i j then c.fg else c.bg) ↔
      c.fg = c.bg ∨ (glyphBit (g.cells g.curY g.curX) i j → glyphBit ch i j)) := by
    intro i hI j hJ
    rw [hDrawn hIn.1 hI hJ, TextGrid.cells_write, hShows g.curY hIn.2 g.curX hIn.1 i hI j hJ]
    by_cases hNew : glyphBit ch i j <;> by_cases hOld : glyphBit (g.cells g.curY g.curX) i j <;>
      simp [hNew, hOld]
  have hCell : S.CellShows c drawn (g.write ch) g.curY g.curX ↔
      ∀ i < 9, ∀ j < 8, c.fg = c.bg ∨ (glyphBit (g.cells g.curY g.curX) i j → glyphBit ch i j) :=
    forall₄_congr hPixel
  rw [hCell]
  by_cases hColor : c.fg = c.bg
  · simp [hColor]
  · simp only [hColor, false_or, GlyphWithin]

/-- Only the cell at the cursor is in question. -/
theorem write_rendered_iff (hDrawn : DrawnAt S c mem g ch drawn) (hShows : S.Rendered c mem g)
    (hIn : g.Inside c.cols c.rows) :
    S.Rendered c drawn (g.write ch) ↔ c.fg = c.bg ∨ GlyphWithin (g.cells g.curY g.curX) ch := by
  rw [← write_shows_iff hDrawn hShows hIn]
  constructor
  · exact fun hAll => hAll g.curY hIn.2 g.curX hIn.1
  · intro hCell row hRow col hCol
    by_cases hCur : row = g.curY ∧ col = g.curX
    · rw [hCur.1, hCur.2]
      exact hCell
    · exact write_shows_others hDrawn hShows hRow hCol hCur

/-- The same when the line is full: the cell moves up with the scroll. -/
theorem write_newline_rendered_iff (h : S.Fits c) (hDrawn : DrawnAt S c mem g ch drawn)
    (hShows : S.Rendered c mem g) (hIn : g.Inside c.cols c.rows) :
    S.Rendered c (Console.newlineScroll (some S.drv) ((g.write ch).console c) drawn).2
        ((g.write ch).newline c.rows) ↔
      c.rows = 1 ∨ c.fg = c.bg ∨ GlyphWithin (g.cells g.curY g.curX) ch := by
  constructor
  · intro hAll
    rw [← write_shows_iff hDrawn hShows hIn, or_iff_not_imp_left]
    intro hRows
    have hY := hIn.2
    by_cases hLine : g.curY + 1 < c.rows
    · have hCell := (cellShows_newline_iff h hY hIn.1).mp (hAll g.curY hY g.curX hIn.1)
      rwa [TextGrid.curY_write, if_pos hLine] at hCell
    · obtain ⟨row, hRow⟩ : ∃ row, g.curY = row + 1 := ⟨g.curY - 1, by omega⟩
      have hCell := (cellShows_newline_iff h (by omega) hIn.1).mp
        (hAll row (by omega) g.curX hIn.1)
      rw [TextGrid.curY_write, if_neg hLine, ← hRow] at hCell
      exact hCell hY
  · rintro (hRows | hCell)
    · intro row hRow col hCol
      rw [cellShows_newline_iff h hRow hCol, if_neg (by omega)]
      omega
    · exact newline_shows h ((write_rendered_iff hDrawn hShows hIn).mpr hCell)

end Write

/-- **One character.** -/
theorem put_shows_iff (h : S.Fits c) (mem : Memory) (hIn : g.Inside c.cols c.rows) {ch : UInt8}
    {glyph : List UInt8} (hGlyph : VbeVga.getGlyph ch = some (some glyph)) :
    ∃ mem', Console.putChar (some S.drv) S.fb (g.console c) mem ch =
        some ((g.put c.cols c.rows ch).console c, mem') ∧
      (S.Rendered c mem g →
        (S.Rendered c mem' (g.put c.cols c.rows ch) ↔
          c.fg = c.bg ∨ ¬ g.Overdraws c.cols c.rows ch)) := by
  obtain ⟨drawn, hDraw, hDrawn⟩ := cellPixel_char h mem hIn.1 g.curY hGlyph c.fg
  have hX := hIn.1
  have hPut : Console.putChar (some S.drv) S.fb (g.console c) mem ch =
      if g.curX + 1 ≥ c.cols then
        some (Console.newlineScroll (some S.drv) ((g.write ch).console c) drawn)
      else some (({ g with curX := g.curX + 1 } : TextGrid).console c, drawn) := by
    rw [Console.putChar]
    simp only [TextGrid.console, h.charW, h.charH, hDraw]
    rfl
  rw [hPut]
  unfold TextGrid.put TextGrid.Overdraws
  by_cases hFull : g.curX + 1 < c.cols
  · rw [if_neg (Nat.not_le.mpr hFull), if_pos hFull]
    refine ⟨drawn, rfl, fun hShows => (write_rendered_iff hDrawn hShows hIn).trans ?_⟩
    have hNotLast : g.curX + 1 ≠ c.cols := by omega
    simp only [hNotLast, and_false, not_false_eq_true, and_true, not_not]
  · rw [if_pos (Nat.le_of_not_lt hFull), if_neg hFull]
    refine ⟨(Console.newlineScroll (some S.drv) ((g.write ch).console c) drawn).2, ?_, fun hShows =>
      (write_newline_rendered_iff h hDrawn hShows hIn).trans ?_⟩
    · rw [← TextGrid.newlineScroll_console]
    · have hLast : g.curX + 1 = c.cols := by omega
      simp only [hLast, and_true, not_and_or, not_not]
      tauto

/-- The bytes 0x20..0x7E. -/
def Printable (b : UInt8) : Prop := 0x20 ≤ b ∧ b ≤ 0x7E

/-- Printable, or one of newline, carriage return and backspace. -/
def PlainByte (b : UInt8) : Prop := Printable b ∨ b = 0x0A ∨ b = 0x0D ∨ b = 8

instance : DecidablePred Printable := fun b => inferInstanceAs (Decidable (0x20 ≤ b ∧ b ≤ 0x7E))

instance : DecidablePred PlainByte := fun b =>
  inferInstanceAs (Decidable (Printable b ∨ b = 0x0A ∨ b = 0x0D ∨ b = 8))

theorem Printable.glyph {b : UInt8} (h : Printable b) :
    ∃ glyph, VbeVga.getGlyph b = some (some glyph) := by
  have hLow := UInt8.le_iff_toNat_le.mp h.1
  have hHigh := UInt8.le_iff_toNat_le.mp h.2
  have hLength : VbeVga.font8x8.length = 95 := by decide
  have hSub : (b - 0x20).toNat = b.toNat - 0x20 := UInt8.toNat_sub_of_le b 0x20 h.1
  have hIndex : (b - 0x20).toNat < VbeVga.font8x8.length := by
    rw [hLength, hSub]
    exact Nat.lt_of_le_of_lt (Nat.sub_le_sub_right hHigh 0x20) (by decide)
  refine ⟨VbeVga.font8x8[(b - 0x20).toNat], ?_⟩
  rw [VbeVga.getGlyph, if_neg, List.getElem?_eq_getElem hIndex]
  rw [gt_iff_lt, UInt8.lt_iff_toNat_lt, UInt8.lt_iff_toNat_lt, not_or, Nat.not_lt, Nat.not_lt]
  exact ⟨hLow, Nat.le_succ_of_le hHigh⟩

/-- **One byte.** -/
theorem byte_shows_iff (h : S.Fits c) (mem : Memory) (hIn : g.Inside c.cols c.rows) {b : UInt8}
    (hPlain : PlainByte b) :
    ∃ mem', Console.printByte (some S.drv) S.fb (g.console c, mem) b =
        some ((g.byte c.cols c.rows b).console c, mem') ∧
      (S.Rendered c mem g →
        (S.Rendered c mem' (g.byte c.cols c.rows b) ↔
          (Printable b → c.fg = c.bg ∨ ¬ g.Overdraws c.cols c.rows b))) := by
  rcases hPlain with hPrint | rfl | rfl | rfl
  · obtain ⟨glyph, hGlyph⟩ := hPrint.glyph
    obtain ⟨mem', hPut, hShows⟩ := put_shows_iff h mem hIn hGlyph
    have hNe : ∀ k : UInt8, k < 0x20 → b ≠ k := by
      rintro k hk rfl
      exact UInt8.not_le.mpr hk hPrint.1
    simp only [Console.printByte, TextGrid.byte, hNe 0x0A (by decide), hNe 0x0D (by decide),
      hNe 8 (by decide), hNe 9 (by decide), if_false]
    refine ⟨mem', hPut, fun hOld => (hShows hOld).trans ?_⟩
    simp only [hPrint, forall_const]
  · have hNot : ¬ Printable 0x0A := by decide
    refine ⟨(Console.newlineScroll (some S.drv) (g.console c) mem).2, ?_, fun hOld => ?_⟩
    · rw [TextGrid.byte, if_pos rfl, ← TextGrid.newlineScroll_console (some S.drv) c mem]
      rfl
    · exact iff_of_true (newline_shows h hOld) fun hPrint => absurd hPrint hNot
  · have hNot : ¬ Printable 0x0D := by decide
    exact ⟨mem, rfl, fun hOld => iff_of_true hOld fun hPrint => absurd hPrint hNot⟩
  · have hNot : ¬ Printable 8 := by decide
    refine ⟨(Console.backspace (some S.drv) S.fb (g.console c) mem).2, ?_, fun hOld => ?_⟩
    · show some (Console.backspace (some S.drv) S.fb (g.console c) mem) = _
      rw [TextGrid.backspace_eq]
      rfl
    · exact iff_of_true (back_shows h hIn hOld) fun hPrint => absurd hPrint hNot

-- ---------------------------------------------------------------------------
-- Calls
-- ---------------------------------------------------------------------------

/-- A print of plain bytes, or a cursor set. -/
def PlainCall : Display.Call → Prop
  | .print s => ∀ b ∈ s, PlainByte b
  | .setCursor _ _ => True
  | _ => False

theorem plainCall_print {s : List UInt8} (h : s.all fun b => decide (PlainByte b)) :
    PlainCall (.print s) := fun b hb => of_decide_eq_true (List.all_eq_true.mp h b hb)

theorem PlainCall.of_mem_bytes {call one : Display.Call} (h : PlainCall call)
    (hMem : one ∈ call.bytes) : PlainCall one := by
  cases call with
  | print s =>
    rcases List.mem_cons.mp hMem with rfl | hMem
    · exact fun b hb => absurd hb List.not_mem_nil
    · obtain ⟨b, hb, rfl⟩ := List.mem_map.mp hMem
      intro b' hb'
      rw [List.mem_singleton.mp hb']
      exact h b hb
  | setCursor col row =>
    rw [List.mem_singleton.mp hMem]
    trivial
  | setColors fg bg => exact h.elim
  | clear => exact h.elim

/-- The console of `e` is the one of the grid. -/
structure Tracks (S : TextScreen) (c : Console) (e : Display) (g : TextGrid) : Prop where
  vbe     : e.vbe = some S.drv
  console : e.console S.fb = g.console c
  inside  : g.Inside c.cols c.rows

/-- No character of the call is drawn over one it does not cover. -/
def Covers (c : Console) (g : TextGrid) (call : Display.Call) : Prop :=
  ∀ b, call = .print [b] → Printable b → c.fg = c.bg ∨ ¬ g.Overdraws c.cols c.rows b

theorem inside_byte (h : g.Inside c.cols c.rows) (b : UInt8) :
    (g.byte c.cols c.rows b).Inside c.cols c.rows := by
  unfold TextGrid.byte
  split_ifs
  · exact TextGrid.inside_newline h
  · exact ⟨Nat.zero_lt_of_lt h.1, h.2⟩
  · exact TextGrid.inside_back h
  · exact TextGrid.inside_put h b

/-- **One call** of at most one byte. -/
theorem call_shows_iff (h : S.Fits c) (mem : Memory) (hIn : g.Inside c.cols c.rows)
    {call : Display.Call} (hPlain : PlainCall call) (hSingle : call.Single) :
    (g.call c.cols c.rows call).Inside c.cols c.rows ∧
      ∃ mem', call.onConsole (some S.drv) S.fb (g.console c, mem) =
          some ((g.call c.cols c.rows call).console c, mem') ∧
        (S.Rendered c mem g →
          (S.Rendered c mem' (g.call c.cols c.rows call) ↔ Covers c g call)) := by
  cases call with
  | print bytes =>
    match bytes, hSingle with
    | [], _ =>
      exact ⟨hIn, mem, rfl, fun hOld => iff_of_true hOld fun b hb => by simp at hb⟩
    | [b], _ =>
      obtain ⟨mem', hByte, hShows⟩ :=
        byte_shows_iff h mem hIn (hPlain b (List.mem_singleton_self b))
      refine ⟨inside_byte hIn b, mem', ?_, fun hOld => (hShows hOld).trans ?_⟩
      · rw [Display.Call.onConsole, Console.printBytes, hByte]
        rfl
      · simp [Covers]
  | setCursor col row =>
    have hX := Nat.zero_lt_of_lt hIn.1
    have hY := Nat.zero_lt_of_lt hIn.2
    refine ⟨⟨?_, ?_⟩, mem, rfl, fun hOld => iff_of_true hOld fun b hb => by simp at hb⟩
    · exact Nat.lt_of_le_of_lt (Nat.min_le_right _ _) (Nat.sub_lt hX Nat.one_pos)
    · exact Nat.lt_of_le_of_lt (Nat.min_le_right _ _) (Nat.sub_lt hY Nat.one_pos)
  | setColors fg bg => exact hPlain.elim
  | clear => exact hPlain.elim

theorem step_shows_iff (h : S.Fits c) {e : Display} (hTracks : Tracks S c e g)
    {call : Display.Call} (hPlain : PlainCall call) (hSingle : call.Single) :
    ∃ e', e.step call = some e' ∧ Tracks S c e' (g.call c.cols c.rows call) ∧
      (S.Rendered c e.mem g →
        (S.Rendered c e'.mem (g.call c.cols c.rows call) ↔ Covers c g call)) := by
  obtain ⟨hIn, mem', hCall, hShows⟩ :=
    call_shows_iff h e.mem hTracks.inside hPlain hSingle
  refine ⟨e.put S.fb ((g.call c.cols c.rows call).console c, mem'), ?_, ⟨hTracks.vbe, ?_, hIn⟩,
    hShows⟩
  · rw [Display.step_eq (S.framebufferAddrs_eq hTracks.vbe), hTracks.vbe, hTracks.console, hCall]
    rfl
  · exact lookup_upsert h.fbVirt

-- ---------------------------------------------------------------------------
-- Runs
-- ---------------------------------------------------------------------------

theorem Fits.onlyCursor {c' : Console} (h : S.Fits c) (hOnly : Console.OnlyCursor c c') :
    S.Fits c' := by
  rw [hOnly]
  exact ⟨h.fbVirt, h.cols, h.rows, h.charW, h.charH⟩

theorem fits_newConsole : S.Fits (Display.newConsole (some S.drv) S.fb) := by
  have hInfo : VbeVga.getFbInfo (some S.drv) = _ := S.fbInfo_eq
  have hPos := S.text_pos
  refine ⟨rfl, ?_, ?_, rfl, rfl⟩
  · simp only [Display.newConsole, hInfo, if_neg (Nat.ne_of_gt hPos.1)]
  · simp only [Display.newConsole, hInfo, if_neg (Nat.ne_of_gt hPos.2)]

/-- Calls act on a console that fits. -/
theorem fits_step {e e' : Display} {call : Display.Call} (hVbe : e.vbe = some S.drv)
    (h : S.Fits (e.console S.fb)) (hStep : e.step call = some e') :
    e'.vbe = some S.drv ∧ S.Fits (e'.console S.fb) := by
  rw [Display.step_eq (S.framebufferAddrs_eq hVbe), hVbe, Option.map_eq_some_iff] at hStep
  obtain ⟨t, hCall, rfl⟩ := hStep
  have hFits : S.Fits t.1 := by
    cases call with
    | print bytes => exact h.onlyCursor (Console.printBytes_onlyCursor _ S.fb _ _ hCall)
    | setCursor col row =>
      cases hCall
      exact h.onlyCursor rfl
    | setColors fg bg =>
      cases hCall
      exact ⟨h.fbVirt, h.cols, h.rows, h.charW, h.charH⟩
    | clear =>
      cases hCall
      exact h.onlyCursor rfl
  have hConsole : (e.put S.fb t).console S.fb = t.1 := lookup_upsert hFits.fbVirt
  exact ⟨hVbe, hConsole ▸ hFits⟩

theorem fits_run {d e : Display} {calls : List Display.Call} (hVbe : d.vbe = some S.drv)
    (hNone : d.consoles = []) (hRun : run Display.step d calls = some e) :
    e.vbe = some S.drv ∧ S.Fits (e.console S.fb) := by
  refine run_invariant Display.step (P := fun e => e.vbe = some S.drv ∧ S.Fits (e.console S.fb))
    (fun e _ _ hFits hStep => fits_step hFits.1 hFits.2 hStep) ⟨hVbe, ?_⟩ hRun
  have hConsole : d.console S.fb = Display.newConsole (some S.drv) S.fb := by
    rw [Display.console, hNone, hVbe]
    rfl
  rw [hConsole]
  exact fits_newConsole

/-- The text after the calls, on a cleared console. -/
def text (c : Console) (calls : List Display.Call) : TextGrid :=
  calls.foldl (TextGrid.call c.cols c.rows) TextGrid.blank

theorem text_append_singleton (c : Console) (calls : List Display.Call) (call : Display.Call) :
    text c (calls ++ [call]) = (text c calls).call c.cols c.rows call := List.foldl_concat ..

/-- A print is, for the text too, the prints of its bytes. -/
theorem text_bytes (c : Console) (calls : List Display.Call) :
    text c (calls.flatMap Display.Call.bytes) = text c calls := by
  have hCall : ∀ (g : TextGrid) (call : Display.Call),
      call.bytes.foldl (TextGrid.call c.cols c.rows) g = g.call c.cols c.rows call := by
    intro g call
    cases call with
    | print s => exact List.foldl_map ..
    | setCursor col row => rfl
    | setColors fg bg => rfl
    | clear => rfl
  unfold text
  rw [List.foldl_flatMap]
  simp only [hCall]

/-- The calls return, and the cells show the text they wrote. -/
def Shows (S : TextScreen) (c : Console) (d : Display) (calls : List Display.Call) : Prop :=
  ∃ e, run Display.step d calls = some e ∧ S.Rendered c e.mem (text c calls)

theorem shows_bytes {d : Display} (calls : List Display.Call) :
    S.Shows c d (calls.flatMap Display.Call.bytes) ↔ S.Shows c d calls := by
  unfold Shows
  rw [Display.run_bytes, text_bytes]

section Cleared

variable {d d₁ : Display}

theorem clear_shows (hVbe : d.vbe = some S.drv) (h : S.Fits (d.console S.fb))
    (hClear : d.consoleClearFirst = some d₁) :
    Tracks S (d.console S.fb) d₁ TextGrid.blank ∧
      S.Rendered (d.console S.fb) d₁.mem TextGrid.blank := by
  have hStep : d.step .clear = some d₁ := hClear
  rw [Display.step_eq (S.framebufferAddrs_eq hVbe), hVbe] at hStep
  cases hStep
  refine ⟨⟨hVbe, lookup_upsert h.fbVirt, ?_⟩, ?_⟩
  · rw [h.cols, h.rows]
    exact S.text_pos
  · intro row hRow col hCol i hI j hJ
    rw [TextGrid.blank, glyphBit_space, if_neg Bool.false_ne_true]
    exact cellPixel_clear h _ hRow hCol hI hJ

/-- Plain calls return, and the cursor is the one of the text. -/
theorem run_tracks (h : S.Fits c) (hTracks : Tracks S c d TextGrid.blank)
    {calls : List Display.Call} (hCalls : ∀ call ∈ calls, PlainCall call ∧ call.Single) :
    ∃ e, run Display.step d calls = some e ∧ Tracks S c e (text c calls) := by
  induction calls using List.reverseRecOn with
  | nil => exact ⟨d, rfl, hTracks⟩
  | append_singleton calls call ih =>
    obtain ⟨e, hRun, hAt⟩ := ih fun call' hMem => hCalls call' (List.mem_append_left _ hMem)
    obtain ⟨hPlain, hSingle⟩ := hCalls call (by simp)
    obtain ⟨e', hStep, hAt', -⟩ := step_shows_iff h hAt hPlain hSingle
    refine ⟨e', (run_snoc _ hRun call).trans hStep, ?_⟩
    rwa [text_append_singleton]

/-- The next call, when the cells show the text so far. -/
theorem shows_append_iff (h : S.Fits c) (hTracks : Tracks S c d TextGrid.blank)
    {calls : List Display.Call} {call : Display.Call}
    (hCalls : ∀ call' ∈ calls ++ [call], PlainCall call' ∧ call'.Single)
    (hShows : S.Shows c d calls) :
    S.Shows c d (calls ++ [call]) ↔ Covers c (text c calls) call := by
  obtain ⟨e, hRun, hAt⟩ := run_tracks h hTracks
    fun call' hMem => hCalls call' (List.mem_append_left _ hMem)
  obtain ⟨hPlain, hSingle⟩ := hCalls call (by simp)
  obtain ⟨e', hStep, -, hIff⟩ := step_shows_iff h hAt hPlain hSingle
  have hOld : S.Rendered c e.mem (text c calls) := by
    obtain ⟨e₂, hRun₂, hOld⟩ := hShows
    cases hRun.symm.trans hRun₂
    exact hOld
  have hRun' := (run_snoc _ hRun call).trans hStep
  rw [← hIff hOld, ← text_append_singleton]
  unfold Shows
  simp only [hRun', Option.some.injEq, exists_eq_left']

/-- **The console shows its text** after every byte exactly when no character
is drawn over one whose glyph it does not cover (`Covers`). The bytes reach
what the calls reach. -/
theorem rendered_iff {boot : Display} {earlier calls : List Display.Call}
    (hVbe : boot.vbe = some S.drv) (hNone : boot.consoles = [])
    (hEarlier : run Display.step boot earlier = some d)
    (hClear : d.consoleClearFirst = some d₁) (hPlain : ∀ call ∈ calls, PlainCall call) :
    ((∀ before, before <+: calls.flatMap Display.Call.bytes →
        S.Shows (d.console S.fb) d₁ before) ↔
      ∀ before call, before ++ [call] <+: calls.flatMap Display.Call.bytes →
        Covers (d.console S.fb) (text (d.console S.fb) before) call) ∧
    (S.Shows (d.console S.fb) d₁ (calls.flatMap Display.Call.bytes) ↔
      S.Shows (d.console S.fb) d₁ calls) := by
  obtain ⟨hVbe', hFits⟩ := fits_run hVbe hNone hEarlier
  obtain ⟨hTracks, hBlank⟩ := clear_shows hVbe' hFits hClear
  refine ⟨prefixes_iff ⟨d₁, rfl, hBlank⟩ fun before call hPre hShows => ?_, shows_bytes calls⟩
  refine shows_append_iff hFits hTracks (fun call' hMem => ?_) hShows
  obtain ⟨whole, hWhole, hBytes⟩ := List.mem_flatMap.mp (hPre.subset hMem)
  exact ⟨(hPlain whole hWhole).of_mem_bytes hBytes, Display.single_of_mem_bytes hBytes⟩

end Cleared

/-- An 18 by 16 framebuffer: two rows of two cells. -/
def smallScreen : TextScreen where
  drv   := { addrs := [0xE0000000], fbInfo := VbeVga.readMode 18 16 32 }
  fb    := 0xE0000000
  rest  := []
  xres  := 18
  yres  := 16
  addrs := rfl
  mode  := rfl
  wide  := by decide
  high  := by decide

def smallDisplay : Display where
  vbe      := some smallScreen.drv
  mem      := fun _ => 0
  consoles := []
  writer   := ⟨24, 0, 0x0E, fun _ _ => ⟨0x20, 0⟩, 0⟩

/-- A full stop printed over an `A` after a carriage return: the top of the `A` stays. -/
theorem overdrawn_char_stays :
    smallDisplay.vbe = some smallScreen.drv ∧ smallDisplay.consoles = [] ∧
      (∀ call ∈ [Display.Call.print [0x41, 0x0D, 0x2E]], PlainCall call) ∧
      ∃ d₁ e, smallDisplay.consoleClearFirst = some d₁ ∧
        run Display.step d₁ [.print [0x41, 0x0D, 0x2E]] = some e ∧
        (text (smallDisplay.console smallScreen.fb) [.print [0x41, 0x0D, 0x2E]]).cells 0 0 = 0x2E ∧
        glyphBit 0x2E 3 0 = false ∧
        smallScreen.cellPixel e.mem 0 0 3 0 = 0xFFFFFFFF ∧
        ¬ smallScreen.Rendered (smallDisplay.console smallScreen.fb) e.mem
          (text (smallDisplay.console smallScreen.fb) [.print [0x41, 0x0D, 0x2E]]) := by
  refine ⟨rfl, rfl, fun call hCall => ?_, _, _, rfl, rfl, rfl, by decide, by decide +kernel, ?_⟩
  · rw [List.mem_singleton.mp hCall]
    exact plainCall_print (by decide)
  · intro hAll
    have hPixel := hAll 0 (by decide) 0 (by decide) 3 (by decide) 0 (by decide)
    revert hPixel
    decide +kernel

/-- A character erased by a backspace is replaced by the next one. -/
theorem rendered_after_backspace :
    smallDisplay.vbe = some smallScreen.drv ∧ smallDisplay.consoles = [] ∧
      ∃ d₁, smallDisplay.consoleClearFirst = some d₁ ∧
        ∀ before, before <+: [Display.Call.print [0x41, 8, 0x42]].flatMap Display.Call.bytes →
          smallScreen.Shows (smallDisplay.console smallScreen.fb) d₁ before := by
  have hPlain : ∀ call ∈ [Display.Call.print [0x41, 8, 0x42]], PlainCall call := by
    intro call hCall
    rw [List.mem_singleton.mp hCall]
    exact plainCall_print (by decide)
  refine ⟨rfl, rfl, _, rfl,
    (rendered_iff (S := smallScreen) (d := smallDisplay) rfl rfl (run_nil _ _) rfl hPlain).1.mpr ?_⟩
  rintro before call hPre b rfl -
  -- both characters go to a blank cell
  have hBlank : ∀ g : TextGrid, g.cells g.curY g.curX = 0x20 → ¬ g.Overdraws 2 2 b :=
    fun g hCell hOver => hOver.1 (hCell ▸ glyphWithin_space b)
  refine Or.inr (hBlank _ ?_)
  rcases before with _ | ⟨x, _ | ⟨y, _ | ⟨z, _ | ⟨w, rest⟩⟩⟩⟩ <;>
    simp [Display.Call.bytes] at hPre
  · obtain ⟨rfl, -⟩ := hPre
    rfl
  · obtain ⟨rfl, rfl, -⟩ := hPre
    rfl
  · obtain ⟨rfl, rfl, rfl, -⟩ := hPre
    rfl

end TextScreen

end Neutrix
