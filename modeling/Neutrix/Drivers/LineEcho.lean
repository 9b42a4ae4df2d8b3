import Neutrix.BootVga.Print
import Neutrix.Drivers.ConsoleGlyphs

/-!
# Neutrix — line input and its echo

Model of `getline` of `src/driver_framework/drivers/ps2kbd.rs`, from the
decoded keys on. It keeps the typed characters in a buffer and echoes every
key to the console: a character is printed, a backspace that removes one is
echoed as backspace, space, backspace. Enter ends the line and disables the
keyboard's port, which prints a line of its own.

The column of the console depends on the column before and the byte
(`printByte_column`), so printing a line leads to a column that depends only
on where it began (`column`). The three bytes of an erasure lead one cell
back, to the end of the line above if need be, but not further than the
corner of the screen (`erase_column`). A tab can be wider than a cell. Hence

* `echo_iff` — the echo of every input so far leaves the cursor in the
  column that the edited line leads to, exactly when every character erased
  took one column, or, if the cursor is in the corner, began in the first.
-/

namespace Neutrix

open Neutrix.Lib

-- ---------------------------------------------------------------------------
-- `getline`
-- ---------------------------------------------------------------------------

inductive DecodedKey
  | unicode (character : Char)
  | rawKey

/-- The characters typed so far, and what they are echoed to. -/
structure LineInput where
  buf     : List Char
  display : Display

/-- A key that does not end the line. -/
def LineInput.press (s : LineInput) (character : Char) : Option LineInput :=
  if character = '\x08' then
    if s.buf = [] then some s
    else
      (s.display.print [[8, 0x20, 8]]).map fun display => { buf := s.buf.dropLast, display }
  else
    (s.display.print [String.utf8EncodeChar character]).map fun display =>
      { buf := s.buf ++ [character], display }

/-- The bytes of a text. -/
def lineBytes (line : List Char) : List UInt8 := line.flatMap String.utf8EncodeChar

/-- `written` is the result of `write_controller_cmd_local`. -/
def disableKeyboardPort (written : Bool) (d : Display) : Option Display :=
  let message :=
    if written then "[kbd] PS/2 keyboard port disabled\n"
    else "[kbd] Warning: failed to disable PS/2 keyboard port (0xAD)\n"
  (d.consolePrintFirst (lineBytes message.toList)).map Prod.snd

/-- The loop on the keys so far; the stream does not end. -/
def getline (written : Bool) : LineInput → List DecodedKey → Option LineInput
  | s, [] => some s
  | s, .rawKey :: keys => getline written s keys
  | s, .unicode character :: keys =>
    if character = '\n' ∨ character = '\r' then do
      let display ← s.display.print [[], [0x0A]]
      let display ← disableKeyboardPort written display
      some { s with display }
    else (s.press character).bind fun s => getline written s keys

/-- Without Enter, the keys are pressed one after another. -/
theorem getline_eq_run {keys : List Char} (h : ∀ k ∈ keys, k ≠ '\n' ∧ k ≠ '\r') (written : Bool)
    (s : LineInput) : getline written s (keys.map .unicode) = run LineInput.press s keys := by
  induction keys generalizing s with
  | nil => rfl
  | cons k keys ih =>
    have hKey := h k List.mem_cons_self
    rw [List.map_cons, getline, if_neg (not_or.mpr hKey), run_cons_eq]
    congr 1
    funext s'
    exact ih (fun k' hk' => h k' (List.mem_cons_of_mem k hk')) s'

-- ---------------------------------------------------------------------------
-- Columns
-- ---------------------------------------------------------------------------

/-- The column after one byte, a tab or a character. -/
def nextColumn (cols x : Nat) (b : UInt8) : Nat :=
  if b = 9 then if (x / 8 + 1) * 8 ≥ cols then 0 else (x / 8 + 1) * 8
  else if x + 1 ≥ cols then 0 else x + 1

/-- The column after a line of text that begins in column `x`. -/
def column (cols x : Nat) (line : List UInt8) : Nat := line.foldl (nextColumn cols) x

/-- Bytes that are echoed as they are. -/
def Typed (b : UInt8) : Prop := b = 9 ∨ TextScreen.Printable b

instance : DecidablePred Typed := fun b =>
  inferInstanceAs (Decidable (b = 9 ∨ TextScreen.Printable b))

theorem nextColumn_lt {cols : Nat} (hCols : 0 < cols) (x : Nat) (b : UInt8) :
    nextColumn cols x b < cols := by
  unfold nextColumn
  split_ifs <;> omega

theorem column_lt {cols x : Nat} (hX : x < cols) (line : List UInt8) : column cols x line < cols := by
  induction line generalizing x with
  | nil => exact hX
  | cons b rest ih => exact ih (nextColumn_lt (Nat.zero_lt_of_lt hX) x b)

theorem column_concat (cols x : Nat) (line : List UInt8) (b : UInt8) :
    column cols x (line ++ [b]) = nextColumn cols (column cols x line) b := by
  rw [column, List.foldl_append]
  rfl

namespace Console

variable {vbe : Option VbeVga} {fb : Nat} {c : Console} {mem : Memory} {t : Console × Memory}

theorem newlineScroll_cursor (vbe : Option VbeVga) (c : Console) (mem : Memory) :
    (newlineScroll vbe c mem).1.curX = 0 ∧
      (newlineScroll vbe c mem).1.curY = if c.curY + 1 ≥ c.rows then c.rows - 1 else c.curY + 1 := by
  have hX := scrollMut_curX vbe c.newline mem rfl 1
  have hRows := (scrollMut_sameText vbe c.newline mem 1).rows
  unfold newlineScroll
  by_cases hRow : c.newline.curY ≥ c.newline.rows
  · have hRow' : c.curY + 1 ≥ c.rows := hRow
    simp only [if_pos hRow, if_pos hRow', hRows]
    exact ⟨hX, rfl⟩
  · have hRow' : ¬ c.curY + 1 ≥ c.rows := hRow
    simp only [if_neg hRow, if_neg hRow']
    exact ⟨rfl, rfl⟩

/-- A character moves the cursor on, and wraps behind the last column. -/
theorem putChar_cursor {b : UInt8} (h : putChar vbe fb c mem b = some t) :
    t.1.curX = (if c.curX + 1 ≥ c.cols then 0 else c.curX + 1) ∧
      t.1.curY = if c.curX + 1 ≥ c.cols then
        if c.curY + 1 ≥ c.rows then c.rows - 1 else c.curY + 1 else c.curY := by
  unfold putChar at h
  split at h
  · contradiction
  · rename_i mem' _
    have hLine := newlineScroll_cursor vbe { c with curX := c.curX + 1 } mem'
    dsimp only at h hLine
    by_cases hFull : c.curX + 1 ≥ c.cols
    · rw [if_pos hFull] at h
      cases h
      simpa only [if_pos hFull] using hLine
    · rw [if_neg hFull] at h
      cases h
      simp only [if_neg hFull, and_self]

theorem backspace_cursor (vbe : Option VbeVga) (fb : Nat) (c : Console) (mem : Memory) :
    (backspace vbe fb c mem).1.curX =
        (if 0 < c.curX then c.curX - 1 else if 0 < c.curY then c.cols - 1 else c.curX) ∧
      (backspace vbe fb c mem).1.curY =
        if 0 < c.curX then c.curY else if 0 < c.curY then c.curY - 1 else c.curY := by
  unfold backspace
  dsimp only
  split_ifs <;> exact ⟨rfl, rfl⟩

theorem printByte_column {b : UInt8} (hb : Typed b)
    (h : printByte vbe fb (c, mem) b = some t) : t.1.curX = nextColumn c.cols c.curX b := by
  have hPlain : b ≠ 0x0A ∧ b ≠ 0x0D ∧ b ≠ 8 := by
    refine ⟨?_, ?_, ?_⟩ <;> rintro rfl <;> exact absurd hb (by decide)
  simp only [printByte, if_neg hPlain.1, if_neg hPlain.2.1, if_neg hPlain.2.2] at h
  unfold nextColumn
  by_cases hTab : b = 9
  · rw [if_pos hTab] at h ⊢
    cases h
    unfold tab nextTab
    split_ifs <;> rfl
  · rw [if_neg hTab] at h ⊢
    exact (putChar_cursor h).1

theorem printBytes_column {bytes : List UInt8} (hBytes : ∀ b ∈ bytes, Typed b)
    (h : printBytes vbe fb (c, mem) bytes = some t) : t.1.curX = column c.cols c.curX bytes := by
  induction bytes generalizing c mem with
  | nil =>
    cases h
    rfl
  | cons b rest ih =>
    obtain ⟨u, hByte, hRest⟩ := (printBytes_cons_eq_some vbe fb).mp h
    have hCols := (printByte_spec vbe fb hByte).1.cols
    rw [ih (fun b' hb' => hBytes b' (List.mem_cons_of_mem b hb')) hRest, hCols,
      printByte_column (hBytes b List.mem_cons_self) hByte]
    rfl

/-- The echo of an erasure leads one cell back. -/
theorem erase_column (hX : c.curX < c.cols)
    (h : printBytes vbe fb (c, mem) [8, 0x20, 8] = some t) :
    t.1.curX = if 0 < c.curX then c.curX - 1
      else if 0 < c.curY ∧ 2 ≤ c.rows then c.cols - 1 else 0 := by
  have hBack : ∀ s : Console × Memory,
      printByte vbe fb s 8 = some (backspace vbe fb s.1 s.2) := fun s => rfl
  -- back, the space, and back again
  obtain ⟨s₁, hFirst, hRest⟩ := (printBytes_cons_eq_some vbe fb).mp h
  obtain ⟨s₂, hSpace, hLast⟩ := (printBytes_cons_eq_some vbe fb).mp hRest
  obtain ⟨s₃, hSecond, hEnd⟩ := (printBytes_cons_eq_some vbe fb).mp hLast
  cases (hBack _).symm.trans hFirst
  cases (hBack _).symm.trans hSecond
  cases hEnd
  obtain ⟨hX₁, hY₁⟩ := backspace_cursor vbe fb c mem
  have hText₁ := (backspace_keeps vbe fb c mem).toSameText
  generalize backspace vbe fb c mem = s₁ at hSpace hX₁ hY₁ hText₁
  have hPut : putChar vbe fb s₁.1 s₁.2 0x20 = some s₂ := hSpace
  obtain ⟨hX₂, hY₂⟩ := putChar_cursor hPut
  have hText₂ := (putChar_keeps vbe fb s₁.1 s₁.2 hPut).toSameText
  rw [(backspace_cursor vbe fb s₂.1 s₂.2).1, hX₂, hY₂, hText₂.cols, hText₁.cols, hText₁.rows,
    hX₁, hY₁]
  clear hX₁ hY₁ hX₂ hY₂
  split_ifs <;> omega

end Console

/-- The character `b` that was typed in column `e` can be erased by going one cell back
from `x`, `y`. In the corner, or with a single row, there is no cell to go back to. -/
def ErasableAt (c : Console) (e : Nat) (b : UInt8) : Prop :=
  if c.curX = 0 ∧ (c.curY = 0 ∨ c.rows ≤ 1) then e = 0 else b ≠ 9 ∨ e % 8 = 7 ∨ e + 1 = c.cols

theorem erase_eq_iff {c : Console} {e : Nat} {b : UInt8} (hE : e < c.cols)
    (hX : c.curX = nextColumn c.cols e b) :
    (if 0 < c.curX then c.curX - 1 else if 0 < c.curY ∧ 2 ≤ c.rows then c.cols - 1 else 0) = e ↔
      ErasableAt c e b := by
  unfold ErasableAt
  unfold nextColumn at hX
  by_cases hCorner : c.curX = 0 ∧ (c.curY = 0 ∨ c.rows ≤ 1)
  · rw [if_pos hCorner, if_neg (by omega), if_neg (by omega), eq_comm]
  · rw [if_neg hCorner]
    by_cases hTab : b = 9
    · rw [if_pos hTab] at hX
      simp only [hTab, ne_eq, not_true_eq_false, false_or]
      split_ifs at hX ⊢ <;> omega
    · rw [if_neg hTab] at hX
      simp only [hTab, ne_eq, not_false_eq_true, true_or, iff_true]
      split_ifs at hX ⊢ <;> omega

-- ---------------------------------------------------------------------------
-- Keys
-- ---------------------------------------------------------------------------

/-- A tab or a printable ASCII character. -/
def TypedChar (k : Char) : Prop := k = '\t' ∨ 0x20 ≤ k.toNat ∧ k.toNat ≤ 0x7E

theorem utf8EncodeChar_typed {k : Char} (h : TypedChar k) :
    ∃ b, String.utf8EncodeChar k = [b] ∧ Typed b := by
  rcases h with rfl | ⟨hLow, hHigh⟩
  · exact ⟨9, by decide, Or.inl rfl⟩
  · have hVal : k.val.toNat ≤ 0x7E := hHigh
    refine ⟨UInt8.ofNat k.val.toNat, ?_, Or.inr ⟨?_, ?_⟩⟩
    · simp only [String.utf8EncodeChar, if_pos (Nat.le_succ_of_le hVal)]
    · rw [UInt8.le_iff_toNat_le, UInt8.toNat_ofNat', Nat.mod_eq_of_lt (by omega)]
      exact hLow
    · rw [UInt8.le_iff_toNat_le, UInt8.toNat_ofNat', Nat.mod_eq_of_lt (by omega)]
      exact hVal

theorem typed_ne_delete {b : UInt8} (h : Typed b) : b ≠ 0x7F := by
  rintro rfl
  exact absurd h (by decide)

theorem lineBytes_typed {line : List Char} (h : ∀ k ∈ line, TypedChar k) :
    ∀ b ∈ lineBytes line, Typed b := by
  intro b hb
  obtain ⟨k, hk, hMem⟩ := List.mem_flatMap.mp hb
  obtain ⟨b', hBytes, hTyped⟩ := utf8EncodeChar_typed (h k hk)
  rw [hBytes, List.mem_singleton] at hMem
  rw [hMem]
  exact hTyped

namespace Display

/-- A print without the delete character returns, and the console is the one its bytes
lead to. -/
theorem print_returns (e : Display) {fb : Nat} {rest : List Nat}
    (hFb : VbeVga.getFramebufferAddrs e.vbe = fb :: rest) (pieces : List (List UInt8))
    (hBytes : 0x7F ∉ pieces.flatten) :
    ∃ e' t, e.print pieces = some e' ∧
      Console.printBytes e.vbe fb (e.console fb, e.mem) pieces.flatten = some t ∧
      e'.vbe = e.vbe ∧ e'.console fb = t.1 := by
  cases hPrint : Console.printBytes e.vbe fb (e.console fb, e.mem) pieces.flatten with
  | none =>
    exact absurd ((Console.framebuffer_printBytes_eq_none_iff fb hFb _ _).mp hPrint) hBytes
  | some t =>
    have hKey : t.1.fbVirt = fb := (Console.printBytes_sameText e.vbe fb hPrint).fbVirt.trans
      console_fbVirt
    refine ⟨e.put fb t, t, ?_, rfl, rfl, lookup_upsert hKey⟩
    simp only [print, vbeTryPrint, consolePrintFirst, hFb, withConsole_eq, hPrint, Option.map_some]

end Display

-- ---------------------------------------------------------------------------
-- The echo
-- ---------------------------------------------------------------------------

section Echo

variable {d : Display} {fb : Nat} {rest : List Nat} {s : LineInput}

/-- What holds of the input whatever was typed. -/
structure Echoing (d : Display) (fb : Nat) (s : LineInput) : Prop where
  vbe    : s.display.vbe = d.vbe
  cols   : (s.display.console fb).cols = (d.console fb).cols
  inside : (s.display.console fb).curX < (d.console fb).cols
  typed  : ∀ k ∈ s.buf, TypedChar k

/-- The cursor is in the column the line leads to. -/
def InColumn (d : Display) (fb : Nat) (s : LineInput) : Prop :=
  (s.display.console fb).curX =
    column (d.console fb).cols (d.console fb).curX (lineBytes s.buf)

/-- The last character of the line, if there is one, can be erased. -/
def Erasable (d : Display) (fb : Nat) (s : LineInput) : Prop :=
  ∀ front b, lineBytes s.buf = front ++ [b] →
    ErasableAt (s.display.console fb)
      (column (d.console fb).cols (d.console fb).curX front) b

theorem TypedChar.ne_backspace {k : Char} (h : TypedChar k) : k ≠ '\x08' := by
  rintro rfl
  rcases h with hTab | ⟨hLow, -⟩
  · exact absurd hTab (by decide)
  · exact absurd hLow (by decide)

theorem lineBytes_concat (line : List Char) (k : Char) :
    lineBytes (line ++ [k]) = lineBytes line ++ String.utf8EncodeChar k := by
  rw [lineBytes, List.flatMap_append, List.flatMap_singleton]
  rfl

/-- A character moves the cursor as it will when the line is printed. -/
theorem press_char (hFb : VbeVga.getFramebufferAddrs d.vbe = fb :: rest) (h : Echoing d fb s)
    {k : Char} (hk : TypedChar k) :
    ∃ s', s.press k = some s' ∧ Echoing d fb s' ∧ (InColumn d fb s → InColumn d fb s') := by
  obtain ⟨b, hBytes, hTyped⟩ := utf8EncodeChar_typed hk
  have hFb' : VbeVga.getFramebufferAddrs s.display.vbe = fb :: rest := by rw [h.vbe, hFb]
  obtain ⟨e, t, hPrint, hConsole, hVbe, hT⟩ := Display.print_returns s.display hFb' [[b]]
    (by simpa using (typed_ne_delete hTyped).symm)
  have hCols := (Console.printBytes_sameText _ fb hConsole).cols
  have hColumn : t.1.curX =
      nextColumn (d.console fb).cols (s.display.console fb).curX b := by
    rw [← h.cols]
    exact Console.printBytes_column (fun b' hb' => List.mem_singleton.mp hb' ▸ hTyped) hConsole
  refine ⟨⟨s.buf ++ [k], e⟩, ?_, ⟨hVbe.trans h.vbe, ?_, ?_, ?_⟩, fun hIn => ?_⟩
  · rw [LineInput.press, if_neg hk.ne_backspace, hBytes, hPrint, Option.map_some]
  · rw [hT, hCols, h.cols]
  · rw [hT, hColumn]
    exact nextColumn_lt (Nat.zero_lt_of_lt h.inside) _ b
  · intro k' hk'
    rcases List.mem_append.mp hk' with hOld | hNew
    · exact h.typed k' hOld
    · rw [List.mem_singleton.mp hNew]
      exact hk
  · unfold InColumn at hIn ⊢
    rw [hT, hColumn, hIn, lineBytes_concat, hBytes, column_concat]

/-- A backspace leads to the column of the shorter line if the last character could be
erased. -/
theorem press_backspace (hFb : VbeVga.getFramebufferAddrs d.vbe = fb :: rest)
    (hStart : (d.console fb).curX < (d.console fb).cols) (h : Echoing d fb s) :
    ∃ s', s.press '\x08' = some s' ∧ Echoing d fb s' ∧
      (InColumn d fb s → (InColumn d fb s' ↔ Erasable d fb s)) := by
  rcases List.eq_nil_or_concat' s.buf with hNil | ⟨front, k, hBuf⟩
  · -- nothing to erase
    refine ⟨s, ?_, h, fun hIn => iff_of_true hIn fun front b hLine => ?_⟩
    · rw [LineInput.press, if_pos rfl, if_pos hNil]
    · rw [hNil] at hLine
      exact absurd hLine.symm (List.concat_ne_nil b front)
  · have hFb' : VbeVga.getFramebufferAddrs s.display.vbe = fb :: rest := by rw [h.vbe, hFb]
    obtain ⟨e, t, hPrint, hConsole, hVbe, hT⟩ :=
      Display.print_returns s.display hFb' [[8, 0x20, 8]] (by decide)
    have hCols := (Console.printBytes_sameText _ fb hConsole).cols
    have hX : (s.display.console fb).curX < (s.display.console fb).cols := by
      rw [h.cols]
      exact h.inside
    have hErase := Console.erase_column hX hConsole
    obtain ⟨b, hBytes, -⟩ := utf8EncodeChar_typed (h.typed k (by simp [hBuf]))
    refine ⟨⟨front, e⟩, ?_, ⟨hVbe.trans h.vbe, ?_, ?_, ?_⟩, fun hIn => ?_⟩
    · have hNe : s.buf ≠ [] := by simp [hBuf]
      rw [LineInput.press, if_pos rfl, if_neg hNe, hPrint, Option.map_some, hBuf,
        List.dropLast_concat]
    · rw [hT, hCols, h.cols]
    · rw [hT, hErase, ← h.cols]
      split_ifs <;> omega
    · exact fun k' hk' => h.typed k' (by rw [hBuf]; exact List.mem_append_left _ hk')
    · -- the line before the erasure ends with `b`
      have hLine : lineBytes s.buf = lineBytes front ++ [b] := by
        rw [hBuf, lineBytes_concat, hBytes]
      unfold InColumn at hIn ⊢
      have hE := column_lt hStart (lineBytes front)
      rw [hLine, column_concat] at hIn
      rw [← h.cols] at hE hIn
      have hIff := erase_eq_iff hE hIn
      rw [hT, hErase, ← h.cols, hIff]
      constructor
      · intro hAt front' b' hLine'
        obtain ⟨hFront, hLast⟩ := List.append_inj' (hLine.symm.trans hLine') rfl
        rw [← hFront, ← List.head_eq_of_cons_eq hLast, ← h.cols]
        exact hAt
      · intro hAll
        have hAt := hAll _ _ hLine
        rw [← h.cols] at hAt
        exact hAt

/-- Keys that edit the line: backspace, tab and printable characters. -/
def EchoKey (k : Char) : Prop := k = '\x08' ∨ TypedChar k

theorem EchoKey.not_enter {k : Char} (h : EchoKey k) : k ≠ '\n' ∧ k ≠ '\r' := by
  constructor <;> rintro rfl <;> rcases h with hBack | hTab | ⟨hLow, -⟩
  · exact absurd hBack (by decide)
  · exact absurd hTab (by decide)
  · exact absurd hLow (by decide)
  · exact absurd hBack (by decide)
  · exact absurd hTab (by decide)
  · exact absurd hLow (by decide)

/-- **Step.** -/
theorem press_step (hFb : VbeVga.getFramebufferAddrs d.vbe = fb :: rest)
    (hStart : (d.console fb).curX < (d.console fb).cols) (h : Echoing d fb s) {k : Char}
    (hk : EchoKey k) :
    ∃ s', s.press k = some s' ∧ Echoing d fb s' ∧
      (InColumn d fb s → (InColumn d fb s' ↔ (k = '\x08' → Erasable d fb s))) := by
  rcases hk with rfl | hk
  · obtain ⟨s', hPress, hEcho, hIff⟩ := press_backspace hFb hStart h
    exact ⟨s', hPress, hEcho, fun hIn => (hIff hIn).trans (by simp)⟩
  · obtain ⟨s', hPress, hEcho, hKept⟩ := press_char hFb h hk
    exact ⟨s', hPress, hEcho, fun hIn =>
      iff_of_true (hKept hIn) fun hBack => absurd hBack hk.ne_backspace⟩

/-- The keys are echoed whatever they are. -/
theorem run_press (hFb : VbeVga.getFramebufferAddrs d.vbe = fb :: rest)
    (hStart : (d.console fb).curX < (d.console fb).cols) {keys : List Char}
    (hKeys : ∀ k ∈ keys, EchoKey k) :
    ∃ s, run LineInput.press ⟨[], d⟩ keys = some s ∧ Echoing d fb s := by
  induction keys using List.reverseRecOn with
  | nil => exact ⟨_, rfl, rfl, rfl, hStart, fun k hk => nomatch hk⟩
  | append_singleton keys k ih =>
    obtain ⟨s, hRun, hEcho⟩ := ih fun k' hk' => hKeys k' (List.mem_append_left _ hk')
    obtain ⟨s', hPress, hEcho', -⟩ := press_step hFb hStart hEcho
      (hKeys k (List.mem_append_right _ (List.mem_singleton_self k)))
    exact ⟨s', by rw [run_snoc LineInput.press hRun, hPress], hEcho'⟩

/-- After the echo of the keys the cursor is in the column in which printing the line
from the start leaves it. -/
def EchoAgrees (written : Bool) (d : Display) (fb : Nat) (keys : List Char) : Prop :=
  ∃ s p, getline written ⟨[], d⟩ (keys.map .unicode) = some s ∧
    d.print [lineBytes s.buf] = some p ∧
    (s.display.console fb).curX = (p.console fb).curX

theorem echoAgrees_iff (hFb : VbeVga.getFramebufferAddrs d.vbe = fb :: rest) {keys : List Char}
    (hKeys : ∀ k ∈ keys, EchoKey k) (hRun : run LineInput.press ⟨[], d⟩ keys = some s)
    (h : Echoing d fb s) (written : Bool) :
    EchoAgrees written d fb keys ↔ InColumn d fb s := by
  have hGetline : getline written ⟨[], d⟩ (keys.map .unicode) = some s := by
    rw [getline_eq_run fun k hk => (hKeys k hk).not_enter, hRun]
  have hTyped := lineBytes_typed h.typed
  have hFlat : [lineBytes s.buf].flatten = lineBytes s.buf := by simp
  obtain ⟨p, t, hPrint, hConsole, -, hT⟩ := Display.print_returns d hFb [lineBytes s.buf]
    (by rw [hFlat]; exact fun hMem => typed_ne_delete (hTyped _ hMem) rfl)
  rw [hFlat] at hConsole
  have hColumn := Console.printBytes_column hTyped hConsole
  constructor
  · rintro ⟨s', p', hLine, hPrint', hSame⟩
    obtain rfl : s = s' := Option.some.inj (hGetline.symm.trans hLine)
    obtain rfl : p = p' := Option.some.inj (hPrint.symm.trans hPrint')
    rw [InColumn, hSame, hT, hColumn]
  · intro hIn
    refine ⟨s, p, hGetline, hPrint, ?_⟩
    rw [hT, hColumn]
    exact hIn

/-- **The echo of every input so far leaves the cursor in the column of the edited line,
iff every backspace erases a character that took one column, or, in the corner, one
that was typed in the first column.** The start is any state with an active
framebuffer and the cursor in the text area. -/
theorem echo_iff (written : Bool) (d : Display) (fb : Nat) (rest : List Nat)
    (hFb : VbeVga.getFramebufferAddrs d.vbe = fb :: rest) (hStart : (d.console fb).Inside)
    (keys : List Char) (hKeys : ∀ k ∈ keys, EchoKey k) :
    (∀ before, before <+: keys → EchoAgrees written d fb before) ↔
    (∀ before k, before ++ [k] <+: keys → k = '\x08' →
      ∀ s, getline written ⟨[], d⟩ (before.map .unicode) = some s → Erasable d fb s) := by
  have hSub : ∀ {before}, before <+: keys → ∀ k ∈ before, EchoKey k :=
    fun hPre k hk => hKeys k (hPre.subset hk)
  refine prefixes_iff ?_ fun before k hPre hAgrees => ?_
  · obtain ⟨s, hRun, hEcho⟩ := run_press hFb hStart.1 (hSub (List.nil_prefix (l := keys)))
    refine (echoAgrees_iff hFb (hSub List.nil_prefix) hRun hEcho written).mpr ?_
    cases hRun
    rfl
  · have hPre' := (List.prefix_append before [k]).trans hPre
    obtain ⟨s, hRun, hEcho⟩ := run_press hFb hStart.1 (hSub hPre')
    obtain ⟨s', hPress, hEcho', hIff⟩ := press_step hFb hStart.1 hEcho
      (hSub hPre k (List.mem_append_right _ (List.mem_singleton_self k)))
    have hRun' : run LineInput.press ⟨[], d⟩ (before ++ [k]) = some s' := by
      rw [run_snoc LineInput.press hRun, hPress]
    have hGetline : getline written ⟨[], d⟩ (before.map .unicode) = some s := by
      rw [getline_eq_run fun k' hk' => (hSub hPre' k' hk').not_enter, hRun]
    rw [echoAgrees_iff hFb (hSub hPre') hRun hEcho] at hAgrees
    rw [echoAgrees_iff hFb (hSub hPre) hRun' hEcho', hIff hAgrees, hGetline]
    simp

/-- A character typed and erased in the first row. -/
theorem echo_erased_char :
    (Display.textDisplay.console 0xE0000000).Inside ∧
      ∀ before, before <+: ['A', '\x08'] →
        EchoAgrees true Display.textDisplay 0xE0000000 before := by
  have hStart : (Display.textDisplay.console 0xE0000000).Inside := ⟨by decide, by decide⟩
  refine ⟨hStart, (echo_iff true Display.textDisplay 0xE0000000 [] rfl hStart _ ?_).mpr ?_⟩
  · intro k hk
    rcases List.mem_cons.mp hk with rfl | hk
    · exact Or.inr (Or.inr (by decide))
    · exact Or.inl (List.mem_singleton.mp hk)
  · rintro before k hPre rfl s hLine front b hBytes
    -- the backspace is the second key
    obtain rfl : before = ['A'] := by
      rcases before with _ | ⟨x, _ | ⟨y, rest⟩⟩ <;> simp at hPre ⊢
      exact hPre
    have hBuf : ['A'] = s.buf := Option.some.inj (congrArg (Option.map LineInput.buf) hLine)
    rw [← hBuf] at hBytes
    obtain ⟨hFront, hLast⟩ : [] = front ∧ [0x41] = [b] := List.append_inj' hBytes rfl
    obtain rfl : 0x41 = b := List.head_eq_of_cons_eq hLast
    unfold ErasableAt
    split_ifs
    · rw [← hFront]
      rfl
    · exact Or.inl (by decide)

/-- Erasing a tab leads back one column of eight: the line is empty again, and the cursor
is in column 7. -/
theorem echo_erased_tab :
    (getline true ⟨[], Display.textDisplay⟩ [.unicode '\t', .unicode '\x08']).map
        (fun s => (s.buf, (s.display.console 0xE0000000).curX)) = some ([], 7) ∧
    (Display.textDisplay.print [lineBytes []]).map (fun p => (p.console 0xE0000000).curX) =
      some 0 := by
  decide +kernel

end Echo

end Neutrix
