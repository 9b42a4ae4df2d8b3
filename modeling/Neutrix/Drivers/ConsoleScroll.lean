import Neutrix.Drivers.ConsoleCursor
import Neutrix.Lib.While

/-!
# Neutrix — the bytes of a scroll

`console_scroll_mut` moves the lower rows of text up and clears the rows
that are left. Both parts are computed in bytes, from a pitch that can be
any number. The clearing loop writes words and would fall back to single
zero bytes when less than a word is left. A row of text is 8 lines high, so
what it clears is always a whole number of words, whatever the pitch.

* `scrollMut_bytes` — every byte after the scroll, and every round of the
  clearing loop;
* `run_cells` — every console made and driven by the public calls has rows
  of 8 lines.
-/

namespace Neutrix.Console

open Neutrix.Lib

-- ---------------------------------------------------------------------------
-- The clearing loop
-- ---------------------------------------------------------------------------

/-- One round of the clearing loop, on the pointer `p` and memory. -/
def clearStep (bg : UInt32) (end_ : Nat) (s : Nat × Memory) : Nat × Memory :=
  let (p, mem) := s
  if end_ - p ≥ 4 then (p + 4, mem.write32 p bg) else (p + 1, mem.write8 p 0)

theorem clearStep_word {bg : UInt32} {end_ p : Nat} {mem : Memory} (h : end_ - p ≥ 4) :
    clearStep bg end_ (p, mem) = (p + 4, mem.write32 p bg) := by
  rw [clearStep, if_pos h]

theorem clearStep_byte {bg : UInt32} {end_ p : Nat} {mem : Memory} (h : ¬ end_ - p ≥ 4) :
    clearStep bg end_ (p, mem) = (p + 1, mem.write8 p 0) := by
  rw [clearStep, if_neg h]

/-- `while p < end` ends with what `clearBytes` computes. -/
theorem loop_clearStep (bg : UInt32) (mem : Memory) {p n end_ fuel : Nat} (hEnd : p + n = end_)
    (hFuel : n ≤ fuel) :
    loop (fun s => s.1 < end_) (clearStep bg end_) fuel (p, mem) =
      some (end_, clearBytes bg mem p n) := by
  fun_induction clearBytes bg mem p n generalizing fuel with
  | case1 mem p =>
    subst hEnd
    refine loop_of_not ?_ fuel
    exact Nat.lt_irrefl p
  | case2 mem p n ih =>
    obtain ⟨fuel, rfl⟩ := Nat.exists_eq_add_of_le' (Nat.le_trans (Nat.le_add_left 1 (n + 3)) hFuel)
    refine (loop_succ ?_ fuel).trans ?_
    · show p < end_
      omega
    · rw [clearStep_word (by omega)]
      exact ih (by omega) (by omega)
  | case3 mem p n hShort ih =>
    obtain ⟨fuel, rfl⟩ := Nat.exists_eq_add_of_le' (Nat.le_trans (Nat.le_add_left 1 n) hFuel)
    -- less than a word is left
    have hLess : ¬ end_ - p ≥ 4 := fun hWord => hShort (n - 3) (by omega)
    refine (loop_succ ?_ fuel).trans ?_
    · show p < end_
      omega
    · rw [clearStep_byte hLess]
      exact ih (by omega) (by omega)

/-- Over whole words the loop repeats the background word. -/
theorem clearBytes_words (bg : UInt32) (mem : Memory) (p q a : Nat) :
    clearBytes bg mem p (4 * q) a =
      if p ≤ a ∧ a < p + 4 * q then Memory.byteOf bg ((a - p) % 4) else mem a := by
  induction q generalizing mem p with
  | zero =>
    rw [if_neg (by omega)]
    rfl
  | succ q ih =>
    have hStep : clearBytes bg mem p (4 * (q + 1)) =
        clearBytes bg (mem.write32 p bg) (p + 4) (4 * q) := rfl
    rw [hStep, ih, Memory.write32]
    by_cases hRest : p + 4 ≤ a ∧ a < p + 4 + 4 * q
    · have hMod : (a - (p + 4)) % 4 = (a - p) % 4 := by omega
      rw [if_pos hRest, if_pos (by omega), hMod]
    rw [if_neg hRest]
    by_cases hFirst : p ≤ a ∧ a < p + 4
    · rw [if_pos hFirst, if_pos (by omega), Nat.mod_eq_of_lt (by omega)]
    · rw [if_neg hFirst, if_neg (by omega)]

/-- Over whole words every round has a word left. -/
theorem clearStep_word_left {bg : UInt32} {mem mem' : Memory} {p q at_ rounds : Nat}
    (hRounds : (clearStep bg (p + 4 * q))^[rounds] (p, mem) = (at_, mem'))
    (hMore : at_ < p + 4 * q) : 4 ≤ p + 4 * q - at_ := by
  -- the pointer is a whole number of words before the end until it is there
  have hWords : p + 4 * q ≤ at_ ∨ ∃ r, at_ + 4 * r = p + 4 * q := by
    clear hMore
    induction rounds generalizing at_ mem' with
    | zero =>
      cases hRounds
      exact .inr ⟨q, rfl⟩
    | succ rounds ih =>
      rw [Function.iterate_succ_apply'] at hRounds
      rcases hBefore : (clearStep bg (p + 4 * q))^[rounds] (p, mem) with ⟨before, memBefore⟩
      have hWords := ih hBefore
      rw [hBefore] at hRounds
      by_cases hLeft : p + 4 * q - before ≥ 4
      · rw [clearStep_word hLeft] at hRounds
        cases hRounds
        rcases hWords with hPast | ⟨r, hr⟩
        · omega
        · exact .inr ⟨r - 1, by omega⟩
      · rw [clearStep_byte hLeft] at hRounds
        cases hRounds
        rcases hWords with hPast | ⟨r, hr⟩ <;> exact .inl (by omega)
  rcases hWords with hPast | ⟨r, hr⟩ <;> omega

-- ---------------------------------------------------------------------------
-- The scroll
-- ---------------------------------------------------------------------------

/-- The pitch the scroll works with. -/
def scrollPitch (vbe : Option VbeVga) : Nat :=
  match VbeVga.getFbInfo vbe with
  | some info => info.pitch
  | none => 1024 * 4

/-- The bytes of `n` rows of text. -/
def textBytes (vbe : Option VbeVga) (c : Console) (n : Nat) : Nat := n * c.charH * scrollPitch vbe

/-- Memory when the clearing loop starts. -/
def movedUp (vbe : Option VbeVga) (c : Console) (mem : Memory) (lines : Nat) : Memory :=
  mem.copy (c.fbVirt + textBytes vbe c lines) c.fbVirt (textBytes vbe c (c.rows - lines))

section Scroll

variable {vbe : Option VbeVga} {c : Console} {mem : Memory} {lines : Nat}

theorem textBytes_add (m n : Nat) :
    textBytes vbe c (m + n) = textBytes vbe c m + textBytes vbe c n := by
  unfold textBytes
  rw [Nat.add_mul, Nat.add_mul]

theorem textBytes_words (vbe : Option VbeVga) (hCell : c.charH = 8) (n : Nat) :
    ∃ q, textBytes vbe c n = 4 * q := by
  refine ⟨n * 2 * scrollPitch vbe, ?_⟩
  rw [textBytes, hCell, ← Nat.mul_assoc]
  congr 1
  omega

theorem scrollMut_eq (hLines : 1 ≤ lines) (hRows : lines < c.rows) :
    scrollMut vbe c mem lines = (c, clearBytes c.bg (movedUp vbe c mem lines)
      (c.fbVirt + textBytes vbe c (c.rows - lines)) (textBytes vbe c lines)) := by
  rw [scrollMut, if_neg (by omega)]
  dsimp only
  rw [if_neg (Nat.not_le.mpr hRows)]
  rfl

/-- **The scroll, byte by byte.** The rows from `lines` on have moved to the top,
the last `lines` rows hold the background word over and over, no other byte
and nothing of the console has changed. The clearing loop of the source ends
there, and whenever it starts a round it has a word left. -/
theorem scrollMut_bytes (vbe : Option VbeVga) (c : Console) (mem : Memory) (lines : Nat)
    (hLines : 1 ≤ lines) (hRows : lines < c.rows) (hCell : c.charH = 8) :
    (scrollMut vbe c mem lines).1 = c ∧
    (∀ i < textBytes vbe c (c.rows - lines),
      (scrollMut vbe c mem lines).2 (c.fbVirt + i) =
        mem (c.fbVirt + textBytes vbe c lines + i)) ∧
    (∀ i < textBytes vbe c lines,
      (scrollMut vbe c mem lines).2 (c.fbVirt + textBytes vbe c (c.rows - lines) + i) =
        Memory.byteOf c.bg (i % 4)) ∧
    (∀ a, a < c.fbVirt ∨ c.fbVirt + textBytes vbe c c.rows ≤ a →
      (scrollMut vbe c mem lines).2 a = mem a) ∧
    loop (fun s => s.1 < c.fbVirt + textBytes vbe c c.rows)
        (clearStep c.bg (c.fbVirt + textBytes vbe c c.rows)) (textBytes vbe c lines)
        (c.fbVirt + textBytes vbe c (c.rows - lines), movedUp vbe c mem lines) =
      some (c.fbVirt + textBytes vbe c c.rows, (scrollMut vbe c mem lines).2) ∧
    ∀ rounds p mem', (clearStep c.bg (c.fbVirt + textBytes vbe c c.rows))^[rounds]
          (c.fbVirt + textBytes vbe c (c.rows - lines), movedUp vbe c mem lines) = (p, mem') →
      p < c.fbVirt + textBytes vbe c c.rows → 4 ≤ c.fbVirt + textBytes vbe c c.rows - p := by
  have hAll : textBytes vbe c c.rows =
      textBytes vbe c (c.rows - lines) + textBytes vbe c lines := by
    rw [← textBytes_add, Nat.sub_add_cancel (Nat.le_of_lt hRows)]
  have hEnd : c.fbVirt + textBytes vbe c c.rows =
      c.fbVirt + textBytes vbe c (c.rows - lines) + textBytes vbe c lines := by
    rw [hAll, Nat.add_assoc]
  obtain ⟨q, hWords⟩ := textBytes_words vbe hCell lines
  rw [scrollMut_eq hLines hRows, hEnd]
  refine ⟨rfl, fun i hi => ?_, fun i hi => ?_, fun a ha => ?_, ?_, ?_⟩
  · show clearBytes _ _ _ _ _ = _
    rw [hWords, clearBytes_words, if_neg (by omega), movedUp, Memory.copy, if_pos (by omega),
      Nat.add_sub_cancel_left, hWords]
  · show clearBytes _ _ _ _ _ = _
    rw [hWords] at hi ⊢
    rw [clearBytes_words, if_pos (by omega), Nat.add_sub_cancel_left]
  · show clearBytes _ _ _ _ _ = _
    rw [hWords] at ha ⊢
    rw [clearBytes_words, if_neg (by omega), movedUp, Memory.copy, if_neg (by omega)]
  · exact loop_clearStep c.bg _ rfl (Nat.le_refl _)
  · intro rounds p mem' hRounds hMore
    rw [hWords] at hRounds hMore ⊢
    exact clearStep_word_left hRounds hMore

/-- The console that is made when the mode is not known, with a blue background. -/
def blueConsole : Console := { Display.newConsole none 0x1000 with bg := 0x4080FF }

/-- It is scrolled by three of its 25 rows, in a memory whose bytes tell their line: the first
byte comes from line 24, and the last rows begin with the background. -/
theorem scrollMut_bytes_newConsole :
    (scrollMut none blueConsole (fun a => UInt8.ofNat (a / 0x1000 - 1)) 3).1 = blueConsole ∧
    (scrollMut none blueConsole (fun a => UInt8.ofNat (a / 0x1000 - 1)) 3).2 0x1000 = 24 ∧
    (scrollMut none blueConsole (fun a => UInt8.ofNat (a / 0x1000 - 1)) 3).2
      (0x1000 + 22 * 8 * 0x1000) = 0xFF := by
  obtain ⟨hConsole, hMoved, hCleared, -⟩ := scrollMut_bytes none blueConsole
    (fun a => UInt8.ofNat (a / 0x1000 - 1)) 3 (by decide) (by decide) rfl
  exact ⟨hConsole, hMoved 0 (by decide), hCleared 0 (by decide)⟩

end Scroll

end Neutrix.Console

namespace Neutrix.Display

open Neutrix.Lib

-- ---------------------------------------------------------------------------
-- Rows are 8 lines high
-- ---------------------------------------------------------------------------

def AllCells (d : Display) : Prop := ∀ c ∈ d.consoles, c.charH = 8

theorem onConsole_charH {vbe : Option VbeVga} {fb : Nat} {s t : Console × Memory} {call : Call}
    (h : call.onConsole vbe fb s = some t) : t.1.charH = s.1.charH := by
  cases call with
  | print bytes => rw [Console.printBytes_onlyCursor vbe fb _ _ h]
  | setCursor col row =>
    cases h
    rfl
  | setColors fg bg =>
    cases h
    rfl
  | clear =>
    cases h
    rfl

theorem step_cells {d e : Display} {call : Call} (hCells : d.AllCells) (h : d.step call = some e) :
    e.AllCells := by
  cases hFb : VbeVga.getFramebufferAddrs d.vbe with
  | nil =>
    have hSame : e.consoles = d.consoles := step_consoles_of_nil hFb h
    rw [AllCells, hSame]
    exact hCells
  | cons fb rest =>
    rw [step_eq hFb, Option.map_eq_some_iff] at h
    obtain ⟨s, hs, rfl⟩ := h
    intro c hc
    rcases mem_of_mem_upsert hc with rfl | hOld
    · rw [onConsole_charH hs]
      have hFrom : d.console fb = newConsole d.vbe fb ∨ d.console fb ∈ d.consoles := lookup_mem
      rcases hFrom with hNew | hOld
      · exact congrArg Console.charH hNew
      · exact hCells _ hOld
    · exact hCells c hOld

/-- **Rows of 8 lines.** Whatever is printed, cleared and set, starting without a
console. -/
theorem run_cells {d e : Display} (hNone : d.consoles = []) {calls : List Call}
    (hRun : run step d calls = some e) : e.AllCells := by
  have hInit : d.AllCells := by simp [AllCells, hNone]
  exact run_invariant step (fun _ _ _ hCells hStep => step_cells hCells hStep) hInit hRun

end Neutrix.Display
