import Neutrix.Drivers.Console
import Neutrix.Lib.Keyed
import Neutrix.Lib.Run

/-!
# Neutrix — the console cursor stays in the text area

The console is driven by calls that print, clear and place the cursor. A
print is the print of nothing, which makes the console, followed by the
prints of its single bytes (`run_bytes`), so the states after the single
calls of `Call.bytes` are the states after every byte. Each call acts on
one console (`step_eq`), and each byte moves its cursor in one of a few
ways (`printByte_spec`): all of them keep the cursor inside the text area
but the tab at the end of the last row, which starts a new line without
the scroll check of the other branches. Hence

* `cursorInside_iff` — the cursor is inside the text area after every byte
  exactly when no tab is processed there.
-/

namespace Neutrix

open Neutrix.Lib

namespace Console

-- ---------------------------------------------------------------------------
-- One byte
-- ---------------------------------------------------------------------------

def Inside (c : Console) : Prop := c.curX < c.cols ∧ c.curY < c.rows

/-- The pixels of the cell at the cursor lie in the text area. -/
def CellInside (c : Console) : Prop :=
  c.curX * c.charW + c.charW ≤ c.cols * c.charW ∧ c.curY * c.charH + c.charH ≤ c.rows * c.charH

theorem Inside.cellInside {c : Console} (h : c.Inside) : c.CellInside := by
  refine ⟨?_, ?_⟩
  · rw [← Nat.succ_mul]
    exact Nat.mul_le_mul_right _ h.1
  · rw [← Nat.succ_mul]
    exact Nat.mul_le_mul_right _ h.2

/-- No tab stop is left in the last row. -/
def AtLastStop (c : Console) : Prop := c.rows ≤ c.curY + 1 ∧ c.cols ≤ c.nextTab

/-- `c'` is the same console with another cursor. -/
structure SameText (c c' : Console) : Prop where
  fbVirt : c'.fbVirt = c.fbVirt
  cols   : c'.cols = c.cols
  rows   : c'.rows = c.rows

/-- A call keeps the cursor inside. -/
structure Keeps (c c' : Console) : Prop extends SameText c c' where
  inside : c.Inside → c'.Inside

variable (vbe : Option VbeVga) (fb : Nat) (c : Console) (mem : Memory)

theorem scrollMut_sameText (lines : Nat) : SameText c (scrollMut vbe c mem lines).1 := by
  unfold scrollMut
  split_ifs <;> exact ⟨rfl, rfl, rfl⟩

theorem scrollMut_curX (h : c.curX = 0) (lines : Nat) :
    (scrollMut vbe c mem lines).1.curX = 0 := by
  unfold scrollMut
  split_ifs
  · exact h
  · rfl
  · exact h

theorem newlineScroll_keeps : Keeps c (newlineScroll vbe c mem).1 := by
  unfold newlineScroll
  dsimp only
  split_ifs with hRow
  · have hText := scrollMut_sameText vbe c.newline mem 1
    refine ⟨⟨hText.fbVirt, hText.cols, hText.rows⟩, fun hc => ⟨?_, ?_⟩⟩
    · have hX := scrollMut_curX vbe c.newline mem rfl 1
      have hCols := hText.cols
      have := hc.1
      simp only [newline] at hX hCols ⊢
      omega
    · have hRows := hText.rows
      have := hc.2
      simp only [newline] at hRows ⊢
      omega
  · refine ⟨⟨rfl, rfl, rfl⟩, fun hc => ⟨?_, Nat.lt_of_not_le hRow⟩⟩
    exact Nat.zero_lt_of_lt hc.1

theorem backspace_keeps : Keeps c (backspace vbe fb c mem).1 := by
  unfold backspace
  dsimp only
  split_ifs with hX hY
  · exact ⟨⟨rfl, rfl, rfl⟩, fun hc => ⟨by have := hc.1; dsimp only; omega, hc.2⟩⟩
  · refine ⟨⟨rfl, rfl, rfl⟩, fun hc => ⟨?_, ?_⟩⟩
    · exact Nat.sub_lt (Nat.zero_lt_of_lt hc.1) Nat.one_pos
    · exact Nat.lt_of_le_of_lt (Nat.sub_le _ _) hc.2
  · exact ⟨⟨rfl, rfl, rfl⟩, id⟩

theorem putChar_keeps {b : UInt8} {s : Console × Memory} (h : putChar vbe fb c mem b = some s) :
    Keeps c s.1 := by
  unfold putChar at h
  split at h
  · contradiction
  · rename_i mem' _
    dsimp only at h
    split_ifs at h with hX
    · cases h
      have hKeeps := newlineScroll_keeps vbe { c with curX := c.curX + 1 } mem'
      refine ⟨⟨hKeeps.fbVirt, hKeeps.cols, hKeeps.rows⟩, fun hc => ?_⟩
      -- the column the character left the cursor in is never read again
      have hSame : newlineScroll vbe { c with curX := c.curX + 1 } mem' =
          newlineScroll vbe c mem' := rfl
      rw [hSame]
      exact (newlineScroll_keeps vbe c mem').inside hc
    · cases h
      exact ⟨⟨rfl, rfl, rfl⟩, fun hc => ⟨Nat.lt_of_not_le hX, hc.2⟩⟩

theorem tab_sameText : SameText c c.tab := by
  unfold tab newline
  split <;> exact ⟨rfl, rfl, rfl⟩

variable {c}

theorem tab_inside_iff (h : c.Inside) : c.tab.Inside ↔ ¬ c.AtLastStop := by
  unfold tab AtLastStop
  have := h.1
  have := h.2
  split
  · simp only [Inside, newline]
    omega
  · simp only [Inside]
    omega

/-- What a byte does to the cursor. -/
theorem printByte_spec {mem : Memory} {b : UInt8} {s : Console × Memory}
    (h : printByte vbe fb (c, mem) b = some s) :
    SameText c s.1 ∧ (c.Inside → (s.1.Inside ↔ ¬ (b = 9 ∧ c.AtLastStop))) := by
  -- every branch but the tab keeps the cursor inside
  have hOther : Keeps c s.1 → b ≠ 9 →
      SameText c s.1 ∧ (c.Inside → (s.1.Inside ↔ ¬ (b = 9 ∧ c.AtLastStop))) := by
    intro hKeeps hb
    exact ⟨hKeeps.toSameText, fun hc => ⟨fun _ h9 => hb h9.1, fun _ => hKeeps.inside hc⟩⟩
  simp only [printByte] at h
  split_ifs at h with hLF hCR hBS hTab
  · cases h
    exact hOther (newlineScroll_keeps vbe c mem) (by simp [hLF])
  · cases h
    refine hOther ⟨⟨rfl, rfl, rfl⟩, fun hc => ⟨Nat.zero_lt_of_lt hc.1, hc.2⟩⟩ (by simp [hCR])
  · cases h
    exact hOther (backspace_keeps vbe fb c mem) (by simp [hBS])
  · cases h
    refine ⟨tab_sameText c, fun hc => ?_⟩
    rw [tab_inside_iff hc]
    simp [hTab]
  · exact hOther (putChar_keeps vbe fb c mem h) hTab

/-- A print that returns has returned from each byte. -/
theorem printBytes_cons_eq_some {s t : Console × Memory} {b : UInt8} {rest : List UInt8} :
    printBytes vbe fb s (b :: rest) = some t ↔
      ∃ u, printByte vbe fb s b = some u ∧ printBytes vbe fb u rest = some t := by
  rw [printBytes]
  cases printByte vbe fb s b with
  | none => simp only [reduceCtorEq, false_and, exists_false]
  | some u => simp only [Option.some.injEq, exists_eq_left']

/-- `c'` differs from `c` in the cursor only. -/
def OnlyCursor (c c' : Console) : Prop := c' = { c with curX := c'.curX, curY := c'.curY }

variable (c)

theorem newlineScroll_onlyCursor : OnlyCursor c (newlineScroll vbe c mem).1 := by
  unfold newlineScroll scrollMut
  dsimp only
  split_ifs <;> rfl

theorem printByte_onlyCursor {b : UInt8} {t : Console × Memory}
    (h : printByte vbe fb (c, mem) b = some t) : OnlyCursor c t.1 := by
  simp only [printByte] at h
  split_ifs at h with hLF hCR hBS hTab
  · cases h
    exact newlineScroll_onlyCursor vbe c mem
  · cases h
    rfl
  · cases h
    unfold backspace
    dsimp only
    split_ifs <;> rfl
  · cases h
    unfold tab
    split <;> rfl
  · unfold putChar at h
    split at h
    · contradiction
    · dsimp only at h
      split_ifs at h <;> cases h
      · exact newlineScroll_onlyCursor vbe { c with curX := c.curX + 1 } _
      · rfl

theorem OnlyCursor.trans {c c' c'' : Console} (h : OnlyCursor c c') (h' : OnlyCursor c' c'') :
    OnlyCursor c c'' := by
  calc c'' = { c' with curX := c''.curX, curY := c''.curY } := h'
    _ = { c with curX := c''.curX, curY := c''.curY } := by rw [h]

theorem printBytes_onlyCursor {bytes : List UInt8} {t : Console × Memory}
    (h : printBytes vbe fb (c, mem) bytes = some t) : OnlyCursor c t.1 := by
  induction bytes generalizing c mem with
  | nil =>
    cases h
    rfl
  | cons b rest ih =>
    obtain ⟨u, hByte, hRest⟩ := (printBytes_cons_eq_some vbe fb).mp h
    exact (printByte_onlyCursor vbe fb c mem hByte).trans (ih u.1 u.2 hRest)

variable {c}

theorem printBytes_sameText {mem : Memory} {bytes : List UInt8} {s : Console × Memory}
    (h : printBytes vbe fb (c, mem) bytes = some s) : SameText c s.1 := by
  rw [printBytes_onlyCursor vbe fb c mem h]
  exact ⟨rfl, rfl, rfl⟩

theorem printBytes_append (s : Console × Memory) (xs ys : List UInt8) :
    printBytes vbe fb s (xs ++ ys) =
      (printBytes vbe fb s xs).bind fun t => printBytes vbe fb t ys := by
  induction xs generalizing s with
  | nil => rfl
  | cons b rest ih =>
    rw [List.cons_append, printBytes, printBytes]
    cases printByte vbe fb s b with
    | none => rfl
    | some t => exact ih t

end Console

namespace Display

-- ---------------------------------------------------------------------------
-- Calls
-- ---------------------------------------------------------------------------

inductive Call
  | print (s : List UInt8)
  | setCursor (col row : Nat)
  | setColors (fg bg : UInt32)
  | clear
deriving DecidableEq, Repr

/-- One call of the public helpers. -/
def step (d : Display) : Call → Option Display
  | .print s => (d.consolePrintFirst s).map Prod.snd
  | .setCursor col row => some (d.consoleSetCursorFirst col row)
  | .setColors fg bg => some (d.consoleSetColorsFirst fg bg)
  | .clear => d.consoleClearFirst

/-- The call with a print taken byte by byte. -/
def Call.bytes : Call → List Call
  | .print s => .print [] :: s.map fun b => .print [b]
  | call => [call]

/-- What a call does to the console it acts on. -/
def Call.onConsole (vbe : Option VbeVga) (fb : Nat) (s : Console × Memory) :
    Call → Option (Console × Memory)
  | .print bytes => Console.printBytes vbe fb s bytes
  | .setCursor col row => some (s.1.setCursor col row, s.2)
  | .setColors fg bg => some ({ s.1 with fg, bg }, s.2)
  | .clear => some (s.1.clear vbe s.2)

/-- The console a call acts on: the framebuffer's, or the one it would make. -/
def console (d : Display) (fb : Nat) : Console :=
  lookup Console.fbVirt fb (newConsole d.vbe fb) d.consoles

/-- The display with another state of the framebuffer's console and of memory. -/
def put (d : Display) (fb : Nat) (s : Console × Memory) : Display :=
  { d with consoles := upsert Console.fbVirt fb s.1 d.consoles, mem := s.2 }

variable {d : Display} {fb : Nat}

theorem getOrCreateConsole_eq :
    d.getOrCreateConsole fb =
      ((locate Console.fbVirt fb (newConsole d.vbe fb) d.consoles).1,
        { d with consoles := (locate Console.fbVirt fb (newConsole d.vbe fb) d.consoles).2 }) := by
  unfold getOrCreateConsole locate
  cases d.consoles.findIdx? (fun c => decide (c.fbVirt = fb)) <;> rfl

theorem withConsole_eq (f : Console × Memory → Option (Console × Memory)) :
    d.withConsole fb f = (f (d.console fb, d.mem)).map (d.put fb) := by
  simp only [withConsole, getOrCreateConsole_eq, locate_get]
  have hConsole : lookup Console.fbVirt fb (newConsole d.vbe fb) d.consoles = d.console fb := rfl
  rw [hConsole]
  cases f (d.console fb, d.mem) with
  | none => rfl
  | some s => simp only [locate_replace, Option.map_some, put]

/-- A call acts on the console of the first framebuffer and on nothing else. -/
theorem step_eq {rest : List Nat} (hFb : VbeVga.getFramebufferAddrs d.vbe = fb :: rest)
    (call : Call) :
    d.step call = (call.onConsole d.vbe fb (d.console fb, d.mem)).map (d.put fb) := by
  cases call with
  | print s =>
    simp only [step, consolePrintFirst, hFb, withConsole_eq, Call.onConsole]
    cases Console.printBytes d.vbe fb (d.console fb, d.mem) s <;> rfl
  | setCursor col row =>
    simp only [step, consoleSetCursorFirst, modifyConsole, hFb, getOrCreateConsole_eq,
      locate_modify]
    rfl
  | setColors fg bg =>
    simp only [step, consoleSetColorsFirst, modifyConsole, hFb, getOrCreateConsole_eq,
      locate_modify]
    rfl
  | clear => simp only [step, consoleClearFirst, hFb, withConsole_eq, Call.onConsole]

/-- Without a framebuffer no console is touched. -/
theorem step_consoles_of_nil {e : Display} {call : Call}
    (hFb : VbeVga.getFramebufferAddrs d.vbe = []) (h : d.step call = some e) :
    e.consoles = d.consoles := by
  cases call <;>
    simp only [step, consolePrintFirst, consoleSetCursorFirst, consoleSetColorsFirst,
      modifyConsole, consoleClearFirst, hFb, Option.map_some, Option.some.injEq] at h <;>
    rw [← h]

theorem newConsole_inside (vbe : Option VbeVga) : (newConsole vbe fb).Inside := by
  unfold newConsole Console.Inside
  cases VbeVga.getFbInfo vbe with
  | none => exact ⟨Nat.zero_lt_succ 79, Nat.zero_lt_succ 24⟩
  | some info =>
    dsimp only
    split_ifs <;> omega

theorem newConsole_fbVirt (vbe : Option VbeVga) : (newConsole vbe fb).fbVirt = fb := rfl

theorem console_fbVirt : (d.console fb).fbVirt = fb := key_lookup (newConsole_fbVirt d.vbe)

theorem onConsole_sameText {vbe : Option VbeVga} {s t : Console × Memory} {call : Call}
    (h : call.onConsole vbe fb s = some t) : Console.SameText s.1 t.1 := by
  cases call with
  | print bytes => exact Console.printBytes_sameText vbe fb h
  | setCursor col row =>
    cases h
    exact ⟨rfl, rfl, rfl⟩
  | setColors fg bg =>
    cases h
    exact ⟨rfl, rfl, rfl⟩
  | clear =>
    cases h
    exact ⟨rfl, rfl, rfl⟩

-- ---------------------------------------------------------------------------
-- A print is the prints of its bytes
-- ---------------------------------------------------------------------------

/-- Two calls in a row, on the console they both act on. -/
theorem step_step {rest : List Nat} (hFb : VbeVga.getFramebufferAddrs d.vbe = fb :: rest)
    (call next : Call) :
    (d.step call).bind (fun e => e.step next) =
      ((call.onConsole d.vbe fb (d.console fb, d.mem)).bind
        fun s => next.onConsole d.vbe fb s).map (d.put fb) := by
  rw [step_eq hFb]
  cases hCall : call.onConsole d.vbe fb (d.console fb, d.mem) with
  | none => rfl
  | some s =>
    have hKey : s.1.fbVirt = fb := (onConsole_sameText hCall).fbVirt.trans console_fbVirt
    have hConsole : (d.put fb s).console fb = s.1 := lookup_upsert hKey
    simp only [Option.map_some, Option.bind_some]
    rw [step_eq (d := d.put fb s) hFb, hConsole]
    -- the second call's put overwrites the first
    have hPut : (d.put fb s).put fb = d.put fb := by
      funext t
      simp only [put, upsert_upsert hKey]
    rw [hPut]
    rfl

theorem step_print_append (s t : List UInt8) :
    d.step (.print (s ++ t)) = (d.step (.print s)).bind fun e => e.step (.print t) := by
  cases hFb : VbeVga.getFramebufferAddrs d.vbe with
  | nil =>
    simp [step, consolePrintFirst, hFb, Vga.Writer.writeString, List.foldl_append]
  | cons fb rest =>
    rw [step_step hFb, step_eq hFb]
    congr 1
    exact Console.printBytes_append d.vbe fb _ s t

theorem run_print_bytes (s t : List UInt8) :
    run step d (.print s :: t.map fun b => .print [b]) = d.step (.print (s ++ t)) := by
  induction t generalizing s with
  | nil =>
    rw [List.map_nil, run_singleton, List.append_nil]
  | cons b rest ih =>
    have hStep := ih (s ++ [b])
    rw [List.append_assoc, List.singleton_append] at hStep
    rw [← hStep, run_cons_eq, run_cons_eq, step_print_append, Option.bind_assoc]
    congr 1
    funext e
    rw [List.map_cons, run_cons_eq]

/-- **Calls byte by byte reach what the calls reach.** -/
theorem run_bytes (calls : List Call) : run step d (calls.flatMap Call.bytes) = run step d calls := by
  induction calls generalizing d with
  | nil => rfl
  | cons call rest ih =>
    have hCall : run step d call.bytes = d.step call := by
      cases call with
      | print s => exact run_print_bytes [] s
      | setCursor col row => exact run_singleton step d _
      | setColors fg bg => exact run_singleton step d _
      | clear => exact run_singleton step d _
    rw [List.flatMap_cons, run_append_eq, hCall, run_cons_eq]
    congr 1
    funext e
    exact ih

-- ---------------------------------------------------------------------------
-- Runs
-- ---------------------------------------------------------------------------

/-- A call that prints at most one byte. -/
def Call.Single : Call → Prop
  | .print s => s.length ≤ 1
  | _ => True

theorem single_of_mem_bytes {call one : Call} (h : one ∈ call.bytes) : one.Single := by
  cases call with
  | print s =>
    rcases List.mem_cons.mp h with rfl | hMem
    · exact Nat.zero_le 1
    · obtain ⟨b, -, rfl⟩ := List.mem_map.mp hMem
      exact Nat.le_refl 1
  | setCursor col row =>
    cases List.mem_singleton.mp h
    trivial
  | setColors fg bg =>
    cases List.mem_singleton.mp h
    trivial
  | clear =>
    cases List.mem_singleton.mp h
    trivial

theorem onConsole_inside_iff {vbe : Option VbeVga} {s t : Console × Memory} {call : Call}
    (hSingle : call.Single) (hIn : s.1.Inside) (h : call.onConsole vbe fb s = some t) :
    t.1.Inside ↔ ¬ (call = .print [9] ∧ s.1.AtLastStop) := by
  -- the calls other than a print put the cursor inside
  have hOther : t.1.Inside → (∀ bytes, call ≠ .print bytes) →
      (t.1.Inside ↔ ¬ (call = .print [9] ∧ s.1.AtLastStop)) :=
    fun hOk hNe => ⟨fun _ h9 => hNe _ h9.1, fun _ => hOk⟩
  have hX := Nat.zero_lt_of_lt hIn.1
  have hY := Nat.zero_lt_of_lt hIn.2
  cases call with
  | print bytes =>
    match bytes, hSingle with
    | [], _ =>
      cases h
      simp [hIn]
    | [b], _ =>
      have hByte : Console.printByte vbe fb (s.1, s.2) b = some t := by
        simp only [Call.onConsole, Console.printBytes] at h
        split at h <;> simp_all
      simpa using (Console.printByte_spec vbe fb hByte).2 hIn
  | setCursor col row =>
    cases h
    refine hOther ⟨?_, ?_⟩ (by simp)
    · exact Nat.lt_of_le_of_lt (Nat.min_le_right _ _) (Nat.sub_lt hX Nat.one_pos)
    · exact Nat.lt_of_le_of_lt (Nat.min_le_right _ _) (Nat.sub_lt hY Nat.one_pos)
  | setColors fg bg =>
    cases h
    exact hOther hIn (by simp)
  | clear =>
    cases h
    exact hOther ⟨hX, hY⟩ (by simp)

def AllInside (d : Display) : Prop := ∀ c ∈ d.consoles, c.Inside

/-- The call prints a tab when the first framebuffer's cursor is past the last
tab stop of the last row. -/
def TabAtLastStop (d : Display) (call : Call) : Prop :=
  call = .print [9] ∧
    ∃ fb ∈ (VbeVga.getFramebufferAddrs d.vbe).head?, (d.console fb).AtLastStop

theorem AllInside.console (h : d.AllInside) : (d.console fb).Inside := by
  have hMem : d.console fb = newConsole d.vbe fb ∨ d.console fb ∈ d.consoles := lookup_mem
  rcases hMem with hNew | hOld
  · rw [hNew]
    exact newConsole_inside d.vbe
  · exact h _ hOld

theorem allInside_put_iff (h : d.AllInside) {s : Console × Memory} :
    (d.put fb s).AllInside ↔ s.1.Inside := by
  constructor
  · intro hPut
    exact hPut s.1 mem_upsert_self
  · intro hs c hc
    rcases mem_of_mem_upsert hc with rfl | hOld
    · exact hs
    · exact h c hOld

/-- **Step.** Of the calls that print at most one byte, exactly the tab at the
last stop takes a cursor outside. -/
theorem step_inside_iff {e : Display} {call : Call} (hSingle : call.Single) (hIn : d.AllInside)
    (h : d.step call = some e) : e.AllInside ↔ ¬ d.TabAtLastStop call := by
  cases hFb : VbeVga.getFramebufferAddrs d.vbe with
  | nil =>
    have hSame := step_consoles_of_nil hFb h
    have hOk : e.AllInside := by
      rw [AllInside, hSame]
      exact hIn
    simp [TabAtLastStop, hFb, hOk]
  | cons fb rest =>
    rw [step_eq hFb, Option.map_eq_some_iff] at h
    obtain ⟨s, hs, rfl⟩ := h
    rw [allInside_put_iff hIn, onConsole_inside_iff hSingle hIn.console hs]
    simp [TabAtLastStop, hFb]

theorem step_tab_isSome : ∃ e, d.step (.print [9]) = some e := by
  cases hFb : VbeVga.getFramebufferAddrs d.vbe with
  | nil => simp [step, consolePrintFirst, hFb]
  | cons fb rest =>
    rw [step_eq hFb]
    exact ⟨_, rfl⟩

/-- **The cursor is inside the text area after every byte, and with it the cell
a character is drawn in, iff no tab is printed past the last tab stop of the
last row.** The consoles may be in any state with the cursor inside; consoles
made on the way are covered. -/
theorem cursorInside_iff {d : Display} (hInit : d.AllInside) (calls : List Call) :
    (∀ before e, before <+: calls.flatMap Call.bytes → run step d before = some e →
      ∀ c ∈ e.consoles, (c.curX < c.cols ∧ c.curY < c.rows) ∧ c.CellInside) ↔
    (∀ before call e, before ++ [call] <+: calls.flatMap Call.bytes →
      run step d before = some e → ¬ e.TabAtLastStop call) := by
  have hSingle : ∀ call ∈ calls.flatMap Call.bytes, call.Single := by
    intro call hMem
    obtain ⟨whole, -, hBytes⟩ := List.mem_flatMap.mp hMem
    exact single_of_mem_bytes hBytes
  have hSteps : (∀ before call e, before ++ [call] <+: calls.flatMap Call.bytes →
      run step d (before ++ [call]) = some e → e.AllInside) ↔
      ∀ before call e, before ++ [call] <+: calls.flatMap Call.bytes →
        run step d before = some e → ¬ e.TabAtLastStop call := by
    refine run_prefixes_iff step hInit ?_ ?_ ?_
    · intro e hIn call hMem e' hStep
      exact step_inside_iff (hSingle call hMem) hIn hStep
    · intro e hIn call hMem e' hStep hNoTab
      exact (step_inside_iff (hSingle call hMem) hIn hStep).mpr hNoTab
    · intro e _ call hTab
      rw [(not_not.mp hTab).1]
      exact step_tab_isSome
  rw [← hSteps]
  constructor
  · intro hAll before call e hPre hRun c hc
    exact (hAll _ e hPre hRun c hc).1
  · intro hAll before e hPre hRun c hc
    have hIn : c.Inside := by
      rcases List.eq_nil_or_concat' before with rfl | ⟨front, call, rfl⟩
      · cases hRun
        exact hInit c hc
      · exact hAll front call e hPre hRun c hc
    exact ⟨hIn, hIn.cellInside⟩

/-- A 720 by 200 framebuffer, which has room for 80 by 25 cells of text. -/
def textDisplay : Display where
  vbe      := some { addrs := [0xE0000000], fbInfo := some ⟨720, 200, 32, 2880⟩ }
  mem      := fun _ => 0
  consoles := []
  writer   := ⟨24, 0, 0x0E, fun _ _ => ⟨0x20, 0⟩, 0⟩

/-- Text with a tab on the first line. -/
theorem cursorInside_first_tab :
    textDisplay.AllInside ∧
      ∀ before e, before <+: [Call.print [0x41, 9]].flatMap Call.bytes →
        run step textDisplay before = some e →
        ∀ c ∈ e.consoles, (c.curX < c.cols ∧ c.curY < c.rows) ∧ c.CellInside := by
  have hInit : textDisplay.AllInside := fun c hc => nomatch hc
  refine ⟨hInit, (cursorInside_iff hInit _).mpr ?_⟩
  rintro before call e hPre hRun ⟨rfl, fb, hFb, hRow, -⟩
  -- the tab is the last of the three single calls
  obtain rfl : before = [.print [], .print [0x41]] := by
    rcases before with _ | ⟨x, _ | ⟨y, _ | ⟨z, rest⟩⟩⟩ <;>
      simp [Call.bytes] at hPre ⊢
    exact hPre
  obtain rfl : 0xE0000000 = fb := by
    cases hRun
    simpa [textDisplay, put, VbeVga.getFramebufferAddrs] using hFb
  cases hRun
  revert hRow
  decide

/-- A tab in the last column of the last row leaves the cursor in row 25 of 25. -/
theorem tab_leaves_last_row :
    textDisplay.AllInside ∧
      ∃ e, run step textDisplay ([Call.setCursor 79 24, .print [9]].flatMap Call.bytes) = some e ∧
        e.consoles.map (fun c => (c.curX, c.curY, c.cols, c.rows)) = [(0, 25, 80, 25)] := by
  exact ⟨(fun c hc => nomatch hc), _, rfl, rfl⟩

end Display

end Neutrix
