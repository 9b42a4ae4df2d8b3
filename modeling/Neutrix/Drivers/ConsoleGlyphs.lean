import Mathlib.Data.List.InsertIdx
import Neutrix.Drivers.ConsoleText

/-!
# Neutrix — printing and the font table

`console_print_first` takes the console out of the list, prints, and puts it
back, so a panic on the way halts the kernel with the list locked and one
console short. The range test of `get_glyph` admits the 96 bytes from 0x20
to 0x7F, the table has 95 glyphs: 0x7F is the one byte without a branch of
its own that has no glyph and no fallback (`printByte_eq_none_iff`).

* `consolePrintFirst_finishes_iff` — a print returns, with the consoles in
  their places and at most a cursor moved, exactly when it goes to the boot
  screen or does not contain 0x7F.
-/

namespace Neutrix

open Neutrix.Lib

-- ---------------------------------------------------------------------------
-- Glyphs
-- ---------------------------------------------------------------------------

theorem getGlyph_eq_none_iff (b : UInt8) : VbeVga.getGlyph b = none ↔ b = 0x7F := by
  constructor
  · intro hNone
    by_cases hRange : b < 0x20 ∨ b > 0x7F
    · rw [VbeVga.getGlyph, if_pos hRange] at hNone
      cases hNone
    · obtain ⟨hLow, hHigh⟩ := not_or.mp hRange
      rw [UInt8.not_lt] at hLow hHigh
      by_contra hNe
      -- the other bytes of the range are printable
      have hLt : b.toNat < 0x7F :=
        lt_of_le_of_ne (UInt8.le_iff_toNat_le.mp hHigh) fun hEq => hNe (UInt8.toNat_inj.mp hEq)
      obtain ⟨glyph, hGlyph⟩ := TextScreen.Printable.glyph
        ⟨hLow, UInt8.le_iff_toNat_le.mpr (Nat.le_of_lt_succ hLt)⟩
      rw [hGlyph] at hNone
      cases hNone
  · rintro rfl
    decide

namespace Console

theorem drawCharAt_eq_none_iff (drv : VbeVga) (mem : Memory) (fb x y : Nat) (b : UInt8)
    (color : UInt32) : drawCharAt (some drv) mem fb x y b color = none ↔ b = 0x7F := by
  rw [← getGlyph_eq_none_iff]
  show drv.drawCharAt mem fb x y b color = none ↔ _
  unfold VbeVga.drawCharAt
  cases VbeVga.getGlyph b with
  | none => exact iff_of_true rfl rfl
  | some glyph? =>
    cases glyph? <;> exact iff_of_false (Option.some_ne_none _) (Option.some_ne_none _)

variable (drv : VbeVga) (fb : Nat)

theorem printByte_eq_none_iff (s : Console × Memory) (b : UInt8) :
    printByte (some drv) fb s b = none ↔ b = 0x7F := by
  -- the branches before the last return
  have hReturns : b ≠ 0x7F → (False ↔ b = 0x7F) := iff_of_false id
  simp only [printByte]
  split_ifs with hLF hCR hBS hTab
  · exact hReturns (by rw [hLF]; decide)
  · exact hReturns (by rw [hCR]; decide)
  · exact hReturns (by rw [hBS]; decide)
  · exact hReturns (by rw [hTab]; decide)
  · rw [← drawCharAt_eq_none_iff drv s.2 fb (s.1.curX * s.1.charW) (s.1.curY * s.1.charH) b s.1.fg,
      putChar]
    cases drawCharAt (some drv) s.2 fb (s.1.curX * s.1.charW) (s.1.curY * s.1.charH) b s.1.fg with
    | none => exact iff_of_true rfl rfl
    | some mem =>
      refine iff_of_false (fun h => ?_) (Option.some_ne_none mem)
      dsimp only at h
      split_ifs at h

theorem printBytes_eq_none_iff (s : Console × Memory) (bytes : List UInt8) :
    printBytes (some drv) fb s bytes = none ↔ 0x7F ∈ bytes := by
  induction bytes generalizing s with
  | nil => exact iff_of_false (Option.some_ne_none s) List.not_mem_nil
  | cons b rest ih =>
    have hByte := printByte_eq_none_iff drv fb s b
    rw [printBytes]
    cases hStep : printByte (some drv) fb s b with
    | none =>
      have hb : b = 0x7F := hByte.mp hStep
      exact iff_of_true rfl (hb ▸ List.mem_cons_self)
    | some t =>
      have hb : b ≠ 0x7F := fun hb => by
        rw [hByte.mpr hb] at hStep
        cases hStep
      show printBytes (some drv) fb t rest = none ↔ _
      rw [ih, List.mem_cons, or_iff_right (Ne.symm hb)]

theorem framebuffer_printBytes_eq_none_iff {vbe : Option VbeVga} {rest : List Nat}
    (hFb : VbeVga.getFramebufferAddrs vbe = fb :: rest) (s : Console × Memory)
    (bytes : List UInt8) : printBytes vbe fb s bytes = none ↔ 0x7F ∈ bytes := by
  cases vbe with
  | none => cases hFb
  | some drv => exact printBytes_eq_none_iff drv fb s bytes

end Console

namespace Display

-- ---------------------------------------------------------------------------
-- The list of consoles
-- ---------------------------------------------------------------------------

/-- The consoles are the same in the same places, and at most the cursor of console `idx`
has changed. -/
structure OnlyCursorAt (idx : Nat) (before after : List Console) : Prop where
  length  : after.length = before.length
  others  : ∀ i, i ≠ idx → after[i]? = before[i]?
  printed : ∃ c c', before[idx]? = some c ∧ after[idx]? = some c' ∧ c.OnlyCursor c'

/-- What a print may do to the consoles: one for the framebuffer is appended if there was
none, and its cursor moves. -/
def ConsolesKept (d e : Display) : Prop :=
  match VbeVga.getFramebufferAddrs d.vbe with
  | [] => e.consoles = d.consoles
  | fb :: _ =>
    d.consoles <+: (d.getOrCreateConsole fb).2.consoles ∧
      OnlyCursorAt (d.getOrCreateConsole fb).1 (d.getOrCreateConsole fb).2.consoles e.consoles

theorem getOrCreateConsole_prefix (d : Display) (fb : Nat) :
    d.consoles <+: (d.getOrCreateConsole fb).2.consoles := by
  unfold getOrCreateConsole
  cases d.consoles.findIdx? (fun c => decide (c.fbVirt = fb)) with
  | none => exact List.prefix_append _ _
  | some i => exact List.prefix_refl _

/-- The console is taken out and put back in its place. -/
theorem withConsole_onlyCursorAt {d e : Display} {fb : Nat}
    {f : Console × Memory → Option (Console × Memory)}
    (hCursor : ∀ s t, f s = some t → s.1.OnlyCursor t.1) (h : d.withConsole fb f = some e) :
    OnlyCursorAt (d.getOrCreateConsole fb).1 (d.getOrCreateConsole fb).2.consoles e.consoles := by
  simp only [withConsole] at h
  generalize d.getOrCreateConsole fb = made at h ⊢
  obtain ⟨idx, d'⟩ := made
  cases hc : d'.consoles[idx]? with
  | none => simp [hc] at h
  | some c =>
    obtain ⟨hIdx, -⟩ := List.getElem?_eq_some_iff.mp hc
    cases ht : f (c, d'.mem) with
    | none => simp [hc, ht] at h
    | some t =>
      obtain rfl : { d' with mem := t.2, consoles := d'.consoles.set idx t.1 } = e := by
        simpa [hc, ht, List.insertIdx_eraseIdx_self (Nat.ne_of_lt hIdx)] using h
      refine ⟨List.length_set, fun i hi => ?_, c, t.1, hc, ?_, hCursor _ _ ht⟩
      · exact List.getElem?_set_ne (Ne.symm hi)
      · exact List.getElem?_set_self hIdx

/-- **A print returns and keeps the consoles iff there is no framebuffer to draw to or
the text has no byte 0x7F**, whatever the state of the consoles, the framebuffer and
memory. -/
theorem consolePrintFirst_finishes_iff (d : Display) (s : List UInt8) :
    (∃ printed e, d.consolePrintFirst s = some (printed, e) ∧ d.ConsolesKept e) ↔
      VbeVga.getFramebufferAddrs d.vbe = [] ∨ 0x7F ∉ s := by
  unfold consolePrintFirst ConsolesKept
  cases hFb : VbeVga.getFramebufferAddrs d.vbe with
  | nil => exact iff_of_true ⟨false, _, rfl, rfl⟩ (Or.inl rfl)
  | cons fb rest =>
    have hPrint : d.withConsole fb (fun cm => Console.printBytes d.vbe fb cm s) = none ↔
        0x7F ∈ s := by
      rw [withConsole_eq, Option.map_eq_none_iff]
      exact Console.framebuffer_printBytes_eq_none_iff fb hFb _ s
    dsimp only
    cases hWith : d.withConsole fb (fun cm => Console.printBytes d.vbe fb cm s) with
    | none =>
      refine iff_of_false ?_ ?_
      · rintro ⟨printed, e, hNone, -⟩
        cases hNone
      · exact fun h => h.resolve_left (List.cons_ne_nil fb rest) (hPrint.mp hWith)
    | some e =>
      refine iff_of_true ⟨true, e, rfl, getOrCreateConsole_prefix d fb, ?_⟩ (Or.inr fun hMem => ?_)
      · exact withConsole_onlyCursorAt (fun s t => Console.printBytes_onlyCursor d.vbe fb s.1 s.2) hWith
      · rw [hPrint.mpr hMem] at hWith
        cases hWith

/-- Printing the delete character on the 18 by 16 framebuffer panics. -/
theorem consolePrintFirst_delete_panics :
    VbeVga.getGlyph 0x7F = none ∧ TextScreen.smallDisplay.consolePrintFirst [0x7F] = none := by
  decide

end Display

end Neutrix
