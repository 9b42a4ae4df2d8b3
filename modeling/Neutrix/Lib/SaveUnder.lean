import Mathlib.Tactic.Common

/-!
# Drawing a sprite over a saved background

A sprite is a block of pixels that can be placed at many spots of a screen,
with a mask that says which of them are inked. `redraw` moves it: what the
sprite covered is put back, the background at the new spot is saved, the
sprite is painted. When the spot did not change nothing is put back, so the
sprite itself is saved as background. `redraw_correct_iff` says when the
result is still the sprite over the untouched screen.

When the screen is drawn on while the sprite is there, `under` is what the
screen would show without the sprite. A move keeps it (`under_redraw`), and
of the pixels drawn only those outside the sprite's block get into it.
-/

namespace Neutrix.Lib

/-- Blocks of pixels `P` indexed by `I`, one for each spot in `Q`. -/
structure Sprite (Q P I C : Type*) where
  block : Q → I → P
  index : Q → P → Option I
  index_eq_some : ∀ q p i, index q p = some i ↔ block q i = p
  mask : I → Bool
  ink  : C

namespace Sprite

variable {Q P I C : Type*} (S : Sprite Q P I C)

/-- The screen with `bg` in the block at `q`. -/
def restore (screen : P → C) (q : Q) (bg : I → C) : P → C := fun p =>
  match S.index q p with
  | some i => bg i
  | none => screen p

def capture (screen : P → C) (q : Q) : I → C := fun i => screen (S.block q i)

def paint (screen : P → C) (q : Q) : P → C := fun p =>
  match S.index q p with
  | some i => if S.mask i then S.ink else screen p
  | none => screen p

/-- The pixel is one the sprite at `q` inks. -/
def Inked (q : Q) (p : P) : Prop := ∃ i, S.block q i = p ∧ S.mask i = true

/-- A screen, and the background saved under the sprite that is on it. -/
structure Drawn (Q P I C : Type*) where
  screen : P → C
  saved  : Option (Q × (I → C))

/-- The screen before the sprite is drawn at `q`. -/
def restored [DecidableEq Q] (d : Drawn Q P I C) (q : Q) : P → C :=
  match d.saved with
  | some (p, bg) => if p ≠ q then S.restore d.screen p bg else d.screen
  | none => d.screen

def redraw [DecidableEq Q] (d : Drawn Q P I C) (q : Q) : Drawn Q P I C where
  screen := S.paint (S.restored d q) q
  saved  := some (q, S.capture (S.restored d q) q)

/-- The screen is `orig` with the sprite on it, and what it covers is saved. -/
def Over (orig : P → C) (d : Drawn Q P I C) : Prop :=
  match d.saved with
  | none => d.screen = orig
  | some (q, bg) => d.screen = S.paint orig q ∧ bg = S.capture orig q

/-- The saved background is `orig`'s, and outside the sprite the screen is `orig`. -/
def Correct (orig : P → C) (q : Q) (d : Drawn Q P I C) : Prop :=
  d.saved = some (q, S.capture orig q) ∧ ∀ p, ¬ S.Inked q p → d.screen p = orig p

@[simp] theorem index_block (q : Q) (i : I) : S.index q (S.block q i) = some i :=
  (S.index_eq_some q _ i).mpr rfl

theorem capture_paint (orig : P → C) (q : Q) (i : I) :
    S.capture (S.paint orig q) q i = if S.mask i then S.ink else orig (S.block q i) := by
  simp only [capture, paint, index_block]

theorem restore_block (screen : P → C) (q : Q) (bg : I → C) (i : I) :
    S.restore screen q bg (S.block q i) = bg i := by
  simp only [restore, index_block]

theorem restore_of_not_block (screen : P → C) {q : Q} (bg : I → C) {p : P}
    (h : ∀ i, S.block q i ≠ p) : S.restore screen q bg p = screen p := by
  have hNone : S.index q p = none :=
    Option.eq_none_iff_forall_ne_some.mpr fun i hi => h i ((S.index_eq_some q p i).mp hi)
  simp only [restore, hNone]

theorem paint_of_inked (orig : P → C) {q : Q} {p : P} (h : S.Inked q p) :
    S.paint orig q p = S.ink := by
  obtain ⟨i, rfl, hMask⟩ := h
  simp only [paint, index_block, hMask, if_true]

theorem paint_of_not_inked (orig : P → C) {q : Q} {p : P} (h : ¬ S.Inked q p) :
    S.paint orig q p = orig p := by
  unfold paint
  split
  · rename_i i hi
    have hMask : S.mask i ≠ true := fun hm => h ⟨i, (S.index_eq_some q p i).mp hi, hm⟩
    rw [if_neg hMask]
  · rfl

/-- Putting back what was captured undoes the painting. -/
theorem restore_paint (orig : P → C) (q : Q) :
    S.restore (S.paint orig q) q (S.capture orig q) = orig := by
  funext p
  unfold restore
  split
  · rename_i i hi
    rw [capture, (S.index_eq_some q p i).mp hi]
  · rename_i hNone
    simp only [paint, hNone]

theorem paint_idem {orig : P → C} {q : Q} : S.paint (S.paint orig q) q = S.paint orig q := by
  funext p
  cases hIdx : S.index q p with
  | none => simp only [paint, hIdx]
  | some i =>
    simp only [paint, hIdx]
    split <;> rfl

variable {S} {orig : P → C} {d : Drawn Q P I C}

/-- The spot is new, or the untouched screen is inked there as the sprite is. -/
def Harmless (S : Sprite Q P I C) (orig : P → C) (d : Drawn Q P I C) (q : Q) : Prop :=
  d.saved.map Prod.fst ≠ some q ∨ ∀ p, S.Inked q p → orig p = S.ink

theorem capture_paint_eq_iff {q : Q} :
    S.capture (S.paint orig q) q = S.capture orig q ↔ ∀ p, S.Inked q p → orig p = S.ink := by
  constructor
  · rintro h p ⟨i, rfl, hMask⟩
    have hi := congrFun h i
    rw [capture_paint, if_pos hMask] at hi
    exact hi.symm
  · intro h
    funext i
    rw [capture_paint]
    split
    · rename_i hMask
      exact (h _ ⟨i, rfl, hMask⟩).symm
    · rfl

-- ---------------------------------------------------------------------------
-- Drawing while the sprite is there
-- ---------------------------------------------------------------------------

/-- The pixel is in the block of the sprite on the screen. -/
def Covers (S : Sprite Q P I C) (d : Drawn Q P I C) (p : P) : Prop :=
  ∃ qb, d.saved = some qb ∧ (S.index qb.1 p).isSome

/-- The screen without the sprite. -/
def under (S : Sprite Q P I C) (d : Drawn Q P I C) : P → C :=
  match d.saved with
  | some (q, bg) => S.restore d.screen q bg
  | none => d.screen

theorem under_of_not_covers {p : P} (h : ¬ S.Covers d p) : S.under d p = d.screen p := by
  unfold under
  cases hSaved : d.saved with
  | none => rfl
  | some qb =>
    have hNone : S.index qb.1 p = none := by
      rw [← Option.not_isSome_iff_eq_none]
      exact fun hSome => h ⟨qb, hSaved, hSome⟩
    simp only [restore, hNone]

theorem under_of_covers {p : P} (h : S.Covers d p) (screen : P → C) :
    S.under { d with screen := screen } p = S.under d p := by
  obtain ⟨⟨q, bg⟩, hSaved, hIndex⟩ := h
  obtain ⟨i, hi⟩ := Option.isSome_iff_exists.mp hIndex
  simp only [under, hSaved, restore, hi]

section Draw

variable [DecidableEq P]

def Drawn.draw (d : Drawn Q P I C) (p : P) (c : C) : Drawn Q P I C :=
  { d with screen := Function.update d.screen p c }

/-- **A pixel drawn in the block does not get under the sprite.** -/
theorem under_draw_of_covers {p : P} (h : S.Covers d p) (c : C) :
    S.under (d.draw p c) = S.under d := by
  funext p'
  by_cases hCovers : S.Covers d p'
  · exact under_of_covers hCovers _
  · have hNe : p' ≠ p := fun hEq => hCovers (hEq ▸ h)
    have hDrawn : ¬ S.Covers (d.draw p c) p' := hCovers
    rw [under_of_not_covers hDrawn, under_of_not_covers hCovers]
    exact Function.update_of_ne hNe c d.screen

/-- A pixel drawn outside the block does. -/
theorem under_draw_of_not_covers {p : P} (h : ¬ S.Covers d p) (c : C) :
    S.under (d.draw p c) = Function.update (S.under d) p c := by
  funext p'
  by_cases hCovers : S.Covers d p'
  · have hNe : p' ≠ p := fun hEq => h (hEq ▸ hCovers)
    rw [Function.update_of_ne hNe]
    exact under_of_covers hCovers _
  · have hDrawn : ¬ S.Covers (d.draw p c) p' := hCovers
    rw [under_of_not_covers hDrawn]
    by_cases hEq : p' = p
    · subst hEq
      rw [Function.update_self]
      exact Function.update_self p' c d.screen
    · rw [Function.update_of_ne hEq, under_of_not_covers hCovers]
      exact Function.update_of_ne hEq c d.screen

end Draw

-- ---------------------------------------------------------------------------
-- Redraws
-- ---------------------------------------------------------------------------

variable [DecidableEq Q]

theorem restored_of_moved (h : S.Over orig d) {q : Q} (hMoved : d.saved.map Prod.fst ≠ some q) :
    S.restored d q = orig := by
  unfold Over at h
  unfold restored
  cases hSaved : d.saved with
  | none =>
    rw [hSaved] at h
    exact h
  | some ps =>
    obtain ⟨p, bg⟩ := ps
    rw [hSaved] at h hMoved
    have hNe : p ≠ q := fun e => hMoved (congrArg some e)
    simp only [if_pos hNe] at h ⊢
    rw [h.1, h.2, restore_paint]

theorem restored_of_same (h : S.Over orig d) {q : Q} (hSame : d.saved.map Prod.fst = some q) :
    S.restored d q = S.paint orig q := by
  unfold Over at h
  unfold restored
  cases hSaved : d.saved with
  | none => simp [hSaved] at hSame
  | some ps =>
    obtain ⟨p, bg⟩ := ps
    rw [hSaved] at h hSame
    obtain rfl : p = q := Option.some.inj hSame
    simp only [ne_eq, not_true_eq_false, if_false] at h ⊢
    exact h.1

/-- At a new spot the sprite is redrawn over the untouched screen. -/
theorem redraw_of_moved (h : S.Over orig d) {q : Q} (hMoved : d.saved.map Prod.fst ≠ some q) :
    S.redraw d q = { screen := S.paint orig q, saved := some (q, S.capture orig q) } := by
  rw [redraw, restored_of_moved h hMoved]

/-- At the same spot the sprite is saved with the background. -/
theorem redraw_of_same (h : S.Over orig d) {q : Q} (hSame : d.saved.map Prod.fst = some q) :
    S.redraw d q =
      { screen := S.paint orig q, saved := some (q, S.capture (S.paint orig q) q) } := by
  rw [redraw, restored_of_same h hSame, paint_idem]

/-- **A redraw from a correct screen is correct iff it is harmless.** -/
theorem redraw_correct_iff (h : S.Over orig d) (q : Q) :
    S.Correct orig q (S.redraw d q) ↔ S.Harmless orig d q := by
  by_cases hSame : d.saved.map Prod.fst = some q
  · simp only [Correct, Harmless, redraw_of_same h hSame, hSame, Option.some.injEq, Prod.mk.injEq,
      true_and, capture_paint_eq_iff, ne_eq, not_true_eq_false, false_or]
    exact ⟨And.left, fun hInk => ⟨hInk, fun p => S.paint_of_not_inked orig⟩⟩
  · rw [Correct, redraw_of_moved h hSame]
    exact ⟨fun _ => Or.inl hSame, fun _ => ⟨rfl, fun p => S.paint_of_not_inked orig⟩⟩

theorem redraw_over (h : S.Over orig d) {q : Q} (hq : S.Harmless orig d q) :
    S.Over orig (S.redraw d q) := by
  by_cases hSame : d.saved.map Prod.fst = some q
  · rw [redraw_of_same h hSame]
    exact ⟨rfl, capture_paint_eq_iff.mpr (hq.resolve_left (not_not_intro hSame))⟩
  · rw [redraw_of_moved h hSame]
    exact ⟨rfl, rfl⟩

/-- What is captured at a redraw is what the screen shows without the sprite. -/
theorem under_redraw_eq (d : Drawn Q P I C) (q : Q) : S.under (S.redraw d q) = S.restored d q :=
  S.restore_paint (S.restored d q) q

/-- **A redraw keeps what is under the sprite**, at a new spot and outside its block. -/
theorem under_redraw {q : Q} {p : P} (h : S.Covers d p → d.saved.map Prod.fst ≠ some q) :
    S.under (S.redraw d q) p = S.under d p := by
  rw [under_redraw_eq]
  by_cases hSame : d.saved.map Prod.fst = some q
  · -- nothing is put back, and the pixel is not in the block
    have hNot : ¬ S.Covers d p := fun hCovers => h hCovers hSame
    obtain ⟨qb, hSaved, hq⟩ := Option.map_eq_some_iff.mp hSame
    rw [under_of_not_covers hNot, restored, hSaved]
    exact congrFun (if_neg (not_not_intro hq)) p
  · unfold restored under
    cases hSaved : d.saved with
    | none => rfl
    | some qb =>
      have hMoved : qb.1 ≠ q := fun hq => hSame (by rw [hSaved, Option.map_some, hq])
      exact congrFun (if_pos hMoved) p

end Sprite

end Neutrix.Lib
