import Neutrix.Drivers.MouseCursor

/-!
# Neutrix — the mouse cursor over other drawing

The event loop of the mouse and the tasks that print share one framebuffer,
and nothing keeps them from drawing on each other. `redraw_cursor` saves the
block under the arrow when it paints the arrow and puts it back when the
arrow leaves; what was drawn there in between is gone.

A run is any sequence of pixel writes and cursor updates. Every word that the
console or a box draws is such a write, and so is every word a scroll copies,
whatever it read.

* `screen_without_arrow` — if every update moves the arrow, then the screen
  without the arrow is what the writes made outside the arrow's block leave,
  in their order. A pixel that the arrow does not cover at the end shows the
  last write made to it while the arrow did not cover it.

The updates have to move the arrow: one that does not takes the arrow itself
for background, which `Neutrix.Drivers.MouseCursor` is about.
-/

namespace Neutrix.Ps2Mouse

open Neutrix.Lib

namespace Framebuffer

variable (F : Framebuffer)

-- ---------------------------------------------------------------------------
-- Runs
-- ---------------------------------------------------------------------------

inductive Action where
  | draw (p : F.Pixel) (color : UInt32)
  | update (u : Update)

def act (s : Mouse × Memory) : F.Action → Mouse × Memory
  | .draw p color => (s.1, F.drv.drawPixelAt s.2 F.fb p.1 p.2 color)
  | .update u => update (some F.drv) s u

/-- The pixel lies in the block whose background is saved. -/
def InBlock (saved : SavedBg) (p : F.Pixel) : Prop :=
  (saved.py ≤ p.2 ∧ p.2 < saved.py + H) ∧ (saved.px ≤ p.1 ∧ p.1 < saved.px + W)

instance (saved : SavedBg) (p : F.Pixel) : Decidable (F.InBlock saved p) :=
  inferInstanceAs (Decidable (_ ∧ _))

/-- The arrow's block covers the pixel. -/
def covers (s : Mouse × Memory) (p : F.Pixel) : Bool :=
  s.1.savedBg.any fun saved => F.InBlock saved p

/-- What the pixel shows once the arrow has left. -/
def underArrow (s : Mouse × Memory) (p : F.Pixel) : UInt32 :=
  match s.1.savedBg with
  | none => F.view s.2 p
  | some saved =>
    if h : F.InBlock saved p then
      saved.pixels ⟨p.2 - saved.py, by have := h.1; omega⟩ ⟨p.1 - saved.px, by have := h.2; omega⟩
    else F.view s.2 p

/-- The update draws the arrow at another spot. -/
def MovesArrow (s : Mouse × Memory) (u : Update) : Prop :=
  ∀ saved, s.1.savedBg = some saved →
    drawnAt F.info (s.1.place u).cursorX (s.1.place u).cursorY ≠ (saved.px, saved.py)

/-- The writes that were made outside the arrow's block, in order. -/
def offArrow (s : Mouse × Memory) : List F.Action → List (F.Pixel × UInt32)
  | [] => []
  | .draw p color :: as =>
    let rest := offArrow (F.act s (.draw p color)) as
    if F.covers s p then rest else (p, color) :: rest
  | .update u :: as => offArrow (F.act s (.update u)) as

/-- A screen after writes to it. -/
def drawn (screen : F.Pixel → UInt32) (ws : List (F.Pixel × UInt32)) : F.Pixel → UInt32 :=
  ws.foldl (fun screen w => Function.update screen w.1 w.2) screen

variable {F} {s : Mouse × Memory} {d : Sprite.Drawn F.Spot F.Pixel (Fin H × Fin W) UInt32}

-- ---------------------------------------------------------------------------
-- Refinement
-- ---------------------------------------------------------------------------

theorem inBlock_iff (q : F.Spot) (bg : Fin H × Fin W → UInt32) (p : F.Pixel) :
    F.InBlock (toSaved (q, bg)) p ↔ (F.sprite.index q p).isSome := by
  show _ ↔ (Spot.index q p).isSome
  unfold Spot.index
  split
  · rename_i hIn
    exact iff_of_true hIn rfl
  · rename_i hOut
    exact iff_of_false hOut (by simp)

theorem covers_iff (h : Refines s d) (p : F.Pixel) : F.covers s p = true ↔ F.sprite.Covers d p := by
  rw [covers, h.saved, Sprite.Covers]
  cases d.saved with
  | none => simp
  | some qb => simpa using inBlock_iff qb.1 qb.2 p

theorem underArrow_eq (h : Refines s d) : F.underArrow s = F.sprite.under d := by
  funext p
  unfold underArrow Sprite.under
  rw [h.saved]
  cases d.saved with
  | none => exact congrFun h.screen p
  | some qb =>
    obtain ⟨q, bg⟩ := qb
    show (if hIn : F.InBlock (toSaved (q, bg)) p then _ else _) = F.sprite.restore d.screen q bg p
    by_cases hIn : F.InBlock (toSaved (q, bg)) p
    · have hIndex : F.sprite.index q p = some _ := dif_pos hIn
      rw [dif_pos hIn, Sprite.restore, hIndex]
      rfl
    · have hIndex : F.sprite.index q p = none := dif_neg hIn
      rw [dif_neg hIn, Sprite.restore, hIndex]
      exact congrFun h.screen p

theorem draw_refines (h : Refines s d) (p : F.Pixel) (color : UInt32) :
    Refines (F.act s (.draw p color)) (d.draw p color) := by
  refine ⟨h.saved, funext fun p' => ?_⟩
  have hWrite : F.drv.drawPixelAt s.2 F.fb p.1 p.2 color = s.2.write32 (F.addr p) color := by
    rw [VbeVga.drawPixelAt, F.pitch_eq]
    rfl
  show F.view (F.drv.drawPixelAt s.2 F.fb p.1 p.2 color) p' = Function.update d.screen p color p'
  rw [hWrite, view_write, Function.update_apply, h.screen]

theorem movesArrow_iff (h : Refines s d) (u : Update) :
    F.MovesArrow s u ↔ d.saved.map Prod.fst ≠ some (F.target s u) := by
  have hAt : drawnAt F.info (s.1.place u).cursorX (s.1.place u).cursorY =
      ((F.target s u).x, (F.target s u).y) := rfl
  rw [MovesArrow, h.saved, hAt]
  cases d.saved with
  | none => simp
  | some qb => simp [toSaved, Spot.ext_iff, eq_comm]

/-- **Step.** A write outside the arrow's block is all that changes the screen under it. -/
theorem underArrow_draw (h : Refines s d) (p : F.Pixel) (color : UInt32) :
    F.underArrow (F.act s (.draw p color)) =
      if F.covers s p then F.underArrow s else Function.update (F.underArrow s) p color := by
  rw [underArrow_eq (draw_refines h p color), underArrow_eq h]
  split
  · rename_i hCovers
    exact Sprite.under_draw_of_covers ((covers_iff h p).mp hCovers) color
  · rename_i hNot
    exact Sprite.under_draw_of_not_covers (fun hCovers => hNot ((covers_iff h p).mpr hCovers)) color

theorem underArrow_update (h : Refines s d) {u : Update} (hMoves : F.MovesArrow s u) :
    F.underArrow (F.act s (.update u)) = F.underArrow s := by
  funext p
  rw [act, underArrow_eq (update_refines h u), underArrow_eq h]
  exact Sprite.under_redraw fun _ => (movesArrow_iff h u).mp hMoves

theorem underArrow_of_not_covers {p : F.Pixel} (h : ¬ F.covers s p) :
    F.underArrow s p = F.view s.2 p := by
  unfold underArrow
  unfold covers at h
  cases hSaved : s.1.savedBg with
  | none => rfl
  | some saved =>
    have hOut : ¬ F.InBlock saved p := by simpa [hSaved] using h
    exact dif_neg hOut

-- ---------------------------------------------------------------------------
-- Runs
-- ---------------------------------------------------------------------------

theorem underArrow_run : ∀ {as : List F.Action} {s : Mouse × Memory}
    {d : Sprite.Drawn F.Spot F.Pixel (Fin H × Fin W) UInt32}, Refines s d →
    (∀ before u, before ++ [.update u] <+: as → F.MovesArrow (before.foldl F.act s) u) →
    F.underArrow (as.foldl F.act s) = F.drawn (F.underArrow s) (F.offArrow s as) := by
  intro as
  induction as with
  | nil => exact fun _ _ => rfl
  | cons a as ih =>
    intro s d h hMoves
    have hRest : ∀ before u, before ++ [.update u] <+: as →
        F.MovesArrow (before.foldl F.act (F.act s a)) u := fun before u hPre =>
      hMoves (a :: before) u (List.cons_prefix_cons.mpr ⟨rfl, hPre⟩)
    cases a with
    | draw p color =>
      rw [List.foldl_cons, ih (draw_refines h p color) hRest, underArrow_draw h, offArrow]
      split <;> rfl
    | update u =>
      have hHere : F.MovesArrow s u := hMoves [] u (by simp)
      have hNext : Refines (F.act s (.update u)) _ := update_refines h u
      rw [List.foldl_cons, ih hNext hRest, underArrow_update h hHere]
      rfl

/-- **The screen without the arrow.** From a driver that has not drawn its arrow yet, run
any writes and any updates that move the arrow. The screen without the arrow is then
the first screen with just those writes that were made outside the arrow's block, and
every pixel outside the arrow's last block shows it. -/
theorem screen_without_arrow (F : Framebuffer) (m : Mouse) (mem : Memory) (hm : m.savedBg = none)
    (as : List F.Action)
    (hMoves : ∀ before u, before ++ [.update u] <+: as →
      F.MovesArrow (before.foldl F.act (m, mem)) u) :
    F.underArrow (as.foldl F.act (m, mem)) = F.drawn (F.view mem) (F.offArrow (m, mem) as) ∧
    ∀ p, ¬ F.covers (as.foldl F.act (m, mem)) p →
      F.view (as.foldl F.act (m, mem)).2 p = F.drawn (F.view mem) (F.offArrow (m, mem) as) p := by
  have hStart : Refines (F := F) (m, mem) { screen := F.view mem, saved := none } := ⟨hm, rfl⟩
  have hUnder : F.underArrow (m, mem) = F.view mem := by
    rw [underArrow_eq hStart]
    rfl
  have hRun := underArrow_run hStart hMoves
  rw [hUnder] at hRun
  refine ⟨hRun, fun p hNot => ?_⟩
  rw [← underArrow_of_not_covers hNot, hRun]

/-- The pixel in column and row `n` of a small framebuffer. -/
def diagonal (n : Nat) (h : n < 40) : smallFramebuffer.Pixel := (⟨n, h⟩, ⟨n, h⟩)

/-- The arrow is placed, a pixel is written under it and one elsewhere, the arrow moves. -/
def writeUnder : List smallFramebuffer.Action :=
  [.update (.setCursorPos 5 5), .draw (diagonal 6 (by omega)) 7, .draw (diagonal 39 (by omega)) 7,
    .update (.setCursorPos 20 20)]

/-- Of the two writes only the second is left. -/
theorem screen_without_arrow_writeUnder :
    smallFramebuffer.view (writeUnder.foldl smallFramebuffer.act (Mouse.new, fun _ => 0)).2
        (diagonal 6 (by omega)) = 0 ∧
    smallFramebuffer.view (writeUnder.foldl smallFramebuffer.act (Mouse.new, fun _ => 0)).2
        (diagonal 39 (by omega)) = 7 := by
  have hMoves : ∀ before u, before ++ [.update u] <+: writeUnder →
      smallFramebuffer.MovesArrow
        (before.foldl smallFramebuffer.act (Mouse.new, fun _ => 0)) u := by
    intro before u hPre saved hSaved hSame
    rcases before with _ | ⟨a, _ | ⟨b, _ | ⟨c, _ | ⟨e, rest⟩⟩⟩⟩
    · cases hSaved
    · simp [writeUnder] at hPre
    · simp [writeUnder] at hPre
    · simp only [writeUnder, List.cons_append, List.nil_append, List.cons_prefix_cons,
        List.prefix_nil, Action.update.injEq] at hPre
      obtain ⟨rfl, rfl, rfl, rfl, -⟩ := hPre
      -- the arrow is drawn at column 5, the update asks for column 20
      have hAt : saved.px = 5 := by
        have hMap := congrArg (Option.map SavedBg.px) hSaved
        exact (Option.some.inj hMap).symm
      have hNew : 20 = saved.px := congrArg Prod.fst hSame
      omega
    · simp [writeUnder] at hPre
  have hOff : smallFramebuffer.offArrow (Mouse.new, fun _ => 0) writeUnder =
      [(diagonal 39 (by omega), 7)] := by decide +kernel
  obtain ⟨-, hShown⟩ := screen_without_arrow smallFramebuffer Mouse.new (fun _ => 0) rfl
    writeUnder hMoves
  rw [hOff] at hShown
  exact ⟨hShown _ (by decide +kernel), hShown _ (by decide +kernel)⟩

end Framebuffer

end Neutrix.Ps2Mouse
