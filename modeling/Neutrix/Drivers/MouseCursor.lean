import Neutrix.Drivers.Ps2Mouse
import Neutrix.Lib.Run
import Neutrix.Lib.SaveUnder

/-!
# Neutrix — the mouse cursor leaves the screen as it was

A framebuffer at 32 bits per pixel is seen as a function of its pixels
(`view`), and the arrow as a sprite on it. Restoring, capturing and drawing
through memory are the sprite operations on that view, so `redraw_cursor`
refines the abstract `redraw` (`redrawCursor_refines`) and the analysis of
`Neutrix.Lib.SaveUnder` applies. A redraw at the spot where the arrow
already is does not restore, and captures the arrow as background; hence

* `cursorCorrect_iff` — along any sequence of updates, the saved background
  and the pixels outside the arrow are those from before the first redraw
  exactly when every redraw is at a new spot or at one where the arrow's
  pixels were white to begin with.
-/

namespace Neutrix.Ps2Mouse

open Neutrix.Lib

/-- An active framebuffer at 32 bits per pixel that has room for the arrow. -/
structure Framebuffer where
  drv   : VbeVga
  fb    : Nat
  rest  : List Nat
  xres  : UInt16
  yres  : UInt16
  addrs : drv.addrs = fb :: rest
  mode  : drv.fbInfo = VbeVga.readMode xres yres 32
  wide  : W ≤ xres.toNat
  high  : H ≤ yres.toNat

namespace Framebuffer

variable (F : Framebuffer)

def info : FramebufferInfo where
  width  := F.xres.toNat
  height := F.yres.toNat
  bpp    := 32
  pitch  := F.xres.toNat * 4

theorem fbInfo_eq : F.drv.fbInfo = some F.info := by
  rw [F.mode, VbeVga.readMode_32bpp]
  · rfl
  · exact Nat.lt_of_lt_of_le (by decide) F.wide
  · exact Nat.lt_of_lt_of_le (by decide) F.high

theorem pitch_eq : F.drv.pitch = F.info.pitch := by
  simp only [VbeVga.pitch, F.fbInfo_eq]

/-- The pixel in column `x` of row `y`. -/
def pixel (mem : Memory) (x y : Nat) : UInt32 :=
  mem.read32 (VbeVga.pixelAddr F.info.pitch F.fb x y)

-- ---------------------------------------------------------------------------
-- The framebuffer as a function of its pixels
-- ---------------------------------------------------------------------------

abbrev Pixel : Type := Fin F.info.width × Fin F.info.height

def addr (p : F.Pixel) : Nat := VbeVga.pixelAddr F.info.pitch F.fb p.1 p.2

def view (mem : Memory) : F.Pixel → UInt32 := fun p => mem.read32 (F.addr p)

/-- Different pixels occupy different words. -/
theorem addr_disjoint {p q : F.Pixel} (h : p ≠ q) :
    F.addr p + 4 ≤ F.addr q ∨ F.addr q + 4 ≤ F.addr p := by
  have hIndex : ∀ r : F.Pixel, F.addr r = F.fb + 4 * (r.1 + F.info.width * r.2) := fun r =>
    VbeVga.pixelAddr_eq F.info.width F.fb r.1 r.2
  have hNe : p.1.val + F.info.width * p.2.val ≠ q.1.val + F.info.width * q.2.val := by
    rw [Ne, VbeVga.pixelIndex_inj p.1.isLt q.1.isLt, ← Fin.ext_iff, ← Fin.ext_iff, ← Prod.ext_iff]
    exact h
  rw [hIndex, hIndex]
  omega

theorem view_write (mem : Memory) (p q : F.Pixel) (v : UInt32) :
    F.view (mem.write32 (F.addr p) v) q = if q = p then v else F.view mem q := by
  split
  · rename_i hEq
    rw [hEq, view, Memory.read32_write32_self]
  · rename_i hNe
    exact Memory.read32_write32_of_disjoint mem v (F.addr_disjoint (Ne.symm hNe))

-- ---------------------------------------------------------------------------
-- The arrow as a sprite
-- ---------------------------------------------------------------------------

/-- A position where the arrow's block lies on the screen. -/
@[ext]
structure Spot where
  x : Nat
  y : Nat
  fitsX : x + W ≤ F.info.width
  fitsY : y + H ≤ F.info.height
deriving DecidableEq

variable {F}

def Spot.block (q : F.Spot) (i : Fin H × Fin W) : F.Pixel :=
  (⟨q.x + i.2, by have := q.fitsX; omega⟩, ⟨q.y + i.1, by have := q.fitsY; omega⟩)

def Spot.index (q : F.Spot) (p : F.Pixel) : Option (Fin H × Fin W) :=
  if h : (q.y ≤ p.2 ∧ p.2 < q.y + H) ∧ (q.x ≤ p.1 ∧ p.1 < q.x + W) then
    some (⟨p.2 - q.y, by omega⟩, ⟨p.1 - q.x, by omega⟩)
  else none

theorem Spot.index_eq_some (q : F.Spot) (p : F.Pixel) (i : Fin H × Fin W) :
    q.index p = some i ↔ q.block i = p := by
  obtain ⟨⟨px, hpx⟩, ⟨py, hpy⟩⟩ := p
  obtain ⟨⟨row, hRow⟩, ⟨col, hCol⟩⟩ := i
  unfold Spot.index Spot.block
  dsimp only
  split_ifs with hIn
  · simp only [Option.some.injEq, Prod.mk.injEq, Fin.mk.injEq]
    omega
  · simp only [Prod.mk.injEq, Fin.mk.injEq, false_iff]
    omega

theorem Spot.block_injective (q : F.Spot) {i j : Fin H × Fin W} (h : q.block i = q.block j) :
    i = j :=
  Option.some.inj (((q.index_eq_some _ i).mpr h).symm.trans ((q.index_eq_some _ j).mpr rfl))

variable (F) in
def sprite : Sprite F.Spot F.Pixel (Fin H × Fin W) UInt32 where
  block := Spot.block
  index := Spot.index
  index_eq_some := Spot.index_eq_some
  mask i := arrowBit i.1 i.2
  ink := 0xFFFFFFFF

-- ---------------------------------------------------------------------------
-- Drawing through memory
-- ---------------------------------------------------------------------------

theorem drawPixelAt_block (mem : Memory) (q : F.Spot) (i : Fin H × Fin W) (v : UInt32) :
    F.drv.drawPixelAt mem F.fb (q.x + i.2) (q.y + i.1) v =
      mem.write32 (F.addr (q.block i)) v := by
  rw [VbeVga.drawPixelAt, F.pitch_eq]
  rfl

section Writes

variable (q : F.Spot) (val : Fin H × Fin W → UInt32) {is : List (Fin H × Fin W)} (mem : Memory)

theorem view_foldl_of_not_mem {p : F.Pixel} (hp : ∀ i ∈ is, p ≠ q.block i) :
    F.view (is.foldl (fun mem i => F.drv.drawPixelAt mem F.fb (q.x + i.2) (q.y + i.1) (val i)) mem)
      p = F.view mem p := by
  induction is generalizing mem with
  | nil => rfl
  | cons i is ih =>
    rw [List.foldl_cons, ih _ fun j hj => hp j (List.mem_cons_of_mem i hj), drawPixelAt_block,
      view_write, if_neg (hp i List.mem_cons_self)]

/-- A pixel may be written more than once, each time with the same value. -/
theorem view_foldl_of_mem {i : Fin H × Fin W} (hi : i ∈ is) :
    F.view (is.foldl (fun mem i => F.drv.drawPixelAt mem F.fb (q.x + i.2) (q.y + i.1) (val i)) mem)
      (q.block i) = val i := by
  induction is generalizing mem with
  | nil => cases hi
  | cons j is ih =>
    rw [List.foldl_cons]
    by_cases hRest : i ∈ is
    · exact ih _ hRest
    · obtain rfl : i = j := (List.mem_cons.mp hi).resolve_right hRest
      have hLast : ∀ j ∈ is, q.block i ≠ q.block j := by
        intro j hj hEq
        obtain rfl : i = j := q.block_injective hEq
        exact hRest hj
      rw [view_foldl_of_not_mem q val _ hLast, drawPixelAt_block, view_write, if_pos rfl]

end Writes

theorem mem_block (i : Fin H × Fin W) : i ∈ Ps2Mouse.block :=
  List.mem_product.mpr ⟨List.mem_finRange i.1, List.mem_finRange i.2⟩

/-- The saved background that a sprite's background is kept as. -/
def toSaved (qb : F.Spot × (Fin H × Fin W → UInt32)) : SavedBg where
  px := qb.1.x
  py := qb.1.y
  pixels row col := qb.2 (row, col)

theorem view_restoreBg (mem : Memory) (q : F.Spot) (bg : Fin H × Fin W → UInt32) :
    F.view (restoreBg F.drv mem F.fb (toSaved (q, bg))) = F.sprite.restore (F.view mem) q bg := by
  funext p
  by_cases hIn : ∃ i, q.block i = p
  · obtain ⟨i, rfl⟩ := hIn
    have hBlock : F.sprite.restore (F.view mem) q bg (q.block i) = bg i :=
      F.sprite.restore_block (F.view mem) q bg i
    rw [hBlock]
    exact view_foldl_of_mem q bg mem (mem_block i)
  · have hOut : ∀ i, q.block i ≠ p := fun i hi => hIn ⟨i, hi⟩
    rw [F.sprite.restore_of_not_block (F.view mem) bg hOut]
    exact view_foldl_of_not_mem q bg mem fun i _ => (hOut i).symm

theorem captureBg_eq (mem : Memory) (q : F.Spot) :
    captureBg F.info mem F.fb q.x q.y = toSaved (q, F.sprite.capture (F.view mem) q) := rfl

theorem view_drawArrow (mem : Memory) (q : F.Spot) :
    F.view (drawArrow F.drv mem F.fb q.x q.y) = F.sprite.paint (F.view mem) q := by
  funext p
  rw [drawArrow, ← List.foldl_filter]
  by_cases hInk : F.sprite.Inked q p
  · rw [F.sprite.paint_of_inked (F.view mem) hInk]
    obtain ⟨i, rfl, hMask⟩ := hInk
    exact view_foldl_of_mem q (fun _ => 0xFFFFFFFF) mem (List.mem_filter.mpr ⟨mem_block i, hMask⟩)
  · rw [F.sprite.paint_of_not_inked (F.view mem) hInk]
    refine view_foldl_of_not_mem q (fun _ => 0xFFFFFFFF) mem fun i hi hEq => hInk ?_
    exact ⟨i, hEq.symm, (List.mem_filter.mp hi).2⟩

-- ---------------------------------------------------------------------------
-- Refinement
-- ---------------------------------------------------------------------------

theorem asUsize_clampTo_fits {size span : Nat} (hFits : span ≤ size) (hSize : size < 2 ^ 16)
    (pos : Int) : asUsize (clampTo (size - span) pos) + span ≤ size := by
  unfold asUsize clampTo
  dsimp only
  split_ifs <;> omega

variable (F) in
/-- Where the arrow is drawn for a cursor position. -/
def spot (x y : Int) : F.Spot where
  x := (drawnAt F.info x y).1
  y := (drawnAt F.info x y).2
  fitsX := asUsize_clampTo_fits F.wide F.xres.toNat_lt x
  fitsY := asUsize_clampTo_fits F.high F.yres.toNat_lt y

theorem drawnAt_eq {x y : Int} {q : F.Spot} (hq : F.spot x y = q) :
    drawnAt F.info x y = (q.x, q.y) := by
  subst hq
  rfl

/-- The driver and memory show what the abstract screen shows. -/
structure Refines (s : Mouse × Memory) (d : Sprite.Drawn F.Spot F.Pixel (Fin H × Fin W) UInt32) :
    Prop where
  saved  : s.1.savedBg = d.saved.map toSaved
  screen : F.view s.2 = d.screen

theorem redrawCursor_eq {m : Mouse} {q : F.Spot} (hq : F.spot m.cursorX m.cursorY = q)
    (mem : Memory) :
    redrawCursor (some F.drv) m mem =
      let mem' := restorePrevious F.drv F.fb m.savedBg (q.x, q.y) mem
      ({ m with savedBg := some (captureBg F.info mem' F.fb q.x q.y) },
        drawArrow F.drv mem' F.fb q.x q.y) := by
  subst hq
  simp only [redrawCursor, F.addrs, F.fbInfo_eq]
  rfl

theorem view_restorePrevious {m : Mouse} {mem : Memory}
    {d : Sprite.Drawn F.Spot F.Pixel (Fin H × Fin W) UInt32} (h : Refines (m, mem) d)
    (q : F.Spot) :
    F.view (restorePrevious F.drv F.fb m.savedBg (q.x, q.y) mem) = F.sprite.restored d q := by
  have hSaved : m.savedBg = d.saved.map toSaved := h.saved
  have hScreen : F.view mem = d.screen := h.screen
  unfold restorePrevious Sprite.restored
  rw [hSaved, ← hScreen]
  cases d.saved with
  | none => rfl
  | some pb =>
    obtain ⟨p, bg⟩ := pb
    have hSpot : p ≠ q ↔ (p.x ≠ q.x ∨ p.y ≠ q.y) := by
      rw [ne_eq, Spot.ext_iff, not_and_or]
    simp only [Option.map_some, hSpot, toSaved]
    split_ifs
    · exact view_restoreBg mem p bg
    · rfl

/-- **`redraw_cursor` is the redraw of the arrow's sprite.** -/
theorem redrawCursor_refines {m : Mouse} {mem : Memory}
    {d : Sprite.Drawn F.Spot F.Pixel (Fin H × Fin W) UInt32} (h : Refines (m, mem) d) :
    Refines (redrawCursor (some F.drv) m mem)
      (F.sprite.redraw d (F.spot m.cursorX m.cursorY)) := by
  obtain ⟨q, hq⟩ : ∃ q, F.spot m.cursorX m.cursorY = q := ⟨_, rfl⟩
  rw [redrawCursor_eq hq, hq, Sprite.redraw, ← view_restorePrevious h q]
  refine ⟨congrArg some (captureBg_eq _ q), ?_⟩
  dsimp only
  exact view_drawArrow _ q

-- ---------------------------------------------------------------------------
-- Sequences of updates
-- ---------------------------------------------------------------------------

/-- The arrow drawn at `spot` inks the pixel. -/
def OnArrow (spot : Nat × Nat) (x y : Nat) : Prop :=
  ∃ (row : Fin H) (col : Fin W), arrowBit row col = true ∧ x = spot.1 + col ∧ y = spot.2 + row

variable (F) in
/-- The background saved for the current position is that of `orig`, and so is
every pixel that the arrow does not ink. -/
structure CursorCorrect (orig : Memory) (s : Mouse × Memory) : Prop where
  saved : ∃ saved, s.1.savedBg = some saved ∧
    (saved.px, saved.py) = drawnAt F.info s.1.cursorX s.1.cursorY ∧
    ∀ row col, saved.pixels row col = F.pixel orig (saved.px + col) (saved.py + row)
  outside : ∀ x < F.info.width, ∀ y < F.info.height,
    ¬ OnArrow (drawnAt F.info s.1.cursorX s.1.cursorY) x y → F.pixel s.2 x y = F.pixel orig x y

variable (F) in
/-- If the update leaves the arrow where it is drawn, `orig` is white under it. -/
def Harmless (orig : Memory) (s : Mouse × Memory) (u : Update) : Prop :=
  ∀ saved, s.1.savedBg = some saved →
    drawnAt F.info (s.1.place u).cursorX (s.1.place u).cursorY = (saved.px, saved.py) →
    ∀ x y, OnArrow (saved.px, saved.py) x y → F.pixel orig x y = 0xFFFFFFFF

variable {orig : Memory} {s : Mouse × Memory}
  {d : Sprite.Drawn F.Spot F.Pixel (Fin H × Fin W) UInt32}

theorem inked_iff (q : F.Spot) (p : F.Pixel) : F.sprite.Inked q p ↔ OnArrow (q.x, q.y) p.1 p.2 := by
  obtain ⟨⟨px, hpx⟩, ⟨py, hpy⟩⟩ := p
  constructor
  · rintro ⟨⟨row, col⟩, hBlock, hMask⟩
    cases hBlock
    exact ⟨row, col, hMask, rfl, rfl⟩
  · rintro ⟨row, col, hMask, hx, hy⟩
    exact ⟨(row, col), Prod.ext (Fin.ext hx.symm) (Fin.ext hy.symm), hMask⟩

theorem cursorCorrect_iff_correct (h : Refines s d) :
    CursorCorrect F orig s ↔
      F.sprite.Correct (F.view orig) (F.spot s.1.cursorX s.1.cursorY) d := by
  obtain ⟨q, hq⟩ : ∃ q, F.spot s.1.cursorX s.1.cursorY = q := ⟨_, rfl⟩
  have hAt := drawnAt_eq hq
  rw [hq]
  constructor
  · rintro ⟨⟨saved, hSaved, hPos, hPixels⟩, hOutside⟩
    rw [h.saved, Option.map_eq_some_iff] at hSaved
    obtain ⟨⟨q', bg⟩, hd, rfl⟩ := hSaved
    rw [hAt] at hPos
    obtain rfl : q' = q := Spot.ext (congrArg Prod.fst hPos) (congrArg Prod.snd hPos)
    refine ⟨hd.trans (congrArg (fun b => some (q', b)) (funext fun i => hPixels i.1 i.2)), ?_⟩
    intro p hp
    rw [← h.screen]
    exact hOutside p.1 p.1.isLt p.2 p.2.isLt (by rwa [hAt, ← inked_iff])
  · rintro ⟨hSaved, hOutside⟩
    refine ⟨⟨toSaved (q, F.sprite.capture (F.view orig) q), ?_, hAt.symm, fun row col => rfl⟩, ?_⟩
    · rw [h.saved, hSaved]
      rfl
    · intro x hx y hy hOff
      rw [hAt] at hOff
      have hp := hOutside (⟨x, hx⟩, ⟨y, hy⟩) (by rwa [inked_iff])
      rw [← h.screen] at hp
      exact hp

theorem harmless_iff (h : Refines s d) (u : Update) :
    Harmless F orig s u ↔
      F.sprite.Harmless (F.view orig) d
        (F.spot (s.1.place u).cursorX (s.1.place u).cursorY) := by
  obtain ⟨q, hq⟩ : ∃ q, F.spot (s.1.place u).cursorX (s.1.place u).cursorY = q := ⟨_, rfl⟩
  have hAt := drawnAt_eq hq
  rw [hq, Harmless, hAt, h.saved, Sprite.Harmless]
  cases d.saved with
  | none => simp
  | some pb =>
    obtain ⟨q', bg⟩ := pb
    constructor
    · intro hWhite
      by_cases hSame : q' = q
      · subst hSame
        exact Or.inr fun p hp => hWhite _ rfl rfl p.1 p.2 ((inked_iff q' p).mp hp)
      · exact Or.inl fun hEq => hSame (Option.some.inj hEq)
    · rintro hOr saved hSaved hPos x y hOn
      cases hSaved
      obtain rfl : q' = q :=
        Spot.ext (congrArg Prod.fst hPos).symm (congrArg Prod.snd hPos).symm
      have hInk := hOr.resolve_left (not_not_intro rfl)
      obtain ⟨row, col, hMask, rfl, rfl⟩ := hOn
      exact hInk (q'.block (row, col)) ⟨(row, col), rfl, hMask⟩

variable (F) in
/-- The driver and memory after the updates. -/
def after (m : Mouse) (mem : Memory) (us : List Update) : Mouse × Memory :=
  us.foldl (update (some F.drv)) (m, mem)

variable (F) in
/-- The spot an update draws the arrow at. -/
def target (s : Mouse × Memory) (u : Update) : F.Spot :=
  F.spot (s.1.place u).cursorX (s.1.place u).cursorY

theorem update_refines (h : Refines s d) (u : Update) :
    Refines (update (some F.drv) s u) (F.sprite.redraw d (F.target s u)) := by
  have hPlaced : Refines (s.1.place u, s.2) d := by
    refine ⟨?_, h.screen⟩
    rw [← h.saved]
    cases u <;> rfl
  exact redrawCursor_refines hPlaced

/-- The redraw leaves the cursor where the update placed it. -/
theorem spot_update (s : Mouse × Memory) (u : Update) :
    F.spot (update (some F.drv) s u).1.cursorX (update (some F.drv) s u).1.cursorY =
      F.target s u := by
  rw [update, redrawCursor_eq rfl]
  rfl

/-- **Step.** From a correct screen an update is correct iff it is harmless. -/
theorem update_correct_iff (h : Refines s d) (hOver : F.sprite.Over (F.view orig) d)
    (u : Update) : CursorCorrect F orig (update (some F.drv) s u) ↔ Harmless F orig s u := by
  rw [cursorCorrect_iff_correct (update_refines h u), spot_update, harmless_iff h]
  exact Sprite.redraw_correct_iff hOver _

variable (F) in
/-- The screen is `orig` with the arrow on it, and what it covers is saved. -/
def Shows (orig : Memory) (s : Mouse × Memory) : Prop :=
  ∃ d : Sprite.Drawn F.Spot F.Pixel (Fin H × Fin W) UInt32,
    Refines s d ∧ F.sprite.Over (F.view orig) d

theorem update_shows (h : Shows F orig s) {u : Update} (hu : Harmless F orig s u) :
    Shows F orig (update (some F.drv) s u) := by
  obtain ⟨d, hRef, hOver⟩ := h
  exact ⟨_, update_refines hRef u, Sprite.redraw_over hOver ((harmless_iff hRef u).mp hu)⟩

/-- **After every update the saved background and the pixels outside the arrow
are those from before the first redraw, iff every update moves the arrow or
finds it on pixels that were white from the start.** -/
theorem cursorCorrect_iff (F : Framebuffer) (m : Mouse) (mem : Memory) (hm : m.savedBg = none)
    (us : List Update) :
    (∀ before u, before ++ [u] <+: us → CursorCorrect F mem (F.after m mem (before ++ [u]))) ↔
    (∀ before u, before ++ [u] <+: us → Harmless F mem (F.after m mem before) u) := by
  have hStart : Shows F mem (m, mem) :=
    ⟨{ screen := F.view mem, saved := none }, ⟨hm, rfl⟩, rfl⟩
  have hSteps : (∀ before u s, before ++ [u] <+: us →
      run (fun s u => some (update (some F.drv) s u)) (m, mem) (before ++ [u]) = some s →
        CursorCorrect F mem s) ↔
      ∀ before u s, before ++ [u] <+: us →
        run (fun s u => some (update (some F.drv) s u)) (m, mem) before = some s →
          Harmless F mem s u := by
    refine run_prefixes_iff _ hStart ?_ ?_ ?_
    · rintro s ⟨d, hRef, hOver⟩ u - t hStep
      cases hStep
      exact update_correct_iff hRef hOver u
    · intro s hShows u _ t hStep hHarmless
      cases hStep
      exact update_shows hShows hHarmless
    · exact fun s _ u _ => ⟨_, rfl⟩
  simp only [run_total, Option.some.injEq] at hSteps
  constructor
  · intro hAll before u hPre
    exact hSteps.mp (fun b v s hb hs => hs ▸ hAll b v hb) before u _ hPre rfl
  · intro hAll before u hPre
    exact hSteps.mpr (fun b v s hb hs => hs ▸ hAll b v hb) before u _ hPre rfl

/-- A framebuffer of 40 by 40 pixels at address 0. -/
def smallFramebuffer : Framebuffer where
  drv   := { addrs := [0], fbInfo := VbeVga.readMode 40 40 32 }
  fb    := 0
  rest  := []
  xres  := 40
  yres  := 40
  addrs := rfl
  mode  := rfl
  wide  := by decide
  high  := by decide

/-- Two placements at different spots of a black screen. -/
theorem cursorCorrect_two_spots :
    Mouse.new.savedBg = none ∧
      ∀ before u, before ++ [u] <+: [Update.setCursorPos 5 5, .setCursorPos 20 20] →
        CursorCorrect smallFramebuffer (fun _ => 0)
          (smallFramebuffer.after Mouse.new (fun _ => 0) (before ++ [u])) := by
  refine ⟨rfl, (cursorCorrect_iff smallFramebuffer Mouse.new (fun _ => 0) rfl _).mpr ?_⟩
  intro before u hPre saved hSaved hPos
  rcases before with _ | ⟨x, _ | ⟨y, rest⟩⟩
  · cases hSaved
  · obtain ⟨rfl, rfl⟩ : Update.setCursorPos 5 5 = x ∧ Update.setCursorPos 20 20 = u := by
      simpa [eq_comm] using hPre
    -- the arrow is drawn at column 5, the update asks for column 20
    have hAt : saved.px = 5 := by
      have hMap := congrArg (Option.map SavedBg.px) hSaved
      exact (Option.some.inj hMap).symm
    have hNew : 20 = saved.px := congrArg Prod.fst hPos
    omega
  · simp at hPre

/-- A packet without movement saves the arrow as background; the next movement
paints it where nothing was. -/
theorem still_packet_leaves_ghost :
    let mem : Memory := fun _ => 0
    let still : Update := .packet ⟨8, 0, 0⟩
    smallFramebuffer.pixel mem 5 5 = 0 ∧
      (smallFramebuffer.after Mouse.new mem [.setCursorPos 5 5, still]).1.savedBg.map
        (fun saved => (saved.px, saved.py, saved.pixels 0 0)) = some (5, 5, 0xFFFFFFFF) ∧
      smallFramebuffer.pixel
        (smallFramebuffer.after Mouse.new mem [.setCursorPos 5 5, still, .setCursorPos 20 20]).2
        5 5 = 0xFFFFFFFF := by
  decide +kernel

end Framebuffer

end Neutrix.Ps2Mouse
