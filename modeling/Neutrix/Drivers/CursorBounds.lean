import Neutrix.Drivers.MouseTravel
import Neutrix.Lib.Footprint

/-!
# Neutrix — the pixels a redraw touches

`redraw_cursor` touches pixels in three loops: it puts back the saved block,
captures the block under the new position and draws the arrow. `accesses`
lists them by column and row; `redrawAt_footprint` says that the redraw
neither depends on nor changes any other byte of memory.

The position is clamped with the size of the screen, the bytes of a pixel
are found with the pitch. Two things can go wrong. On a screen smaller than
the block the clamped position is negative, and far outside as a `usize`.
And the pitch follows from the depth of the mode while a pixel always takes
four bytes, so below 25 bits per pixel the right end of a row of pixels lies
in the next row of bytes, or behind the last.

* `accesses_onScreen_iff` — when all accesses are on the screen and in their
  own row;
* `updates_onScreen` — in the deep modes they always are, on every run.
-/

namespace Neutrix.Ps2Mouse

open Neutrix.Lib

-- ---------------------------------------------------------------------------
-- Accesses
-- ---------------------------------------------------------------------------

/-- The column and row of pixels of a block at `(x, y)`. The sums are not reduced to
64 bits: where one would wrap, the first column or row is far outside already. -/
def pixelsAt (x y : Nat) (is : List (Fin H × Fin W)) : List (Nat × Nat) :=
  is.map fun i => (x + i.2, y + i.1)

/-- The pixels that `restorePrevious` writes. -/
def restored (savedBg : Option SavedBg) (at_ : Nat × Nat) : List (Nat × Nat) :=
  match savedBg with
  | some saved =>
    if saved.px ≠ at_.1 ∨ saved.py ≠ at_.2 then pixelsAt saved.px saved.py block else []
  | none => []

/-- The pixels a redraw reads or writes: it restores, captures and draws. -/
def accesses (info : FramebufferInfo) (m : Mouse) : List (Nat × Nat) :=
  let (bx, by_) := drawnAt info m.cursorX m.cursorY
  restored m.savedBg (bx, by_) ++ pixelsAt bx by_ block ++
    pixelsAt bx by_ (block.filter fun i => arrowBit i.1 i.2)

/-- Where a pixel should be. -/
structure OnScreen (info : FramebufferInfo) (p : Nat × Nat) : Prop where
  column : p.1 < info.width
  row    : p.2 < info.height
  inRow  : p.2 * info.pitch + p.1 * 4 + 4 ≤ (p.2 + 1) * info.pitch
  inside : p.2 * info.pitch + p.1 * 4 + 4 ≤ info.height * info.pitch

/-- A block at `(x, y)` lies on the screen, and each of its rows in a row of bytes. -/
structure BlockFits (info : FramebufferInfo) (x y : Nat) : Prop where
  wide : x + W ≤ info.width
  high : y + H ≤ info.height
  deep : (x + W) * 4 ≤ info.pitch

-- ---------------------------------------------------------------------------
-- Footprint
-- ---------------------------------------------------------------------------

/-- The byte at `a` belongs to one of the pixels. -/
def Touches (info : FramebufferInfo) (fb : Nat) (ps : List (Nat × Nat)) (a : Nat) : Prop :=
  ∃ p ∈ ps, VbeVga.pixelAddr info.pitch fb p.1 p.2 ≤ a ∧
    a < VbeVga.pixelAddr info.pitch fb p.1 p.2 + 4

theorem mem_pixelsAt_block (x y : Nat) (row : Fin H) (col : Fin W) :
    (x + col.val, y + row.val) ∈ pixelsAt x y block :=
  List.mem_map.mpr ⟨(row, col), List.pair_mem_product.mpr
    ⟨List.mem_finRange row, List.mem_finRange col⟩, rfl⟩

section Footprint

variable {drv : VbeVga} {info : FramebufferInfo} {fb : Nat} {T : Nat → Prop}

theorem drawPixelAt_within (hPitch : drv.pitch = info.pitch) {p : Nat × Nat}
    (hT : ∀ a, Touches info fb [p] a → T a) (mem mem' : Memory) (v : UInt32) :
    Within T mem (drv.drawPixelAt mem fb p.1 p.2 v) mem' (drv.drawPixelAt mem' fb p.1 p.2 v) := by
  unfold VbeVga.drawPixelAt
  rw [hPitch]
  exact Within.write32 (fun a hLo hHi => hT a ⟨p, List.mem_singleton_self p, hLo, hHi⟩) mem mem' v

theorem foldl_draw_within (hPitch : drv.pitch = info.pitch) {x y : Nat} {is : List (Fin H × Fin W)}
    (hT : ∀ a, Touches info fb (pixelsAt x y is) a → T a) (v : Fin H × Fin W → UInt32)
    (mem mem' : Memory) :
    Within T mem (is.foldl (fun mem i => drv.drawPixelAt mem fb (x + i.2) (y + i.1) (v i)) mem)
      mem' (is.foldl (fun mem i => drv.drawPixelAt mem fb (x + i.2) (y + i.1) (v i)) mem') := by
  refine Within.foldl (fun i hi mem mem' => ?_) mem mem'
  refine drawPixelAt_within hPitch (p := (x + i.2, y + i.1)) (fun a ha => hT a ?_) mem mem' (v i)
  obtain ⟨p, hp, hAt⟩ := ha
  rw [List.mem_singleton.mp hp] at hAt
  exact ⟨_, List.mem_map_of_mem hi, hAt⟩

theorem restorePrevious_within (hPitch : drv.pitch = info.pitch) {savedBg : Option SavedBg}
    {at_ : Nat × Nat} (hT : ∀ a, Touches info fb (restored savedBg at_) a → T a)
    (mem mem' : Memory) :
    Within T mem (restorePrevious drv fb savedBg at_ mem)
      mem' (restorePrevious drv fb savedBg at_ mem') := by
  unfold restorePrevious
  cases savedBg with
  | none => exact Within.refl T mem mem'
  | some saved =>
    unfold restored at hT
    dsimp only at hT ⊢
    split_ifs at hT ⊢
    · exact foldl_draw_within hPitch hT (fun i => saved.pixels i.1 i.2) mem mem'
    · exact Within.refl T mem mem'

theorem drawArrow_within (hPitch : drv.pitch = info.pitch) {bx by_ : Nat}
    (hT : ∀ a, Touches info fb (pixelsAt bx by_ (block.filter fun i => arrowBit i.1 i.2)) a → T a)
    (mem mem' : Memory) :
    Within T mem (drawArrow drv mem fb bx by_) mem' (drawArrow drv mem' fb bx by_) := by
  have hFold := foldl_draw_within hPitch hT (fun _ => 0xFFFFFFFF) mem mem'
  rwa [List.foldl_filter, List.foldl_filter] at hFold

theorem Touches.mono {ps qs : List (Nat × Nat)} (hSub : ∀ p ∈ ps, p ∈ qs) {a : Nat}
    (h : Touches info fb ps a) : Touches info fb qs a := by
  obtain ⟨p, hp, hAt⟩ := h
  exact ⟨p, hSub p hp, hAt⟩

/-- **The footprint of a redraw** is the pixels in `accesses`: other bytes stay as
they are, and what the redraw saves and leaves behind depends on no others. -/
theorem redrawAt_footprint (hPitch : drv.pitch = info.pitch) (m : Mouse) (mem mem' : Memory) :
    Within (Touches info fb (accesses info m)) mem (redrawAt drv info fb m mem).2
      mem' (redrawAt drv info fb m mem').2 ∧
    ((∀ a, Touches info fb (accesses info m) a → mem' a = mem a) →
      (redrawAt drv info fb m mem').1 = (redrawAt drv info fb m mem).1) := by
  unfold redrawAt accesses
  obtain ⟨bx, by_⟩ := drawnAt info m.cursorX m.cursorY
  dsimp only
  have hRestore : Within (Touches info fb (restored m.savedBg (bx, by_) ++
      pixelsAt bx by_ block ++ pixelsAt bx by_ (block.filter fun i => arrowBit i.1 i.2)))
      mem (restorePrevious drv fb m.savedBg (bx, by_) mem)
      mem' (restorePrevious drv fb m.savedBg (bx, by_) mem') :=
    restorePrevious_within hPitch (fun a => Touches.mono fun p hp =>
      List.mem_append_left _ (List.mem_append_left _ hp)) mem mem'
  refine ⟨hRestore.trans (drawArrow_within hPitch (fun a => Touches.mono fun p hp => ?_) _ _),
    fun hEq => ?_⟩
  · exact List.mem_append_right _ hp
  · -- the captured pixels are read where the memories agree
    have hCaptured : captureBg info (restorePrevious drv fb m.savedBg (bx, by_) mem') fb bx by_ =
        captureBg info (restorePrevious drv fb m.savedBg (bx, by_) mem) fb bx by_ := by
      refine congrArg (SavedBg.mk bx by_) (funext fun row => funext fun col => ?_)
      refine read32_congr fun k hk => hRestore.agree hEq _ ⟨(bx + col, by_ + row), ?_, ?_, ?_⟩
      · exact List.mem_append_left _ (List.mem_append_right _ (mem_pixelsAt_block bx by_ row col))
      · exact Nat.le_add_right _ _
      · exact Nat.add_lt_add_left hk _
    rw [hCaptured]

end Footprint

-- ---------------------------------------------------------------------------
-- Blocks
-- ---------------------------------------------------------------------------

/-- The last pixel of the last row decides. -/
theorem pixelsAt_onScreen_iff {info : FramebufferInfo} {x y : Nat} :
    (∀ p ∈ pixelsAt x y block, OnScreen info p) ↔ BlockFits info x y := by
  constructor
  · intro hAll
    have hLast := hAll (x + 11, y + 15) (mem_pixelsAt_block x y 15 11)
    have hColumn := hLast.column
    have hRow := hLast.row
    have hBytes := hLast.inRow
    dsimp only at hColumn hRow hBytes
    rw [Nat.add_mul (y + 15) 1, Nat.one_mul] at hBytes
    refine ⟨?_, ?_, ?_⟩
    · show x + 12 ≤ info.width
      omega
    · show y + 16 ≤ info.height
      omega
    · show (x + 12) * 4 ≤ info.pitch
      omega
  · intro hFits p hp
    obtain ⟨⟨row, col⟩, -, rfl⟩ := List.mem_map.mp hp
    have hWide : x + 12 ≤ info.width := hFits.wide
    have hHigh : y + 16 ≤ info.height := hFits.high
    have hDeep : (x + 12) * 4 ≤ info.pitch := hFits.deep
    have hRowLt : row.val < 16 := row.isLt
    have hColLt : col.val < 12 := col.isLt
    have hRow : y + row.val < info.height := by omega
    have hBytes : (y + row.val) * info.pitch + (x + col.val) * 4 + 4 ≤
        (y + row.val + 1) * info.pitch := by
      rw [Nat.add_mul (y + row.val) 1, Nat.one_mul]
      omega
    exact ⟨by dsimp only; omega, hRow, hBytes,
      Nat.le_trans hBytes (Nat.mul_le_mul_right _ hRow)⟩

/-- A negative room leaves the position far outside. -/
theorem asUsize_clampTo_neg {room : Int} (hRoom : room < 0 ∧ -2 ^ 16 < room) (v : Int) :
    asUsize (clampTo room v) = (2 ^ 64 + room).toNat := by
  unfold asUsize clampTo
  dsimp only
  split_ifs <;> omega

/-- On one axis, the block is on the screen when the screen has room for it. -/
theorem asUsize_clampTo_fits_iff {size span : Nat} (hSize : size < 2 ^ 16) (hSpan : span < 2 ^ 16)
    (v : Int) : asUsize (clampTo (size - span) v) + span ≤ size ↔ span ≤ size := by
  by_cases hFits : span ≤ size
  · rw [asUsize_clampTo (by omega), confine]
    omega
  · rw [asUsize_clampTo_neg (by omega)]
    omega

-- ---------------------------------------------------------------------------
-- One redraw
-- ---------------------------------------------------------------------------

section Redraw

variable {info : FramebufferInfo} {m : Mouse}

theorem accesses_onScreen_iff_blocks :
    (∀ p ∈ accesses info m, OnScreen info p) ↔
      BlockFits info (drawnAt info m.cursorX m.cursorY).1 (drawnAt info m.cursorX m.cursorY).2 ∧
      ∀ saved, m.savedBg = some saved → BlockFits info saved.px saved.py := by
  unfold accesses
  obtain ⟨bx, by_⟩ := drawnAt info m.cursorX m.cursorY
  simp only [List.mem_append]
  constructor
  · intro hAll
    have hHere : BlockFits info bx by_ :=
      pixelsAt_onScreen_iff.mp fun p hp => hAll p (.inl (.inr hp))
    refine ⟨hHere, fun saved hSaved => ?_⟩
    by_cases hOther : saved.px ≠ bx ∨ saved.py ≠ by_
    · refine pixelsAt_onScreen_iff.mp fun p hp => hAll p (.inl (.inl ?_))
      rw [hSaved, restored, if_pos hOther]
      exact hp
    · -- a block at the same place fits as the new one does
      rw [not_or, not_not, not_not] at hOther
      rw [hOther.1, hOther.2]
      exact hHere
  · rintro ⟨hHere, hSaved⟩ p ((hRestored | hCaptured) | hDrawn)
    · unfold restored at hRestored
      split at hRestored
      · next saved hSome =>
        split_ifs at hRestored
        · exact pixelsAt_onScreen_iff.mpr (hSaved saved hSome) p hRestored
        · exact absurd hRestored List.not_mem_nil
      · exact absurd hRestored List.not_mem_nil
    · exact pixelsAt_onScreen_iff.mpr hHere p hCaptured
    · obtain ⟨i, hi, rfl⟩ := List.mem_map.mp hDrawn
      exact pixelsAt_onScreen_iff.mpr hHere _
        (List.mem_map_of_mem (List.mem_of_mem_filter hi))

theorem blockFits_drawnAt_iff (hWidth : info.width < 2 ^ 16) (hHeight : info.height < 2 ^ 16)
    (x y : Int) :
    BlockFits info (drawnAt info x y).1 (drawnAt info x y).2 ↔
      W ≤ info.width ∧ H ≤ info.height ∧
        (max 0 (min ((info.width : Int) - W) x) + W) * 4 ≤ info.pitch := by
  have hX : (drawnAt info x y).1 + W ≤ info.width ↔ W ≤ info.width :=
    asUsize_clampTo_fits_iff hWidth (by decide) x
  have hY : (drawnAt info x y).2 + H ≤ info.height ↔ H ≤ info.height :=
    asUsize_clampTo_fits_iff hHeight (by decide) y
  constructor
  · rintro ⟨hWide, hHigh, hDeep⟩
    have hRoom := hX.mp hWide
    refine ⟨hRoom, hY.mp hHigh, ?_⟩
    have hAt : (drawnAt info x y).1 = (confine (info.width - W) x).toNat :=
      asUsize_clampTo (by omega) x
    rw [hAt, confine] at hDeep
    omega
  · rintro ⟨hRoom, hHigh, hDeep⟩
    refine ⟨hX.mpr hRoom, hY.mpr hHigh, ?_⟩
    have hAt : (drawnAt info x y).1 = (confine (info.width - W) x).toNat :=
      asUsize_clampTo (by omega) x
    rw [hAt, confine]
    omega

end Redraw

/-- What a mode that `start` stores looks like. -/
theorem readMode_eq_some {xres yres bpp : UInt16} {info : FramebufferInfo}
    (h : VbeVga.readMode xres yres bpp = some info) :
    info = ⟨xres.toNat, yres.toNat, bpp.toNat, xres.toNat * ((bpp.toNat + 7) / 8)⟩ := by
  unfold VbeVga.readMode at h
  split_ifs at h
  exact (Option.some.inj h).symm

/-- **The accesses of a redraw** are on the screen and in their own row exactly
when the screen has room for the block, the block at the clamped column ends
within the pitch, and so does the block saved before. -/
theorem accesses_onScreen_iff {xres yres bpp : UInt16} {info : FramebufferInfo}
    (hMode : VbeVga.readMode xres yres bpp = some info) (m : Mouse) :
    (∀ p ∈ accesses info m, OnScreen info p) ↔
      12 ≤ xres.toNat ∧ 16 ≤ yres.toNat ∧
      (max 0 (min ((xres.toNat : Int) - 12) m.cursorX) + 12) * 4 ≤
        xres.toNat * ((bpp.toNat + 7) / 8) ∧
      ∀ saved, m.savedBg = some saved →
        saved.px + 12 ≤ xres.toNat ∧ saved.py + 16 ≤ yres.toNat ∧
          (saved.px + 12) * 4 ≤ xres.toNat * ((bpp.toNat + 7) / 8) := by
  obtain rfl := readMode_eq_some hMode
  rw [accesses_onScreen_iff_blocks, blockFits_drawnAt_iff xres.toNat_lt yres.toNat_lt, and_assoc,
    and_assoc]
  push_cast
  refine and_congr Iff.rfl (and_congr Iff.rfl (and_congr Iff.rfl ?_))
  refine forall_congr' fun saved => imp_congr Iff.rfl ?_
  exact ⟨fun h => ⟨h.wide, h.high, h.deep⟩, fun ⟨hWide, hHigh, hDeep⟩ => ⟨hWide, hHigh, hDeep⟩⟩

/-- The mode that `start` asks for. -/
theorem accesses_onScreen_1024 :
    VbeVga.readMode 1024 768 32 = some ⟨1024, 768, 32, 4096⟩ ∧
    ∀ p ∈ accesses ⟨1024, 768, 32, 4096⟩ Mouse.new, OnScreen ⟨1024, 768, 32, 4096⟩ p := by
  have hMode : VbeVga.readMode 1024 768 32 = some ⟨1024, 768, 32, 4096⟩ := rfl
  refine ⟨hMode, (accesses_onScreen_iff hMode Mouse.new).mpr
    ⟨by decide, by decide, by decide, fun saved hSaved => ?_⟩⟩
  cases hSaved

/-- With 24 bits per pixel the right edge of the screen is in the next row of bytes,
and on a screen of 8 × 8 pixels the block begins at column 2⁶⁴ - 4. -/
theorem accesses_offScreen :
    (VbeVga.readMode 1024 768 24 = some ⟨1024, 768, 24, 3072⟩ ∧
      ∃ p ∈ accesses ⟨1024, 768, 24, 3072⟩ { Mouse.new with cursorX := 1012 },
        p = (1023, 40) ∧ ¬ OnScreen ⟨1024, 768, 24, 3072⟩ p) ∧
    (VbeVga.readMode 8 8 32 = some ⟨8, 8, 32, 32⟩ ∧
      ∃ p ∈ accesses ⟨8, 8, 32, 32⟩ Mouse.new,
        p = (2 ^ 64 - 4, 2 ^ 64 - 8) ∧ ¬ OnScreen ⟨8, 8, 32, 32⟩ p) := by
  refine ⟨⟨rfl, (1023, 40), ?_, rfl, fun h => absurd h.inRow (by decide)⟩,
    rfl, (2 ^ 64 - 4, 2 ^ 64 - 8), ?_, rfl, fun h => absurd h.column (by decide)⟩
  · exact List.mem_append_left _ (List.mem_append_right _ (mem_pixelsAt_block 1012 40 0 11))
  · exact List.mem_append_left _ (List.mem_append_right _
      (mem_pixelsAt_block (2 ^ 64 - 4) (2 ^ 64 - 8) 0 0))

-- ---------------------------------------------------------------------------
-- Runs
-- ---------------------------------------------------------------------------

section Runs

variable {drv : VbeVga} {fb : Nat} {rest : List Nat} {info : FramebufferInfo}
  {xres yres bpp : UInt16}

/-- The saved block fits. -/
def SavedFits (info : FramebufferInfo) (m : Mouse) : Prop :=
  ∀ saved, m.savedBg = some saved → BlockFits info saved.px saved.py

theorem drawnAt_fits_of_deep (hMode : VbeVga.readMode xres yres bpp = some info)
    (hWide : W ≤ xres.toNat) (hHigh : H ≤ yres.toNat) (hDeep : 25 ≤ bpp.toNat) (x y : Int) :
    BlockFits info (drawnAt info x y).1 (drawnAt info x y).2 := by
  obtain rfl := readMode_eq_some hMode
  refine (blockFits_drawnAt_iff xres.toNat_lt yres.toNat_lt x y).mpr ⟨hWide, hHigh, ?_⟩
  -- four bytes per pixel at least
  have hPitch : xres.toNat * 4 ≤ xres.toNat * ((bpp.toNat + 7) / 8) :=
    Nat.mul_le_mul_left _ (by omega)
  dsimp only
  omega

/-- **One update** saves the block it draws over. -/
theorem update_savedFits (hAddrs : drv.addrs = fb :: rest) (hInfo : drv.fbInfo = some info)
    (hFits : ∀ x y, BlockFits info (drawnAt info x y).1 (drawnAt info x y).2)
    (s : Mouse × Memory) (u : Update) : SavedFits info (update (some drv) s u).1 := by
  intro saved hSaved
  have hAt : update (some drv) s u = redrawAt drv info fb (s.1.place u) s.2 := by
    simp only [update, redrawCursor, hAddrs, hInfo]
  rw [hAt] at hSaved
  cases hSaved
  exact hFits _ _

/-- **In a deep mode every redraw stays on the screen**, whatever the updates
before it. -/
theorem updates_onScreen (hAddrs : drv.addrs = fb :: rest) (hInfo : drv.fbInfo = some info)
    (hMode : VbeVga.readMode xres yres bpp = some info)
    (hWide : W ≤ xres.toNat) (hHigh : H ≤ yres.toNat) (hDeep : 25 ≤ bpp.toNat)
    (mem : Memory) (us : List Update) (u : Update) :
    ∀ p ∈ accesses info ((us.foldl (update (some drv)) (Mouse.new, mem)).1.place u),
      OnScreen info p := by
  have hFits := drawnAt_fits_of_deep hMode hWide hHigh hDeep
  have hSaved : SavedFits info (us.foldl (update (some drv)) (Mouse.new, mem)).1 := by
    refine List.foldlRecOn us (motive := fun s : Mouse × Memory => SavedFits info s.1)
      _ ?_ ?_
    · intro saved hNone
      cases hNone
    · intro s _ v _
      exact update_savedFits hAddrs hInfo hFits s v
  have hKept : ∀ m : Mouse, (m.place u).savedBg = m.savedBg := by
    intro m
    cases u <;> rfl
  refine accesses_onScreen_iff_blocks.mpr ⟨hFits _ _, fun saved hSome => hSaved saved ?_⟩
  rw [← hKept]
  exact hSome

end Runs

end Neutrix.Ps2Mouse
