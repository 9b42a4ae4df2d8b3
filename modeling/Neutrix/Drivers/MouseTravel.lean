import Neutrix.Drivers.MousePackets

/-!
# Neutrix — where the arrow is drawn

The driver keeps the position it adds the deltas to, and `redraw_cursor`
clamps a copy of it to the screen. As long as the kept position is inside
the clamped range the two agree. A push against an edge takes the kept
position beyond it, and the way back has to be made up before the arrow
moves again. On one axis, `confine_add_iff` says when adding to the kept
position and adding to the drawn one lead to the same place; saturation does
not matter, as the range is far from the ends of `i32`.

* `arrow_follows_iff` — after every packet the arrow is drawn one clamped
  delta from where it was, within the screen, exactly when no packet finds
  the kept position beyond an edge and moves it back towards the screen.
-/

namespace Neutrix.Ps2Mouse

open Neutrix.Lib

-- ---------------------------------------------------------------------------
-- One axis
-- ---------------------------------------------------------------------------

/-- The position in `0 .. room` closest to `v`. -/
def confine (room v : Int) : Int := max 0 (min room v)

/-- The kept position `x` is in the range, or beyond an end of it and the delta `d` leads
further away from it or right through to the other end, or the range is a point. -/
def AxisFollows (room x d : Int) : Prop :=
  (room < x → 0 ≤ d ∨ x + d ≤ 0 ∨ room = 0) ∧ (x < 0 → d ≤ 0 ∨ room ≤ x + d ∨ room = 0)

theorem confine_add_iff {room : Int} (hRoom : 0 ≤ room) (x d : Int) :
    confine room (x + d) = confine room (confine room x + d) ↔ AxisFollows room x d := by
  unfold confine AxisFollows
  by_cases hHigh : room < x
  · rw [min_eq_left (Int.le_of_lt hHigh), max_eq_right hRoom]
    omega
  · rw [min_eq_right (Int.not_lt.mp hHigh)]
    by_cases hLow : x < 0
    · rw [max_eq_left (Int.le_of_lt hLow)]
      omega
    · rw [max_eq_right (Int.not_lt.mp hLow)]
      exact iff_of_true rfl ⟨fun h => absurd h hHigh, fun h => absurd h hLow⟩

theorem confine_saturatingAdd {room : Int} (hRoom : 0 ≤ room ∧ room < 2 ^ 16) (x d : Int) :
    confine room (saturatingAdd x d) = confine room (x + d) := by
  unfold confine saturatingAdd
  omega

theorem asUsize_clampTo {room : Int} (hRoom : 0 ≤ room ∧ room < 2 ^ 16) (v : Int) :
    asUsize (clampTo room v) = (confine room v).toNat := by
  unfold asUsize clampTo confine
  dsimp only
  split_ifs <;> omega

-- ---------------------------------------------------------------------------
-- The screen
-- ---------------------------------------------------------------------------

/-- An active framebuffer in a mode of any depth that has room for the arrow. -/
structure Screen where
  drv   : VbeVga
  fb    : Nat
  rest  : List Nat
  xres  : UInt16
  yres  : UInt16
  bpp   : UInt16
  addrs : drv.addrs = fb :: rest
  mode  : drv.fbInfo = VbeVga.readMode xres yres bpp
  wide  : W ≤ xres.toNat
  high  : H ≤ yres.toNat

namespace Screen

variable (S : Screen)

def info : FramebufferInfo where
  width  := S.xres.toNat
  height := S.yres.toNat
  bpp    := S.bpp.toNat
  pitch  := S.xres.toNat * ((S.bpp.toNat + 7) / 8)

theorem fbInfo_eq : S.drv.fbInfo = some S.info := by
  have hX : S.xres ≠ 0 := fun h => absurd S.wide (by rw [h]; decide)
  have hY : S.yres ≠ 0 := fun h => absurd S.high (by rw [h]; decide)
  rw [S.mode, VbeVga.readMode, if_pos ⟨hX, hY⟩]
  rfl

/-- The columns and rows the arrow can be drawn at. -/
def roomX : Int := S.info.width - W
def roomY : Int := S.info.height - H

theorem roomX_bounds : 0 ≤ S.roomX ∧ S.roomX < 2 ^ 16 := by
  have := S.xres.toNat_lt
  have := S.wide
  simp only [roomX, info]
  omega

theorem roomY_bounds : 0 ≤ S.roomY ∧ S.roomY < 2 ^ 16 := by
  have := S.yres.toNat_lt
  have := S.high
  simp only [roomY, info]
  omega

theorem drawnAt_eq (x y : Int) :
    drawnAt S.info x y = ((confine S.roomX x).toNat, (confine S.roomY y).toNat) :=
  Prod.ext (asUsize_clampTo S.roomX_bounds x) (asUsize_clampTo S.roomY_bounds y)

/-- Where the arrow goes from `p`: the delta of the packet, at most 16, with Y upwards. -/
def moved (p : Nat × Nat) (pkt : MousePacket) : Nat × Nat :=
  ((confine S.roomX (p.1 + max (-16) (min 16 pkt.dx.toInt))).toNat,
    (confine S.roomY (p.2 - max (-16) (min 16 pkt.dy.toInt))).toNat)

/-- Both axes of the kept position follow the packet. -/
def Follows (m : Mouse) (pkt : MousePacket) : Prop :=
  AxisFollows S.roomX m.cursorX (max (-16) (min 16 pkt.dx.toInt)) ∧
    AxisFollows S.roomY m.cursorY (-max (-16) (min 16 pkt.dy.toInt))

/-- The position the arrow was last drawn at: that of the background saved under it. -/
def drawn (s : Mouse × Memory) : Option (Nat × Nat) :=
  s.1.savedBg.map fun saved => (saved.px, saved.py)

/-- A redraw draws at the clamped position and leaves the kept one alone. -/
theorem drawn_update (s : Mouse × Memory) (u : Update) :
    drawn (update (some S.drv) s u) =
        some (drawnAt S.info (update (some S.drv) s u).1.cursorX
          (update (some S.drv) s u).1.cursorY) ∧
      (update (some S.drv) s u).1.cursorX = (s.1.place u).cursorX ∧
      (update (some S.drv) s u).1.cursorY = (s.1.place u).cursorY := by
  have hRedraw : update (some S.drv) s u = redrawAt S.drv S.info S.fb (s.1.place u) s.2 := by
    simp only [update, redrawCursor, S.addrs, S.fbInfo_eq]
  rw [hRedraw]
  exact ⟨rfl, rfl, rfl⟩

/-- **Step.** -/
theorem drawn_packet_iff (s : Mouse × Memory) (pkt : MousePacket) :
    drawn (update (some S.drv) s (.packet pkt)) =
        some (S.moved (drawnAt S.info s.1.cursorX s.1.cursorY) pkt) ↔
      S.Follows s.1 pkt := by
  have hConfined : ∀ room v : Int, 0 ≤ confine room v := fun room v => le_max_left 0 _
  have hToNat : ∀ {room v w : Int},
      (confine room v).toNat = (confine room w).toNat ↔ confine room v = confine room w := by
    intro room v w
    have := hConfined room v
    have := hConfined room w
    omega
  obtain ⟨hDrawn, hX, hY⟩ := S.drawn_update s (.packet pkt)
  have hPlaceX : (s.1.place (.packet pkt)).cursorX =
      saturatingAdd s.1.cursorX (max (-16) (min 16 pkt.dx.toInt)) := by
    simp only [Mouse.place, Mouse.applyPacket, clampDelta_eq]
  have hPlaceY : (s.1.place (.packet pkt)).cursorY =
      saturatingAdd s.1.cursorY (-max (-16) (min 16 pkt.dy.toInt)) := by
    simp only [Mouse.place, Mouse.applyPacket, clampDelta_eq, mouseInvertY, Bool.false_eq_true,
      if_false]
  rw [hDrawn, hX, hY, hPlaceX, hPlaceY, S.drawnAt_eq, S.drawnAt_eq,
    confine_saturatingAdd S.roomX_bounds, confine_saturatingAdd S.roomY_bounds, Follows,
    ← confine_add_iff S.roomX_bounds.1, ← confine_add_iff S.roomY_bounds.1]
  simp only [moved, Option.some.injEq, Prod.mk.injEq, Int.toNat_of_nonneg (hConfined _ _), hToNat,
    Int.sub_eq_add_neg]

-- ---------------------------------------------------------------------------
-- Packets
-- ---------------------------------------------------------------------------

/-- The driver and memory after `set_cursor_pos` and some packets. -/
def after (s : Mouse × Memory) (x y : Int32) (pkts : List MousePacket) : Mouse × Memory :=
  (pkts.map Update.packet).foldl (update (some S.drv))
    (update (some S.drv) s (.setCursorPos x y))

theorem after_concat (s : Mouse × Memory) (x y : Int32) (before : List MousePacket)
    (pkt : MousePacket) :
    S.after s x y (before ++ [pkt]) = update (some S.drv) (S.after s x y before) (.packet pkt) := by
  simp only [after, List.map_append, List.map_cons, List.map_nil, List.foldl_append,
    List.foldl_cons, List.foldl_nil]

theorem drawn_after (s : Mouse × Memory) (x y : Int32) (pkts : List MousePacket) :
    drawn (S.after s x y pkts) =
      some (drawnAt S.info (S.after s x y pkts).1.cursorX (S.after s x y pkts).1.cursorY) := by
  induction pkts using List.reverseRecOn with
  | nil => exact (S.drawn_update s (.setCursorPos x y)).1
  | append_singleton before pkt _ =>
    rw [S.after_concat]
    exact (S.drawn_update _ (.packet pkt)).1

/-- **After every packet the arrow is drawn where the packet moves it from where it was
drawn before, iff no packet finds the kept position beyond an edge and leads back
from there.** Any framebuffer with room for the arrow, any position set at the start,
any packets. -/
theorem arrow_follows_iff (s : Mouse × Memory) (x y : Int32) (pkts : List MousePacket) :
    (∀ before pkt, before ++ [pkt] <+: pkts →
      ∃ p, drawn (S.after s x y before) = some p ∧
        drawn (S.after s x y (before ++ [pkt])) = some (S.moved p pkt)) ↔
    (∀ before pkt, before ++ [pkt] <+: pkts → S.Follows (S.after s x y before).1 pkt) := by
  refine forall₃_congr fun before pkt _ => ?_
  rw [S.after_concat, S.drawn_after s x y before, ← S.drawn_packet_iff]
  constructor
  · rintro ⟨p, hp, hNext⟩
    cases hp
    exact hNext
  · exact fun hNext => ⟨_, rfl, hNext⟩

end Screen

/-- A screen of 64 by 48 pixels. -/
def smallScreen : Screen where
  drv   := { addrs := [0], fbInfo := VbeVga.readMode 64 48 32 }
  fb    := 0
  rest  := []
  xres  := 64
  yres  := 48
  bpp   := 32
  addrs := rfl
  mode  := rfl
  wide  := by decide
  high  := by decide

/-- After one push against the right edge the first packet to the left does not move the
arrow. -/
theorem push_holds_arrow :
    let start : Mouse × Memory := (Mouse.new, fun _ => 0)
    let right : MousePacket := ⟨8, 16, 0⟩
    let left : MousePacket := ⟨8, -16, 0⟩
    Screen.drawn (smallScreen.after start 52 5 []) = some (52, 5) ∧
    Screen.drawn (smallScreen.after start 52 5 [right]) = some (52, 5) ∧
    Screen.drawn (smallScreen.after start 52 5 [right, left]) = some (52, 5) ∧
    smallScreen.moved (52, 5) left = (36, 5) := by
  decide +kernel

end Neutrix.Ps2Mouse
