import Mathlib.Tactic.Ring
import Neutrix.Drivers.Console
import Neutrix.Lib.Painting

/-!
# Neutrix — text on the framebuffer

A framebuffer at 32 bits per pixel is seen as a function of its points, and
the drawing primitives as painters on it (`Lib.Painting`): a rectangle is
painted all over (`rect_paints`), a character only where its glyph has a
set bit (`char_paints`). The scroll moves the text up by the height of a
row and clears the last row (`pixel_scroll`).
-/

namespace Neutrix

open Neutrix.Lib

/-- An active framebuffer at 32 bits per pixel that has room for a character. -/
structure TextScreen where
  drv   : VbeVga
  fb    : Nat
  rest  : List Nat
  xres  : UInt16
  yres  : UInt16
  addrs : drv.addrs = fb :: rest
  mode  : drv.fbInfo = VbeVga.readMode xres yres 32
  wide  : 9 ≤ xres.toNat
  high  : 8 ≤ yres.toNat

/-- The glyph of `ch` has the pixel in column `i` of row `j`. -/
def glyphBit (ch : UInt8) (i j : Nat) : Bool :=
  match VbeVga.getGlyph ch with
  | some (some glyph) => i < 8 && glyph.getD j 0 &&& (1 <<< UInt8.ofNat (7 - i)) ≠ 0
  | _ => false

namespace TextScreen

variable (S : TextScreen)

def width : Nat := S.xres.toNat
def height : Nat := S.yres.toNat

theorem fbInfo_eq : S.drv.fbInfo = some ⟨S.width, S.height, 32, S.width * 4⟩ := by
  rw [S.mode, VbeVga.readMode_32bpp]
  · rfl
  · exact Nat.lt_of_lt_of_le (by decide) S.wide
  · exact Nat.lt_of_lt_of_le (by decide) S.high

theorem framebufferAddrs_eq {vbe : Option VbeVga} (h : vbe = some S.drv) :
    VbeVga.getFramebufferAddrs vbe = S.fb :: S.rest := by
  rw [h]
  exact S.addrs

theorem pitch_eq : S.drv.pitch = S.width * 4 := by
  simp only [VbeVga.pitch, S.fbInfo_eq]

/-- The pixel in column `x` of row `y`. -/
def pixel (mem : Memory) (x y : Nat) : UInt32 :=
  mem.read32 (VbeVga.pixelAddr (S.width * 4) S.fb x y)

/-- Column and row of a pixel. -/
abbrev Point : Type := { p : Nat × Nat // p.1 < S.width }

def view (mem : Memory) (p : S.Point) : UInt32 := S.pixel mem p.1.1 p.1.2

variable {S}

-- ---------------------------------------------------------------------------
-- Points and words
-- ---------------------------------------------------------------------------

/-- Points are numbered row by row. -/
def Point.index (p : S.Point) : Nat := p.1.1 + S.width * p.1.2

theorem view_eq (mem : Memory) (p : S.Point) : S.view mem p = mem.read32 (S.fb + 4 * p.index) := by
  rw [view, pixel, VbeVga.pixelAddr_eq, Point.index]

/-- The rows are the blocks of `width` points. -/
theorem Point.index_lt (p : S.Point) (n : Nat) : p.index < S.width * n ↔ p.1.2 < n := by
  have hx := p.2
  rw [Point.index]
  constructor
  · intro h
    by_contra hNot
    have := Nat.mul_le_mul_left S.width (Nat.le_of_not_lt hNot)
    omega
  · intro h
    have := Nat.mul_le_mul_left S.width (Nat.succ_le_of_lt h)
    rw [Nat.mul_succ] at this
    omega

theorem Point.index_inj {p q : S.Point} : p.index = q.index ↔ p = q := by
  rw [Point.index, Point.index, VbeVga.pixelIndex_inj p.2 q.2, ← Prod.ext_iff, Subtype.ext_iff]

theorem write_paints (n : Nat) (v : UInt32) :
    Paints S.view (fun p => p.index = n) v fun mem => mem.write32 (S.fb + 4 * n) v := by
  intro mem p
  constructor
  · intro hp
    rw [view_eq, hp, Memory.read32_write32_self]
  · intro hp
    rw [view_eq, view_eq, Memory.read32_write32_of_disjoint mem v (by omega)]

-- ---------------------------------------------------------------------------
-- Drawing
-- ---------------------------------------------------------------------------

theorem pixel_paints {x : Nat} (hx : x < S.width) (y : Nat) (color : UInt32) :
    Paints S.view (fun p => p.1 = (x, y)) color
      fun mem => mem.write32 (VbeVga.pixelAddr S.drv.pitch S.fb x y) color := by
  rw [pitch_eq, VbeVga.pixelAddr_eq]
  refine (write_paints (x + S.width * y) color).congr fun p => ?_
  have hIndex : x + S.width * y = Point.index ⟨(x, y), hx⟩ := rfl
  rw [hIndex, Point.index_inj, Subtype.ext_iff]

/-- **Rectangles** are painted all over. -/
theorem rect_paints {x w : Nat} (hx : x + w ≤ S.width) (y h : Nat) (color : UInt32) :
    Paints S.view (fun p => (x ≤ p.1.1 ∧ p.1.1 < x + w) ∧ (y ≤ p.1.2 ∧ p.1.2 < y + h)) color
      fun mem => S.drv.drawRectAt mem S.fb x y w h color := by
  have hCol : ∀ xx ∈ List.range' x w, xx < S.width := by
    intro xx hxx
    have := List.mem_range'_1.mp hxx
    omega
  have hRows := Paints.foldl fun yy (_ : yy ∈ List.range' y h) =>
    Paints.foldl fun xx hxx => pixel_paints (hCol xx hxx) yy color
  refine hRows.congr fun p => ?_
  simp only [List.mem_range'_1]
  constructor
  · rintro ⟨yy, hyy, xx, hxx, hp⟩
    rw [hp]
    exact ⟨hxx, hyy⟩
  · rintro ⟨hX, hY⟩
    exact ⟨p.1.2, hY, p.1.1, hX, rfl⟩

theorem row_paints {x : Nat} (hx : x + 8 ≤ S.width) (y : Nat) (bits : UInt8) (bit : Nat → UInt8)
    (color : UInt32) :
    Paints S.view (fun p => ∃ i < 8, bits &&& bit i ≠ 0 ∧ p.1 = (x + i, y)) color
      fun mem => S.drv.drawRow mem S.fb x y bits bit color := by
  have hCols : ∀ i ∈ List.range 8, Paints S.view (fun p => bits &&& bit i ≠ 0 ∧ p.1 = (x + i, y)) color
      fun mem => if bits &&& bit i ≠ 0 then
        mem.write32 (VbeVga.pixelAddr S.drv.pitch S.fb (x + i) y) color else mem := by
    intro i hi
    rw [List.mem_range] at hi
    by_cases hBit : bits &&& bit i ≠ 0
    · simp only [hBit, ne_eq, not_false_eq_true, if_true, true_and]
      exact pixel_paints (by omega) y color
    · simp only [hBit, if_false]
      exact Paints.nothing (by simp)
  refine (Paints.foldl hCols).congr fun p => ?_
  simp only [List.mem_range]

/-- **Characters** are painted where their glyph has a set bit, and nowhere else. -/
theorem char_paints {x : Nat} (hx : x + 8 ≤ S.width) (y : Nat) {ch : UInt8} {glyph : List UInt8}
    (hGlyph : VbeVga.getGlyph ch = some (some glyph)) (color : UInt32) :
    ∃ draw : Memory → Memory, (∀ mem, S.drv.drawCharAt mem S.fb x y ch color = some (draw mem)) ∧
      Paints S.view (fun p => ∃ i < 8, ∃ j < 8, glyphBit ch i j ∧ p.1 = (x + i, y + j)) color draw := by
  have hRows := Paints.foldl fun j (_ : j ∈ List.range 8) =>
    row_paints hx (y + j) (glyph.getD j 0) (fun c => 1 <<< UInt8.ofNat (7 - c)) color
  refine ⟨_, fun mem => by rw [VbeVga.drawCharAt, hGlyph], hRows.congr fun p => ?_⟩
  simp only [List.mem_range, glyphBit, hGlyph]
  constructor
  · rintro ⟨j, hj, i, hi, hBit, hp⟩
    exact ⟨i, hi, j, hj, by simpa [hi] using hBit, hp⟩
  · rintro ⟨i, hi, j, hj, hBit, hp⟩
    exact ⟨j, hj, i, hi, by simpa [hi] using hBit, hp⟩

-- ---------------------------------------------------------------------------
-- Scrolling
-- ---------------------------------------------------------------------------

/-- The clearing loop, over whole words. -/
theorem clearBytes_paints (bg : UInt32) (k n : Nat) :
    Paints S.view (fun p => k ≤ p.index ∧ p.index < k + n) bg
      fun mem => Console.clearBytes bg mem (S.fb + 4 * k) (4 * n) := by
  induction n generalizing k with
  | zero => exact Paints.nothing (by omega)
  | succ n ih =>
    intro mem p
    have hStep : Console.clearBytes bg mem (S.fb + 4 * k) (4 * (n + 1)) =
        Console.clearBytes bg (mem.write32 (S.fb + 4 * k) bg) (S.fb + 4 * (k + 1)) (4 * n) := rfl
    have hFirst := write_paints (S := S) k bg mem p
    have hRest := ih (k + 1) (mem.write32 (S.fb + 4 * k) bg) p
    dsimp only at hFirst hRest ⊢
    rw [hStep]
    constructor
    · rintro ⟨hLow, hHigh⟩
      by_cases hp : p.index = k
      · exact (hRest.2 (by omega)).trans (hFirst.1 hp)
      · exact hRest.1 (by omega)
    · intro hp
      exact (hRest.2 (by omega)).trans (hFirst.2 (by omega))

/-- **The scroll** by one row of text. -/
theorem pixel_scroll {c : Console} (hFb : c.fbVirt = S.fb) (hH : c.charH = 8) (hRows : 1 < c.rows)
    (mem : Memory) (p : S.Point) :
    S.view (Console.scrollMut (some S.drv) c mem 1).2 p =
      if p.1.2 < (c.rows - 1) * 8 then S.pixel mem p.1.1 (p.1.2 + 8)
      else if p.1.2 < c.rows * 8 then c.bg
      else S.view mem p := by
  have hMove : (c.rows - 1) * c.charH * (S.width * 4) = 4 * (S.width * ((c.rows - 1) * 8)) := by
    rw [hH]
    ring
  have hLine : 1 * c.charH * (S.width * 4) = 4 * (S.width * 8) := by
    rw [hH]
    ring
  have hScroll : (Console.scrollMut (some S.drv) c mem 1).2 =
      Console.clearBytes c.bg (mem.copy (S.fb + 4 * (S.width * 8)) S.fb
        (4 * (S.width * ((c.rows - 1) * 8)))) (S.fb + 4 * (S.width * ((c.rows - 1) * 8)))
        (4 * (S.width * 8)) := by
    rw [Console.scrollMut, if_neg Nat.one_ne_zero, if_neg (Nat.not_le.mpr hRows)]
    simp only [VbeVga.getFbInfo, S.fbInfo_eq, hFb, hMove, hLine]
  have hClear := clearBytes_paints (S := S) c.bg (S.width * ((c.rows - 1) * 8)) (S.width * 8)
    (mem.copy (S.fb + 4 * (S.width * 8)) S.fb (4 * (S.width * ((c.rows - 1) * 8)))) p
  have hTop := Point.index_lt p ((c.rows - 1) * 8)
  have hAll := Point.index_lt p (c.rows * 8)
  have hEnd : S.width * (c.rows * 8) = S.width * ((c.rows - 1) * 8) + S.width * 8 := by
    rw [← Nat.mul_add]
    congr 1
    omega
  rw [hScroll]
  split_ifs with hMoved hLast
  · -- the row comes from below
    have hIn := hTop.mpr hMoved
    rw [hClear.2 (by omega), view_eq, Memory.read32_copy_inside mem (by omega), pixel,
      VbeVga.pixelAddr_eq]
    congr 1
    rw [Point.index]
    ring_nf
    omega
  · exact hClear.1 ⟨by omega, by omega⟩
  · have hBelow : ¬ p.index < S.width * (c.rows * 8) := fun h => hLast (hAll.mp h)
    rw [hClear.2 (by omega), view_eq, Memory.read32_copy_outside mem (by omega), view_eq]

end TextScreen

end Neutrix
