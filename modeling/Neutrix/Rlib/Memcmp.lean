import Mathlib.Algebra.Order.BigOperators.Group.List
import Mathlib.Algebra.Order.Ring.Int
import Neutrix.Rlib.Mem

/-!
# Neutrix — what `memcmp` compares

The chunk loops of `memcmp` compare the mask of equal bytes with `-1`, but
the mask has 16 bits and is never negative. So a chunk always counts as
different, and its first round decides the call on 16 bytes (`memcmp_eq`).

* `memcmp_decides_iff` — the result has the sign of the lexicographic order
  exactly when the regions have at most 16 bytes, differ in the first 16, or
  do not differ at all.
-/

namespace Neutrix.Rlib

open Neutrix.Lib

-- ---------------------------------------------------------------------------
-- The order on regions
-- ---------------------------------------------------------------------------

/-- The bytes of a region. -/
def region (mem : Memory) (p len : Nat) : List UInt8 := (List.range len).map fun i => mem (p + i)

/-- The sign of `r` is that of the lexicographic order of unsigned bytes. -/
structure Decides (r : Int) (as bs : List UInt8) : Prop where
  equal   : r = 0 ↔ as = bs
  smaller : r < 0 ↔ as < bs
  larger  : 0 < r ↔ bs < as

variable {mem : Memory} {a b len : Nat}

theorem region_succ (mem : Memory) (p len : Nat) :
    region mem p (len + 1) = mem p :: region mem (p + 1) len := by
  unfold region
  rw [List.range_succ_eq_map, List.map_cons, List.map_map, Nat.add_zero]
  congr 1
  refine List.map_congr_left fun i _ => ?_
  rw [Function.comp_apply, Nat.succ_eq_add_one]
  congr 1
  omega

theorem region_add (mem : Memory) (p m n : Nat) :
    region mem p (m + n) = region mem p m ++ region mem (p + m) n := by
  induction m generalizing p with
  | zero => simp [region]
  | succ m ih =>
    have hSum : m + 1 + n = m + n + 1 := by omega
    have hShift : p + 1 + m = p + (m + 1) := by omega
    rw [hSum, region_succ, region_succ, ih, List.cons_append, hShift]

theorem length_region (mem : Memory) (p len : Nat) : (region mem p len).length = len := by
  simp [region]

/-- The first difference decides. -/
theorem append_lt_append_iff {as bs : List UInt8} (hLen : as.length = bs.length) (hNe : as ≠ bs)
    (xs ys : List UInt8) : as ++ xs < bs ++ ys ↔ as < bs := by
  induction as generalizing bs with
  | nil =>
    cases bs with
    | nil => exact absurd rfl hNe
    | cons y bs => simp at hLen
  | cons x as ih =>
    cases bs with
    | nil => simp at hLen
    | cons y bs =>
      rw [List.cons_append, List.cons_append, List.cons_lt_cons_iff, List.cons_lt_cons_iff]
      by_cases hHead : x = y
      · have hTail : as ≠ bs := fun h => hNe (by rw [hHead, h])
        rw [ih (Nat.succ.inj hLen) hTail]
      · simp [hHead]

theorem Decides.append {r : Int} {as bs : List UInt8} (h : Decides r as bs)
    (hLen : as.length = bs.length) (hNe : as ≠ bs) (xs ys : List UInt8) :
    Decides r (as ++ xs) (bs ++ ys) where
  equal := by
    rw [h.equal, iff_false_intro hNe, false_iff]
    exact fun hEq => hNe (List.append_inj hEq hLen).1
  smaller := by rw [h.smaller, append_lt_append_iff hLen hNe]
  larger := by rw [h.larger, append_lt_append_iff hLen.symm hNe.symm]

-- ---------------------------------------------------------------------------
-- Byte by byte
-- ---------------------------------------------------------------------------

theorem cmpTail_decides (mem : Memory) (a b len : Nat) :
    Decides (cmpTail mem a b len) (region mem a len) (region mem b len) := by
  induction len generalizing a b with
  | zero => exact ⟨by simp [cmpTail, region], by simp [cmpTail, region], by simp [cmpTail, region]⟩
  | succ len ih =>
    rw [cmpTail, region_succ, region_succ]
    by_cases hEq : mem a = mem b
    · have hRest := ih (a + 1) (b + 1)
      rw [if_neg (not_not.mpr hEq), hEq]
      exact ⟨by simp [hRest.equal], by simp [hRest.smaller], by simp [hRest.larger]⟩
    · have hNat : (mem a).toNat ≠ (mem b).toNat := fun h => hEq (UInt8.toNat_inj.mp h)
      rw [if_pos hEq, byteDiff]
      refine ⟨?_, ?_, ?_⟩
      · simp only [List.cons.injEq, hEq, false_and, iff_false]
        omega
      · rw [List.cons_lt_cons_iff, UInt8.lt_iff_toNat_lt]
        simp only [hEq, false_and, or_false]
        omega
      · rw [List.cons_lt_cons_iff, UInt8.lt_iff_toNat_lt]
        simp only [Ne.symm hEq, false_and, or_false]
        omega

theorem slowByteCmp_eq_cmpTail (mem : Memory) (a b len : Nat) :
    slowByteCmp mem a b len = cmpTail mem a b len := by
  induction len generalizing a b with
  | zero => rfl
  | succ len ih =>
    rw [slowByteCmp, List.range_succ_eq_map, List.find?_cons, cmpTail]
    by_cases hEq : mem a = mem b
    · -- the search goes on one byte further
      have hShift : ∀ p i, mem (p + (i + 1)) = mem (p + 1 + i) := by
        intro p i
        congr 1
        omega
      simp only [Nat.add_zero, hEq, ne_eq, not_true_eq_false, decide_false, List.find?_map, if_false]
      rw [← ih, slowByteCmp]
      simp only [Function.comp_def, Nat.succ_eq_add_one, hShift, ne_eq]
      cases List.find? (fun i => decide ¬ mem (a + 1 + i) = mem (b + 1 + i)) (List.range len) with
      | none => rfl
      | some i =>
        show byteDiff (mem (a + (i + 1))) (mem (b + (i + 1))) = _
        rw [hShift, hShift]
    · simp [hEq]

-- ---------------------------------------------------------------------------
-- The chunk loops
-- ---------------------------------------------------------------------------

theorem movemaskEpi8_nonneg (v : M128i) : 0 ≤ movemaskEpi8 v := by
  refine List.sum_nonneg fun x hx => ?_
  obtain ⟨i, -, rfl⟩ := List.mem_map.mp hx
  split
  · exact pow_nonneg (by decide) _
  · exact Int.le_refl 0

/-- A mask is never `-1`, so every chunk takes the slow path. -/
theorem equalMask_ne (mem : Memory) (a b : Nat) : equalMask mem a b ≠ -1 := by
  have hNonneg := movemaskEpi8_nonneg (cmpeqEpi8 (loaduSi128 mem a) (loaduSi128 mem b))
  unfold equalMask
  omega

theorem cmpLoop16_eq {fuel : Nat} (hFuel : len / 16 ≤ fuel) :
    cmpLoop16 mem fuel a b len = cmpTail mem a b (min len 16) := by
  cases fuel with
  | zero => rw [cmpLoop16, Nat.min_eq_left (by omega)]
  | succ fuel =>
    rw [cmpLoop16]
    by_cases hLen : len ≥ 16
    · rw [if_pos hLen, if_pos (equalMask_ne mem a b), slowByteCmp_eq_cmpTail, Nat.min_eq_right hLen]
    · rw [if_neg hLen, Nat.min_eq_left (by omega)]

theorem memcmp_eq (mem : Memory) (a b len : Nat) :
    memcmp mem a b len = cmpTail mem a b (min len 16) := by
  unfold memcmp
  by_cases hZero : len = 0
  · rw [if_pos hZero, hZero]
    rfl
  rw [if_neg hZero]
  by_cases hLen : len ≥ 64
  · obtain ⟨fuel, hFuel⟩ : ∃ fuel, len / 64 = fuel + 1 := ⟨len / 64 - 1, by omega⟩
    rw [hFuel, cmpLoop64, if_pos hLen, if_pos (equalMask_ne mem a b), slowByteCmp_eq_cmpTail,
      Nat.min_eq_right (by omega)]
  · have hFuel : len / 64 = 0 := by omega
    rw [hFuel, cmpLoop64, cmpLoop16_eq (Nat.le_refl _)]

/-- **`memcmp` decides the order** exactly when the first 16 bytes do. -/
theorem memcmp_decides_iff (mem : Memory) (a b len : Nat) :
    Decides (memcmp mem a b len) (region mem a len) (region mem b len) ↔
      len ≤ 16 ∨ region mem a 16 ≠ region mem b 16 ∨ region mem a len = region mem b len := by
  rw [memcmp_eq]
  by_cases hLen : len ≤ 16
  · rw [Nat.min_eq_left hLen]
    exact iff_of_true (cmpTail_decides mem a b len) (.inl hLen)
  have hSplit : len = 16 + (len - 16) := by omega
  have hFirst := cmpTail_decides mem a b 16
  rw [Nat.min_eq_right (by omega)]
  by_cases hChunk : region mem a 16 = region mem b 16
  · -- the call returns 0
    rw [hFirst.equal.mpr hChunk]
    constructor
    · exact fun h => .inr (.inr (h.equal.mp rfl))
    · rintro (h | h | h)
      · exact absurd h hLen
      · exact absurd hChunk h
      · rw [h]
        exact ⟨by simp, by simp, by simp⟩
  · refine iff_of_true ?_ (.inr (.inl hChunk))
    rw [hSplit, region_add, region_add]
    exact hFirst.append (by rw [length_region, length_region]) hChunk _ _

/-- 17 bytes that differ in the last one. -/
def lateDifference : Memory := fun p => if p = 116 then 1 else 0

/-- The regions at 100 and 200 compare equal although the first is larger. -/
theorem memcmp_misses_late_difference :
    memcmp lateDifference 100 200 17 = 0 ∧
      region lateDifference 100 17 ≠ region lateDifference 200 17 ∧
      region lateDifference 200 17 < region lateDifference 100 17 := by
  decide

end Neutrix.Rlib
