import Mathlib.Algebra.Group.Nat.Defs
import Mathlib.Tactic.Common

/-!
# Address registers and their sizing masks

A register that holds the base address of a block of `2 ^ n` bytes has no
use for its lowest `n` bits. The lowest `k ≤ n` of them hold flags, the
others read as zero, and the bits from `n` on can be written. The size is
found by writing ones everywhere: what comes back above the flags is the
mask of the writable bits, and its two's complement is `2 ^ n`.
-/

namespace Neutrix.Lib

/-- The lowest `n` bits. -/
def lowBits (w n : Nat) : BitVec w := BitVec.ofNat w (2 ^ n - 1)

variable {w n k : Nat}

@[simp] theorem getElem_lowBits {i : Nat} (hi : i < w) : (lowBits w n)[i] = decide (i < n) := by
  rw [← BitVec.getLsbD_eq_getElem, lowBits, BitVec.getLsbD_ofNat, Nat.testBit_two_pow_sub_one]
  simp [hi]

/-- The two's complement of the mask is the size. -/
theorem lowBits_add_one (w n : Nat) : lowBits w n + 1 = BitVec.ofNat w (2 ^ n) := by
  have hPos := Nat.two_pow_pos n
  show BitVec.ofNat w (2 ^ n - 1) + BitVec.ofNat w 1 = _
  rw [← BitVec.ofNat_add, Nat.sub_add_cancel hPos]

theorem not_lowBits_and_lowBits (w n : Nat) : ~~~ lowBits w n &&& lowBits w n = 0 := by
  ext i hi
  simp

section

variable {base flags : BitVec w}

theorem getElem_of_aligned (h : base &&& lowBits w n = 0) {i : Nat} (hw : i < w) (hi : i < n) :
    base[i] = false := by
  have hBit : (base &&& lowBits w n)[i] = false := by simp [h]
  simpa [hi] using hBit

theorem getElem_of_small (h : flags &&& ~~~ lowBits w k = 0) {i : Nat} (hw : i < w) (hi : k ≤ i) :
    flags[i] = false := by
  have hBit : (flags &&& ~~~ lowBits w k)[i] = false := by simp [h]
  simpa [Nat.not_lt.mpr hi] using hBit

theorem and_lowBits_eq_zero {x : BitVec w} (hn : n ≤ w) (h : x.toNat % 2 ^ n = 0) :
    x &&& lowBits w n = 0 := by
  have hLt : 2 ^ n - 1 < 2 ^ w :=
    Nat.lt_of_lt_of_le (Nat.sub_one_lt (Nat.two_pow_pos n |> Nat.ne_of_gt)) (Nat.pow_le_pow_right (by decide) hn)
  apply BitVec.eq_of_toNat_eq
  rw [BitVec.toNat_and, lowBits, BitVec.toNat_ofNat, Nat.mod_eq_of_lt hLt,
    Nat.and_two_pow_sub_one_eq_mod, h]
  rfl

theorem and_not_lowBits_eq_zero {x : BitVec w} (h : x.toNat < 2 ^ k) :
    x &&& ~~~ lowBits w k = 0 := by
  ext i hi
  by_cases hLow : i < k
  · simp [hLow]
  · have hBit : x[i] = false := by
      rw [← BitVec.getLsbD_eq_getElem, BitVec.getLsbD]
      exact Nat.testBit_lt_two_pow
        (Nat.lt_of_lt_of_le h (Nat.pow_le_pow_right (by decide) (Nat.not_lt.mp hLow)))
    simp [hBit]

variable (hBase : base &&& lowBits w n = 0) (hFlags : flags &&& ~~~ lowBits w k = 0) (hk : k ≤ n)
include hBase hFlags hk

/-- The address is what remains without the flags. -/
theorem address_eq : (base ||| flags) &&& ~~~ lowBits w k = base := by
  ext i hi
  by_cases hLow : i < k
  · have := getElem_of_aligned hBase hi (Nat.lt_of_lt_of_le hLow hk)
    simp [hLow, this]
  · have := getElem_of_small hFlags hi (Nat.not_lt.mp hLow)
    simp [hLow, this]

/-- The flags are what remains without the address. -/
theorem flags_eq : (base ||| flags) &&& lowBits w k = flags := by
  ext i hi
  by_cases hLow : i < k
  · have := getElem_of_aligned hBase hi (Nat.lt_of_lt_of_le hLow hk)
    simp [hLow, this]
  · have := getElem_of_small hFlags hi (Nat.not_lt.mp hLow)
    simp [hLow, this]

omit hBase in
/-- What comes back above the flags when ones are written to the bits of `rw`,
if those below `n` are not writable and the address needs no others. -/
theorem probe_eq {rw : BitVec w} (hRw : rw &&& lowBits w n = 0) (hFixed : base &&& ~~~ rw = 0) :
    (((base ||| flags) &&& ~~~ rw) ||| rw) &&& ~~~ lowBits w k = rw := by
  ext i hi
  by_cases hLow : i < k
  · have := getElem_of_aligned hRw hi (Nat.lt_of_lt_of_le hLow hk)
    simp [hLow, this]
  · have hFlag := getElem_of_small hFlags hi (Nat.not_lt.mp hLow)
    have hBit : (base &&& ~~~ rw)[i] = false := by simp [hFixed]
    cases hR : rw[i]
    · rw [BitVec.getElem_and, BitVec.getElem_not, hR] at hBit
      simp_all
    · simp [hLow, hR]

end

end Neutrix.Lib
