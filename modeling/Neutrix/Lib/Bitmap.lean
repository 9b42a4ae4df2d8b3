import Mathlib.Data.Nat.Bitwise
import Mathlib.Data.UInt
import Mathlib.Logic.Function.Basic

/-!
# Packed bitmaps

A bitmap is a byte store in which bit `i` lives in byte `i / 8` at
position `i % 8`. Reading and writing one bit go through one byte, as in
C or Rust code that keeps flags in a `u8` array; `testBit_writeBit` says
that such a store nevertheless behaves as an array of independent bits.
-/

namespace Neutrix.Lib

/-- A byte store, indexed from the start of the bitmap. -/
abbrev Bitmap := Nat → UInt8

namespace Bitmap

/-- `1 << (idx % 8)` as a byte. -/
def bitMask (idx : Nat) : UInt8 := 1 <<< UInt8.ofNat (idx % 8)

/-- Read bit `idx` through its byte. -/
def testBit (m : Bitmap) (idx : Nat) : Bool := (m (idx / 8) &&& bitMask idx) != 0

/-- Set (`val = true`) or clear bit `idx` by a read-modify-write of its byte. -/
def writeBit (m : Bitmap) (idx : Nat) (val : Bool) : Bitmap :=
  Function.update m (idx / 8)
    (if val then m (idx / 8) ||| bitMask idx else m (idx / 8) &&& ~~~ bitMask idx)

/-- Overwrite the first `len` bytes with `b`. -/
def fill (m : Bitmap) (len : Nat) (b : UInt8) : Bitmap :=
  fun i => if i < len then b else m i

-- ---------------------------------------------------------------------------
-- Bits of a mask
-- ---------------------------------------------------------------------------

theorem bitMask_toNat (idx : Nat) : (bitMask idx).toNat = 2 ^ (idx % 8) := by
  have h : ∀ k : Fin 8, ((1 : UInt8) <<< UInt8.ofNat k.val).toNat = 2 ^ k.val := by decide
  exact h ⟨idx % 8, Nat.mod_lt _ (by decide)⟩

theorem not_bitMask_testBit (idx : Nat) {k : Nat} (hk : k < 8) :
    (~~~ bitMask idx).toNat.testBit k = decide (k ≠ idx % 8) := by
  have h : ∀ i j : Fin 8, (~~~ ((1 : UInt8) <<< UInt8.ofNat i.val)).toNat.testBit j.val
      = decide (j.val ≠ i.val) := by decide
  exact h ⟨idx % 8, Nat.mod_lt _ (by decide)⟩ ⟨k, hk⟩

/-- Testing a byte against a one-bit mask reads that bit of the byte. -/
theorem testBit_eq (m : Bitmap) (idx : Nat) :
    testBit m idx = (m (idx / 8)).toNat.testBit (idx % 8) := by
  have h : (m (idx / 8) &&& bitMask idx = 0) ↔
      (m (idx / 8)).toNat.testBit (idx % 8) = false := by
    rw [← UInt8.toNat_inj, UInt8.toNat_and, bitMask_toNat, Nat.and_two_pow]
    cases (m (idx / 8)).toNat.testBit (idx % 8) <;> simp
  unfold testBit
  cases hb : (m (idx / 8)).toNat.testBit (idx % 8)
  · simp [h.mpr hb]
  · have : ¬ (m (idx / 8) &&& bitMask idx = 0) := by simp [h, hb]
    simpa using this

-- ---------------------------------------------------------------------------
-- Reads after writes
-- ---------------------------------------------------------------------------

/-- **Bits are independent.** Writing one bit changes that bit and no other,
although the write replaces the whole byte. -/
theorem testBit_writeBit (m : Bitmap) (i j : Nat) (val : Bool) :
    testBit (writeBit m i val) j = if j = i then val else testBit m j := by
  rw [testBit_eq, testBit_eq]
  by_cases hbyte : j / 8 = i / 8
  · -- same byte: compare the positions inside it
    have hpos : j % 8 = i % 8 ↔ j = i := by omega
    have hj : j % 8 < 8 := Nat.mod_lt _ (by decide)
    rw [writeBit, hbyte, Function.update_self]
    cases val
    · simp only [Bool.false_eq_true, if_false, UInt8.toNat_and, Nat.testBit_and,
        not_bitMask_testBit i hj]
      by_cases h : j = i <;> simp [h, hpos]
    · simp only [if_true, UInt8.toNat_or, Nat.testBit_or, bitMask_toNat, Nat.testBit_two_pow]
      by_cases h : j = i
      · simp [h]
      · have : ¬ i % 8 = j % 8 := fun e => h (hpos.mp e.symm)
        simp [h, this]
  · have hne : j ≠ i := fun h => hbyte (by rw [h])
    rw [writeBit, Function.update_of_ne hbyte, if_neg hne]

/-- After filling with `0xFF` every bit of the filled bytes is set. -/
theorem testBit_fill_ff (m : Bitmap) {len idx : Nat} (h : idx / 8 < len) :
    testBit (fill m len 0xFF) idx = true := by
  have hbits : ∀ k : Fin 8, (0xFF : UInt8).toNat.testBit k.val = true := by decide
  rw [testBit_eq, fill, if_pos h]
  exact hbits ⟨idx % 8, Nat.mod_lt _ (by decide)⟩

end Bitmap

end Neutrix.Lib
