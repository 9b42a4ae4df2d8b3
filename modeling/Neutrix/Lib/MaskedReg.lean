import Mathlib.Tactic.Common

/-!
# Registers with hard-wired bits

A register whose writable bits are given by a mask: a write changes exactly
these, the others stay as they are. Probing such a register (write a
pattern, read back, write the old value) leaves it unchanged, whatever the
mask is.
-/

namespace Neutrix.Lib

structure MaskedReg where
  val : UInt32
  rw_ : UInt32
deriving DecidableEq, Repr

namespace MaskedReg

def write (r : MaskedReg) (v : UInt32) : MaskedReg :=
  { r with val := (r.val &&& ~~~ r.rw_) ||| (v &&& r.rw_) }

/-- What is read after writing ones everywhere. -/
def probe (r : MaskedReg) : UInt32 := (r.write 0xFFFFFFFF).val

theorem probe_eq (r : MaskedReg) : r.probe = (r.val &&& ~~~ r.rw_) ||| r.rw_ := by
  show (r.val &&& ~~~ r.rw_) ||| (0xFFFFFFFF &&& r.rw_) = _
  congr 1
  apply UInt32.toBitVec_inj.mp
  exact BitVec.allOnes_and

/-- Writing the old value back restores the register. -/
theorem write_write_val (r : MaskedReg) (v : UInt32) : (r.write v).write r.val = r := by
  have hBits : ((r.val &&& ~~~ r.rw_ ||| v &&& r.rw_) &&& ~~~ r.rw_) ||| (r.val &&& r.rw_) =
      r.val := by
    apply UInt32.toBitVec_inj.mp
    simp only [UInt32.toBitVec_or, UInt32.toBitVec_and, UInt32.toBitVec_not]
    ext i hi
    simp only [BitVec.getElem_or, BitVec.getElem_and, BitVec.getElem_not]
    cases r.val.toBitVec[i] <;> cases r.rw_.toBitVec[i] <;> simp
  simp only [write, hBits]

end MaskedReg

/-- A bank of registers. -/
def RegBank := Nat → MaskedReg

namespace RegBank

def read (b : RegBank) (i : Nat) : UInt32 := (b i).val

def write (b : RegBank) (i : Nat) (v : UInt32) : RegBank :=
  fun k => if k = i then (b i).write v else b k

/-- Probing one register. -/
theorem write_restore (b : RegBank) (i : Nat) (v : UInt32) :
    (b.write i v).write i (b.read i) = b := by
  funext k
  by_cases hi : k = i
  · subst hi
    simp [write, read, MaskedReg.write_write_val]
  · simp [write, hi]

/-- Probing two registers at once. -/
theorem write_restore_two (b : RegBank) {i j : Nat} (hij : i ≠ j) (v w : UInt32) :
    (((b.write i v).write j w).write i (b.read i)).write j (b.read j) = b := by
  funext k
  by_cases hj : k = j
  · subst hj
    simp [write, read, hij.symm, MaskedReg.write_write_val]
  · by_cases hi : k = i
    · subst hi
      simp [write, read, hj, MaskedReg.write_write_val]
    · simp [write, hi, hj]

end RegBank

end Neutrix.Lib
