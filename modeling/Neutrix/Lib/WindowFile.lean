import Mathlib.Data.UInt
import Mathlib.Logic.Function.Basic

/-!
# Register files behind a select/window pair

Many controllers show one register at a time: the driver writes the number
of a register to a select port and then reads or writes the window. A
`WindowFile` is such a controller whose registers are plain storage, and a
`WindowBus` is a set of them, told apart by base address. `get_write` and
`get_read` say that through this interface the registers behave like an
array indexed by (base, register).

A `RegProgram` gets at the registers through its accesses only, so they can
be listed (`accesses`).
-/

namespace Neutrix.Lib

/-- A select latch in front of plain 32-bit registers. -/
structure WindowFile where
  select : UInt32
  regs   : Nat → UInt32

/-- Controllers by base address. -/
abbrev WindowBus := UInt64 → WindowFile

namespace WindowBus

/-- Write the select latch. -/
def writeSelect (m : WindowBus) (base : UInt64) (reg : UInt32) : WindowBus :=
  Function.update m base { m base with select := reg }

/-- Read the selected register. -/
def readWindow (m : WindowBus) (base : UInt64) : UInt32 :=
  (m base).regs (m base).select.toNat

/-- Write the selected register. -/
def writeWindow (m : WindowBus) (base : UInt64) (val : UInt32) : WindowBus :=
  Function.update m base
    { m base with regs := Function.update (m base).regs (m base).select.toNat val }

/-- The content of a register, without an access. -/
def get (m : WindowBus) (base : UInt64) (reg : Nat) : UInt32 := (m base).regs reg

/-- Select, then read. -/
def read (m : WindowBus) (base : UInt64) (reg : UInt32) : UInt32 × WindowBus :=
  let m := m.writeSelect base reg
  (m.readWindow base, m)

/-- Select, then write. -/
def write (m : WindowBus) (base : UInt64) (reg : UInt32) (val : UInt32) : WindowBus :=
  (m.writeSelect base reg).writeWindow base val

@[simp] theorem get_writeSelect (m : WindowBus) (base b : UInt64) (reg : UInt32) (r : Nat) :
    (m.writeSelect base reg).get b r = m.get b r := by
  by_cases h : b = base
  · subst h
    simp [get, writeSelect]
  · simp [get, writeSelect, Function.update_of_ne h]

@[simp] theorem read_fst (m : WindowBus) (base : UInt64) (reg : UInt32) :
    (m.read base reg).1 = m.get base reg.toNat := by
  simp [read, readWindow, writeSelect, get]

@[simp] theorem get_read (m : WindowBus) (base b : UInt64) (reg : UInt32) (r : Nat) :
    (m.read base reg).2.get b r = m.get b r := by
  rw [read, get_writeSelect]

/-- A write changes the one register it names. -/
@[simp] theorem get_write (m : WindowBus) (base b : UInt64) (reg val : UInt32) (r : Nat) :
    (m.write base reg val).get b r =
      if b = base ∧ r = reg.toNat then val else m.get b r := by
  by_cases hb : b = base
  · subst hb
    by_cases hr : r = reg.toNat
    · simp [hr, get, write, writeWindow, writeSelect]
    · simp [hr, get, write, writeWindow, writeSelect, Function.update_of_ne]
  · simp [hb, get, write, writeWindow, writeSelect, Function.update_of_ne]

end WindowBus

inductive RegProgram (α : Type*) where
  | pure (a : α)
  | read (base : UInt64) (reg : UInt32) (next : UInt32 → RegProgram α)
  | write (base : UInt64) (reg val : UInt32) (next : RegProgram α)

namespace RegProgram

variable {α : Type*}

def run : RegProgram α → WindowBus → α × WindowBus
  | .pure a, m => (a, m)
  | .read base reg next, m => (next (m.read base reg).1).run (m.read base reg).2
  | .write base reg val next, m => next.run (m.write base reg val)

/-- The registers accessed, in order. -/
def accesses : RegProgram α → WindowBus → List (UInt64 × Nat)
  | .pure _, _ => []
  | .read base reg next, m =>
    (base, reg.toNat) :: (next (m.read base reg).1).accesses (m.read base reg).2
  | .write base reg val next, m => (base, reg.toNat) :: next.accesses (m.write base reg val)

end RegProgram

end Neutrix.Lib
