import Mathlib.Data.List.Basic
import Neutrix.Lib.ByteMemory

/-!
# Computations that read memory

A `Reading` gets at memory through its reads only, so the addresses it
reads can be listed (`reads`), and its result depends on the bytes at those
addresses and on no others (`run_congr`). Whether all reads fall into a
range is decided part by part (`within_bind`).
-/

namespace Neutrix.Lib

inductive Reading (α : Type*) where
  | pure (a : α)
  | read (addr : Nat) (next : UInt8 → Reading α)

namespace Reading

variable {α β : Type*}

def bind : Reading α → (α → Reading β) → Reading β
  | .pure a, f => f a
  | .read addr next, f => .read addr fun b => (next b).bind f

def run (m : Memory) : Reading α → α
  | .pure a => a
  | .read addr next => (next (m addr)).run m

/-- The addresses read, in order. -/
def reads (m : Memory) : Reading α → List Nat
  | .pure _ => []
  | .read addr next => addr :: (next (m addr)).reads m

@[simp] theorem run_pure (m : Memory) (a : α) : (Reading.pure a).run m = a := rfl

@[simp] theorem run_bind (m : Memory) (p : Reading α) (f : α → Reading β) :
    (p.bind f).run m = (f (p.run m)).run m := by
  induction p with
  | pure a => rfl
  | read addr next ih => exact ih (m addr)

theorem reads_bind (m : Memory) (p : Reading α) (f : α → Reading β) :
    (p.bind f).reads m = p.reads m ++ (f (p.run m)).reads m := by
  induction p with
  | pure a => rfl
  | read addr next ih => exact congrArg (addr :: ·) (ih (m addr))

/-- Bytes that are not read do not matter. -/
theorem run_congr {m m' : Memory} (p : Reading α) (h : ∀ a ∈ p.reads m, m' a = m a) :
    p.run m' = p.run m := by
  induction p with
  | pure a => rfl
  | read addr next ih =>
    have hHere : m' addr = m addr := h addr List.mem_cons_self
    show (next (m' addr)).run m' = (next (m addr)).run m
    rw [hHere]
    exact ih (m addr) fun a ha => h a (List.mem_cons_of_mem addr ha)

-- ---------------------------------------------------------------------------
-- Words
-- ---------------------------------------------------------------------------

def read8 (a : Nat) : Reading UInt8 := .read a .pure

def read16 (a : Nat) : Reading UInt16 :=
  (read8 a).bind fun b₀ => (read8 (a + 1)).bind fun b₁ =>
    .pure (UInt16.ofNat (b₀.toNat + b₁.toNat * 2 ^ 8))

def read32 (a : Nat) : Reading UInt32 :=
  (read8 a).bind fun b₀ => (read8 (a + 1)).bind fun b₁ => (read8 (a + 2)).bind fun b₂ =>
    (read8 (a + 3)).bind fun b₃ =>
      .pure (UInt32.ofNat
        (b₀.toNat + b₁.toNat * 2 ^ 8 + b₂.toNat * 2 ^ 16 + b₃.toNat * 2 ^ 24))

def read64 (a : Nat) : Reading UInt64 :=
  (read32 a).bind fun lo => (read32 (a + 4)).bind fun hi =>
    .pure (lo.toUInt64 ||| (hi.toUInt64 <<< 32))

/-- The results of `f 0`, …, `f (n - 1)`. -/
def collect (f : Nat → Reading α) : Nat → Reading (List α)
  | 0 => .pure []
  | n + 1 => (collect f n).bind fun as => (f n).bind fun a => .pure (as ++ [a])

/-- The `n` bytes from `p` on. -/
def bytes (p n : Nat) : Reading (List UInt8) := collect (fun i => read8 (p + i)) n

@[simp] theorem run_read8 (m : Memory) (a : Nat) : (read8 a).run m = m a := rfl

@[simp] theorem run_read16 (m : Memory) (a : Nat) : (read16 a).run m = m.read16 a := rfl

@[simp] theorem run_read32 (m : Memory) (a : Nat) : (read32 a).run m = m.read32 a := rfl

@[simp] theorem run_read64 (m : Memory) (a : Nat) : (read64 a).run m = m.read64 a := rfl

@[simp] theorem run_collect (m : Memory) (f : Nat → Reading α) (n : Nat) :
    (collect f n).run m = (List.range n).map fun i => (f i).run m := by
  induction n with
  | zero => rfl
  | succ n ih =>
    simp only [collect, run_bind, ih, run_pure, List.range_succ, List.map_append, List.map_cons,
      List.map_nil]

@[simp] theorem run_bytes (m : Memory) (p n : Nat) : (bytes p n).run m = (m.drop p).bytes n :=
  run_collect m _ n

-- ---------------------------------------------------------------------------
-- Reads inside a range
-- ---------------------------------------------------------------------------

/-- Every read falls into `lo .. hi`. -/
def Within (m : Memory) (lo hi : Nat) (p : Reading α) : Prop :=
  ∀ a ∈ p.reads m, lo ≤ a ∧ a < hi

variable {m : Memory} {lo hi : Nat}

@[simp] theorem within_pure (a : α) : Within m lo hi (.pure a) := by
  intro a' ha
  cases ha

@[simp] theorem within_bind (p : Reading α) (f : α → Reading β) :
    Within m lo hi (p.bind f) ↔ Within m lo hi p ∧ Within m lo hi (f (p.run m)) := by
  unfold Within
  rw [reads_bind]
  exact List.forall_mem_append

@[simp] theorem within_read8 (a : Nat) : Within m lo hi (read8 a) ↔ lo ≤ a ∧ a < hi := by
  show (∀ a' ∈ [a], _) ↔ _
  simp

@[simp] theorem within_read16 (a : Nat) : Within m lo hi (read16 a) ↔ lo ≤ a ∧ a + 2 ≤ hi := by
  simp only [read16, within_bind, within_read8, within_pure, and_true]
  omega

@[simp] theorem within_read32 (a : Nat) : Within m lo hi (read32 a) ↔ lo ≤ a ∧ a + 4 ≤ hi := by
  simp only [read32, within_bind, within_read8, within_pure, and_true]
  omega

@[simp] theorem within_read64 (a : Nat) : Within m lo hi (read64 a) ↔ lo ≤ a ∧ a + 8 ≤ hi := by
  simp only [read64, within_bind, within_read32, within_pure, and_true]
  omega

@[simp] theorem within_collect (f : Nat → Reading α) (n : Nat) :
    Within m lo hi (collect f n) ↔ ∀ i < n, Within m lo hi (f i) := by
  induction n with
  | zero => simp [collect]
  | succ n ih =>
    simp only [collect, within_bind, ih, within_pure, and_true, Nat.lt_succ_iff_lt_or_eq, or_imp,
      forall_and, forall_eq]

theorem within_bytes {p n : Nat} (hLo : lo ≤ p) (hHi : p + n ≤ hi) :
    Within m lo hi (bytes p n) := by
  refine (within_collect _ n).mpr fun i hi => ?_
  rw [within_read8]
  omega

end Reading

end Neutrix.Lib
