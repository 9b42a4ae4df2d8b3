import Neutrix.Lib.ByteMemory

/-!
# Footprints

`Within T` says of a step that the bytes in `T` are all it depends on and
all it changes. The step is given by what it makes of two memories. Stores
of words are such steps, and folds of such steps are.
-/

namespace Neutrix.Lib

/-- Steps from two memories that agree on the bytes in `T`: they change nothing else and
agree on them afterwards. -/
structure Within (T : Nat → Prop) (mem out mem' out' : Memory) : Prop where
  same  : ∀ a, ¬ T a → out a = mem a
  agree : (∀ a, T a → mem' a = mem a) → ∀ a, T a → out' a = out a

theorem Within.trans {T : Nat → Prop} {m₁ m₂ m₃ m₁' m₂' m₃' : Memory}
    (h : Within T m₁ m₂ m₁' m₂') (h' : Within T m₂ m₃ m₂' m₃') : Within T m₁ m₃ m₁' m₃' where
  same  := fun a ha => (h'.same a ha).trans (h.same a ha)
  agree := fun hEq => h'.agree (h.agree hEq)

theorem Within.refl (T : Nat → Prop) (mem mem' : Memory) : Within T mem mem mem' mem' where
  same  := fun _ _ => rfl
  agree := id

theorem Within.write32 {T : Nat → Prop} {addr : Nat} (hIn : ∀ a, addr ≤ a → a < addr + 4 → T a)
    (mem mem' : Memory) (v : UInt32) :
    Within T mem (mem.write32 addr v) mem' (mem'.write32 addr v) where
  same  := by
    intro a ha
    refine Memory.write32_apply_of_disjoint mem v ?_
    by_contra hNot
    exact ha (hIn a (by omega) (by omega))
  agree := by
    intro hEq a ha
    unfold Memory.write32
    split_ifs
    · rfl
    · exact hEq a ha

theorem Within.foldl {T : Nat → Prop} {α : Type*} {f : Memory → α → Memory} {is : List α}
    (hStep : ∀ i ∈ is, ∀ mem mem', Within T mem (f mem i) mem' (f mem' i)) (mem mem' : Memory) :
    Within T mem (is.foldl f mem) mem' (is.foldl f mem') := by
  induction is generalizing mem mem' with
  | nil => exact Within.refl T mem mem'
  | cons i is ih =>
    have hFirst := hStep i List.mem_cons_self mem mem'
    exact hFirst.trans (ih (fun j hj => hStep j (List.mem_cons_of_mem i hj)) _ _)

theorem read32_congr {mem mem' : Memory} {a : Nat} (h : ∀ k < 4, mem' (a + k) = mem (a + k)) :
    mem'.read32 a = mem.read32 a := by
  have h0 : mem' a = mem a := h 0 (by decide)
  rw [Memory.read32, Memory.read32, h0, h 1 (by decide), h 2 (by decide), h 3 (by decide)]

end Neutrix.Lib
