import Neutrix.Rlib.Mem

/-!
# Neutrix — `memmove` moves

Each step of `memmove` copies a few bytes: it loads all of them and then
stores them (`Copies`). Upwards, the bytes still to be loaded lie above
those already stored, downwards below, whatever the distance of the regions
and wherever the chunks begin. So in both directions the part of the region
done so far is copied from the memory before the call (`Moved`), and the
steps only have to add up to the region.

* `memmove_moves` — memory after the call, the bytes loaded and stored on
  the way, and the returned pointer.
-/

namespace Neutrix.Rlib

open Neutrix.Lib

-- ---------------------------------------------------------------------------
-- Steps
-- ---------------------------------------------------------------------------

/-- `m'` is `m` after `w` bytes were loaded from `src` and stored at `dst`. -/
structure Copies (m m' : Machine) (dst src w : Nat) : Prop where
  mem    : m'.mem = m.mem.copy src dst w
  loads  : m'.loads = m.loads ++ List.range' src w
  stores : m'.stores = m.stores ++ List.range' dst w

theorem copyByte_copies (m : Machine) (dst src : Nat) : Copies m (m.copyByte dst src) dst src 1 :=
  ⟨Memory.write8_eq_copy m.mem src dst, rfl, rfl⟩

theorem copy16_copies (m : Machine) (dst src : Nat) : Copies m (m.copy16 dst src) dst src 16 :=
  ⟨rfl, rfl, rfl⟩

/-- The bytes `lo` to `hi` of a region of `n` bytes have been moved. -/
structure Moved (m₀ m : Machine) (dest src n lo hi : Nat) : Prop where
  bound  : lo ≤ hi ∧ hi ≤ n
  mem    : m.mem = m₀.mem.copy (src + lo) (dest + lo) (hi - lo)
  loads  : ∀ a ∈ m.loads, a ∈ m₀.loads ∨ src ≤ a ∧ a < src + n
  stores : ∀ a ∈ m.stores, a ∈ m₀.stores ∨ dest ≤ a ∧ a < dest + n

/-- A log that grows by a part of the region. -/
theorem log_append {old₀ old new : List Nat} {base k w n : Nat} (hFits : k + w ≤ n)
    (hOld : ∀ a ∈ old, a ∈ old₀ ∨ base ≤ a ∧ a < base + n)
    (hNew : new = old ++ List.range' (base + k) w) :
    ∀ a ∈ new, a ∈ old₀ ∨ base ≤ a ∧ a < base + n := by
  intro a ha
  rw [hNew, List.mem_append, List.mem_range'_1] at ha
  rcases ha with ha | ha
  · exact hOld a ha
  · exact .inr (by omega)

namespace Moved

variable {m₀ m m' : Machine} {dest src n lo hi w : Nat}

theorem start (m₀ : Machine) (dest src : Nat) {n k : Nat} (hk : k ≤ n) :
    Moved m₀ m₀ dest src n k k where
  bound  := ⟨Nat.le_refl k, hk⟩
  mem    := by rw [Nat.sub_self, Memory.copy_zero]
  loads  := fun _ => .inl
  stores := fun _ => .inl

/-- **One step upwards.** -/
theorem up (h : Moved m₀ m dest src n 0 hi) (hDir : dest ≤ src ∨ src + n ≤ dest)
    (hFits : hi + w ≤ n) (hStep : Copies m m' (dest + hi) (src + hi) w) :
    Moved m₀ m' dest src n 0 (hi + w) where
  bound  := ⟨Nat.zero_le _, hFits⟩
  mem    := by
    rw [hStep.mem, h.mem]
    exact Memory.copy_copy_up m₀.mem (hDir.imp_right fun hApart => by omega)
  loads  := log_append hFits h.loads hStep.loads
  stores := log_append hFits h.stores hStep.stores

/-- **One step downwards.** -/
theorem down (h : Moved m₀ m dest src n (lo + w) n) (hDir : src ≤ dest)
    (hStep : Copies m m' (dest + lo) (src + lo) w) : Moved m₀ m' dest src n lo n where
  bound  := ⟨Nat.le_of_add_right_le h.bound.1, Nat.le_refl n⟩
  mem    := by
    have hBound := h.bound.1
    have hLen : n - lo = w + (n - (lo + w)) := by omega
    rw [hStep.mem, h.mem, hLen, ← Nat.add_assoc, ← Nat.add_assoc]
    exact Memory.copy_copy_down m₀.mem (Nat.add_le_add_right hDir lo) (n - (lo + w)) w
  loads  := log_append h.bound.1 h.loads hStep.loads
  stores := log_append h.bound.1 h.stores hStep.stores

end Moved

-- ---------------------------------------------------------------------------
-- Upwards
-- ---------------------------------------------------------------------------

section Loops

variable {m₀ m : Machine} {dest src n : Nat}

theorem alignForward_moved (hDir : dest ≤ src ∨ src + n ≤ dest) {fuel offset : Nat}
    (h : Moved m₀ m dest src n 0 offset) :
    Moved m₀ (alignForward dest src n fuel offset m).2 dest src n 0
      (alignForward dest src n fuel offset m).1 := by
  induction fuel generalizing offset m with
  | zero => exact h
  | succ fuel ih =>
    rw [alignForward]
    split
    · next hMore => exact ih (h.up hDir hMore.1 (copyByte_copies m _ _))
    · exact h

/-- A loop of `count` equal steps. -/
theorem foldl_up (hDir : dest ≤ src ∨ src + n ≤ dest) {w from_ count : Nat}
    {f : Machine → Nat → Machine}
    (hStep : ∀ m i, Copies m (f m i) (dest + (from_ + i * w)) (src + (from_ + i * w)) w)
    (hFits : from_ + count * w ≤ n) (h : Moved m₀ m dest src n 0 from_) :
    Moved m₀ ((List.range count).foldl f m) dest src n 0 (from_ + count * w) := by
  induction count with
  | zero =>
    rw [Nat.zero_mul]
    exact h
  | succ count ih =>
    rw [Nat.succ_mul, ← Nat.add_assoc] at hFits ⊢
    rw [List.range_succ, List.foldl_append]
    exact (ih (by omega)).up hDir hFits (hStep _ count)

theorem moveForward_moved (hDir : dest ≤ src ∨ src + n ≤ dest) :
    Moved m₀ (moveForward dest src n m₀) dest src n 0 n := by
  have hAlign : Moved m₀ (alignForward dest src n n 0 m₀).2 dest src n 0
      (alignForward dest src n n 0 m₀).1 :=
    alignForward_moved hDir (Moved.start m₀ dest src (Nat.zero_le n))
  unfold moveForward
  generalize alignForward dest src n n 0 m₀ = aligned at hAlign ⊢
  obtain ⟨offset, m⟩ := aligned
  have hOffset := hAlign.bound.2
  -- what the chunks leave is the remainder
  have hRest : offset + (n - offset) / 16 * 16 = n - (n - offset) % 16 := by omega
  have hEnd : n - (n - offset) % 16 + (n - offset) % 16 * 1 = n := by omega
  have hChunks := foldl_up hDir (fun m i => copy16_copies m _ _)
    (Nat.le_trans (Nat.le_of_eq hRest) (Nat.sub_le _ _)) hAlign
  rw [hRest] at hChunks
  have hAll := foldl_up (w := 1) hDir
    (f := fun m i => m.copyByte (dest + (n - (n - offset) % 16 + i))
      (src + (n - (n - offset) % 16 + i)))
    (fun m i => by rw [Nat.mul_one]; exact copyByte_copies m _ _) (Nat.le_of_eq hEnd) hChunks
  rwa [hEnd] at hAll

-- ---------------------------------------------------------------------------
-- Downwards
-- ---------------------------------------------------------------------------

theorem alignBackward_moved (hDir : src ≤ dest) {fuel offset : Nat}
    (hOffset : offset ≤ n) (h : Moved m₀ m dest src n (n - offset) n) :
    (alignBackward dest src n fuel offset m).1 ≤ n ∧
      Moved m₀ (alignBackward dest src n fuel offset m).2 dest src n
        (n - (alignBackward dest src n fuel offset m).1) n := by
  induction fuel generalizing offset m with
  | zero => exact ⟨hOffset, h⟩
  | succ fuel ih =>
    rw [alignBackward]
    split
    · next hMore =>
      have hNext : n - offset = n - offset - 1 + 1 := by omega
      rw [hNext] at h
      exact ih hMore.1 (h.down hDir (copyByte_copies m _ _))
    · exact ⟨hOffset, h⟩

theorem foldl_down (hDir : src ≤ dest) {w top count : Nat} {f : Machine → Nat → Machine}
    (hStep : ∀ m i, Copies m (f m i) (dest + (top - (i + 1) * w)) (src + (top - (i + 1) * w)) w)
    (hFits : count * w ≤ top) (h : Moved m₀ m dest src n top n) :
    Moved m₀ ((List.range count).foldl f m) dest src n (top - count * w) n := by
  induction count with
  | zero =>
    rw [Nat.zero_mul]
    exact h
  | succ count ih =>
    rw [List.range_succ, List.foldl_append]
    have hBefore := ih (Nat.le_trans (Nat.mul_le_mul_right w (Nat.le_succ count)) hFits)
    have hNext : top - count * w = top - (count + 1) * w + w := by
      rw [Nat.succ_mul] at hFits ⊢
      omega
    rw [hNext] at hBefore
    exact hBefore.down hDir (hStep _ count)

theorem moveBackward_moved (hDir : src ≤ dest) :
    Moved m₀ (moveBackward dest src n m₀) dest src n 0 n := by
  have hAlign : (alignBackward dest src n n 0 m₀).1 ≤ n ∧
      Moved m₀ (alignBackward dest src n n 0 m₀).2 dest src n
        (n - (alignBackward dest src n n 0 m₀).1) n :=
    alignBackward_moved hDir (Nat.zero_le n) (Moved.start m₀ dest src (Nat.le_refl n))
  unfold moveBackward
  generalize alignBackward dest src n n 0 m₀ = aligned at hAlign ⊢
  obtain ⟨offset, m⟩ := aligned
  obtain ⟨hOffset, hAlign⟩ := hAlign
  have hRest : n - offset - (n - offset) / 16 * 16 = (n - offset) % 16 := by omega
  have hEnd : (n - offset) % 16 - (n - offset) % 16 * 1 = 0 := by omega
  have hChunks := foldl_down hDir (fun m i => copy16_copies m _ _) (Nat.div_mul_le_self _ _) hAlign
  rw [hRest] at hChunks
  have hAll := foldl_down (w := 1) hDir
    (f := fun m i => m.copyByte (dest + ((n - offset) % 16 - i - 1))
      (src + ((n - offset) % 16 - i - 1)))
    (fun m i => by rw [Nat.mul_one, ← Nat.sub_sub]; exact copyByte_copies m _ _)
    (Nat.le_of_eq (Nat.mul_one _)) hChunks
  rwa [hEnd] at hAll

end Loops

-- ---------------------------------------------------------------------------
-- The call
-- ---------------------------------------------------------------------------

/-- Both directions move the whole region. -/
theorem memmove_moved (m : Machine) (dest src n : Nat) :
    Moved m (memmove dest src n m).2 dest src n 0 n := by
  unfold memmove
  split_ifs with hNone hLt
  · refine ⟨⟨Nat.zero_le n, Nat.le_refl n⟩, ?_, fun _ => .inl, fun _ => .inl⟩
    show m.mem = m.mem.copy src dest n
    rcases hNone with rfl | rfl
    · rw [Memory.copy_self]
    · rw [Memory.copy_zero]
  · exact moveForward_moved (.inl (Nat.le_of_lt hLt))
  · exact moveBackward_moved (Nat.le_of_not_lt hLt)

/-- A region that has been moved, byte by byte. -/
theorem Moved.bytes {m₀ m : Machine} {dest src n : Nat} (h : Moved m₀ m dest src n 0 n) :
    (∀ i < n, m.mem (dest + i) = m₀.mem (src + i)) ∧
      ∀ a, a < dest ∨ dest + n ≤ a → m.mem a = m₀.mem a := by
  have hMem : m.mem = m₀.mem.copy src dest n := h.mem
  refine ⟨fun i hi => ?_, fun a ha => ?_⟩
  · rw [hMem, Memory.copy, if_pos (by omega), Nat.add_sub_cancel_left]
  · rw [hMem, Memory.copy, if_neg (by omega)]

/-- **`memmove` moves.** The destination holds what the source held before the
call, every other byte is as it was, all loads are from the source region
and all stores to the destination, and the destination is returned. -/
theorem memmove_moves (mem : Memory) (dest src n : Nat) :
    (∀ i < n, (memmove dest src n ⟨mem, [], []⟩).2.mem (dest + i) = mem (src + i)) ∧
    (∀ a, a < dest ∨ dest + n ≤ a → (memmove dest src n ⟨mem, [], []⟩).2.mem a = mem a) ∧
    (∀ a ∈ (memmove dest src n ⟨mem, [], []⟩).2.loads, src ≤ a ∧ a < src + n) ∧
    (∀ a ∈ (memmove dest src n ⟨mem, [], []⟩).2.stores, dest ≤ a ∧ a < dest + n) ∧
    (memmove dest src n ⟨mem, [], []⟩).1 = dest := by
  have hMoved := memmove_moved ⟨mem, [], []⟩ dest src n
  obtain ⟨hCopied, hSame⟩ := hMoved.bytes
  refine ⟨hCopied, hSame, fun a ha => ?_, fun a ha => ?_, ?_⟩
  · exact (hMoved.loads a ha).resolve_left (by simp)
  · exact (hMoved.stores a ha).resolve_left (by simp)
  · unfold memmove
    split_ifs <;> rfl

end Neutrix.Rlib
