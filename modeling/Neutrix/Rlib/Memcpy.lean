import Neutrix.Rlib.Memmove

/-!
# Neutrix — `memcpy` against `memmove`

`memcpy` cuts the region differently from `memmove`: bytes until the
destination is aligned, then 64, then 16, then single bytes. Each round of
each loop still copies a few bytes and loads all of them before it stores
any (`Copies`), so the rounds are steps upwards of the same kind (`Moved.up`)
as long as the destination does not run into the source from below.

* `memcpy_eq_memmove` — `memcpy` returns, and memory is what `memmove` makes
  of it.
-/

namespace Neutrix.Rlib

open Neutrix.Lib

-- ---------------------------------------------------------------------------
-- Rounds
-- ---------------------------------------------------------------------------

/-- All four loads see memory as it was before the first store, so this holds
for any two regions. -/
theorem copy64_copies (m : Machine) (dst src : Nat) : Copies m (m.copy64 dst src) dst src 64 where
  mem    := by
    funext i
    simp only [Machine.copy64, Machine.load16, Machine.store16, storeuSi128, loaduSi128,
      Memory.copy]
    split_ifs <;> first | rfl | omega | (congr 1; omega)
  loads  := by
    simp only [Machine.copy64, Machine.load16, Machine.store16, List.append_assoc]
    congr 1
  stores := by
    simp only [Machine.copy64, Machine.load16, Machine.store16, List.append_assoc]
    congr 1

/-- Where the loops stand: what is behind the pointers has been moved, what is
before them is left. -/
structure Copied (m₀ : Machine) (dst src n : Nat) (s : CopyState) : Prop where
  left  : s.len ≤ n
  dstAt : s.dst = dst + (n - s.len)
  srcAt : s.src = src + (n - s.len)
  moved : Moved m₀ s.m dst src n 0 (n - s.len)

/-- **One round** of any of the loops. -/
theorem Copied.advance {m₀ m' : Machine} {dst src n w : Nat} {s : CopyState}
    (h : Copied m₀ dst src n s) (hDir : dst ≤ src ∨ src + n ≤ dst) (hLeft : w ≤ s.len)
    (hStep : Copies s.m m' s.dst s.src w) : Copied m₀ dst src n (s.advance w m') := by
  have hLen := h.left
  have hNext : n - (s.len - w) = n - s.len + w := by omega
  rw [h.dstAt, h.srcAt] at hStep
  refine ⟨?_, ?_, ?_, ?_⟩
  · show s.len - w ≤ n
    omega
  · show s.dst + w = dst + (n - (s.len - w))
    rw [hNext, h.dstAt, Nat.add_assoc]
  · show s.src + w = src + (n - (s.len - w))
    rw [hNext, h.srcAt, Nat.add_assoc]
  · show Moved m₀ m' dst src n 0 (n - (s.len - w))
    rw [hNext]
    exact h.moved.up hDir (by omega) hStep

/-- **One loop** whose rounds copy `w` bytes each. -/
theorem Copied.loop {m₀ : Machine} {dst src n w : Nat} {s : CopyState}
    {f : Machine → Nat → Nat → Machine} (h : Copied m₀ dst src n s) (cond : CopyState → Prop)
    [DecidablePred cond] (hDir : dst ≤ src ∨ src + n ≤ dst) (hPos : 0 < w)
    (hCond : ∀ s, cond s → w ≤ s.len) (hStep : ∀ m dst src, Copies m (f m dst src) dst src w) :
    ∃ t, Lib.loop cond (fun s => s.advance w (f s.m s.dst s.src)) n s = some t ∧
      Copied m₀ dst src n t ∧ ¬ cond t := by
  refine loop_total CopyState.len (fun s hs hMore => ?_) (fun s hs hMore => ?_) h h.left
  · exact hs.advance hDir (hCond s hMore) (hStep s.m s.dst s.src)
  · have hLeft := hCond s hMore
    show s.len - w < s.len
    omega

-- ---------------------------------------------------------------------------
-- The call
-- ---------------------------------------------------------------------------

/-- The four loops move the whole region. -/
theorem memcpy_moved (m₀ : Machine) (dst src n : Nat) (hDir : dst ≤ src ∨ src + n ≤ dst) :
    ∃ m, memcpy dst src n m₀ = some m ∧ Moved m₀ m dst src n 0 n := by
  unfold memcpy
  split_ifs with hNone
  · subst hNone
    exact ⟨m₀, rfl, Moved.start m₀ dst src (Nat.le_refl 0)⟩
  have hStart : Copied m₀ dst src n ⟨dst, src, n, m₀⟩ := by
    refine ⟨Nat.le_refl n, ?_, ?_, ?_⟩
    · simp
    · simp
    · rw [Nat.sub_self]
      exact Moved.start m₀ dst src (Nat.zero_le n)
  obtain ⟨s₁, hLoop₁, h₁, -⟩ := hStart.loop (fun s => s.dst &&& 15 ≠ 0 ∧ s.len > 0) hDir
    Nat.one_pos (fun _ hMore => hMore.2) copyByte_copies
  obtain ⟨s₂, hLoop₂, h₂, -⟩ := h₁.loop (fun s => s.len ≥ 64) hDir
    (by decide) (fun _ hMore => hMore) copy64_copies
  obtain ⟨s₃, hLoop₃, h₃, -⟩ := h₂.loop (fun s => s.len ≥ 16) hDir
    (by decide) (fun _ hMore => hMore) copy16_copies
  obtain ⟨s₄, hLoop₄, h₄, hEnd⟩ := h₃.loop (fun s => s.len > 0) hDir
    Nat.one_pos (fun _ hMore => hMore) copyByte_copies
  -- the last loop only ends when nothing is left
  have hAll := h₄.moved
  rw [Nat.eq_zero_of_not_pos hEnd, Nat.sub_zero] at hAll
  refine ⟨s₄.m, ?_, hAll⟩
  unfold CopyState.copyByte CopyState.copy64 CopyState.copy16
  simp only [hLoop₁, hLoop₂, hLoop₃, hLoop₄, Option.bind_eq_bind, Option.bind_some]
  rfl

/-- **`memcpy` refines `memmove`** on regions that do not overlap or have the
destination below the source: it returns, memory is as after `memmove`, the
destination holds the old bytes of the source, and no other byte changed. -/
theorem memcpy_eq_memmove (mem : Memory) (dst src len : Nat)
    (hDir : (dst + len ≤ src ∨ src + len ≤ dst) ∨ dst ≤ src) :
    ∃ m, memcpy dst src len ⟨mem, [], []⟩ = some m ∧
      m.mem = (memmove dst src len ⟨mem, [], []⟩).2.mem ∧
      (∀ i < len, m.mem (dst + i) = mem (src + i)) ∧
      ∀ a, a < dst ∨ dst + len ≤ a → m.mem a = mem a := by
  obtain ⟨m, hCall, hMoved⟩ := memcpy_moved ⟨mem, [], []⟩ dst src len (by omega)
  refine ⟨m, hCall, ?_, hMoved.bytes⟩
  rw [hMoved.mem, (memmove_moved ⟨mem, [], []⟩ dst src len).mem]

/-- Source and destination overlap: 100 bytes go down by three. -/
theorem memcpy_eq_memmove_overlapping :
    ∃ m, memcpy 0x1005 0x1008 100 ⟨fun a => UInt8.ofNat a, [], []⟩ = some m ∧
      m.mem = (memmove 0x1005 0x1008 100 ⟨fun a => UInt8.ofNat a, [], []⟩).2.mem ∧
      (∀ i < 100, m.mem (0x1005 + i) = UInt8.ofNat (0x1008 + i)) ∧
      ∀ a, a < 0x1005 ∨ 0x1005 + 100 ≤ a → m.mem a = UInt8.ofNat a :=
  memcpy_eq_memmove (fun a => UInt8.ofNat a) 0x1005 0x1008 100 (.inr (by decide))

end Neutrix.Rlib
