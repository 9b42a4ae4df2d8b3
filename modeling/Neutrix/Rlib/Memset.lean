import Neutrix.Rlib.Mem

/-!
# Neutrix — `memset` fills

The four loops of `memset` share one length that counts down. A round stores
the value to the next few bytes (`Fills`) and takes exactly these off the
length, so the filled part ends where the rest begins, whichever loops the
alignment and the length lead through. The stores are logged in order: the
log is the region itself, each address once.

* `memset_fills` — memory after the call, and every store on the way.
-/

namespace Neutrix.Rlib

open Neutrix.Lib

-- ---------------------------------------------------------------------------
-- Rounds
-- ---------------------------------------------------------------------------

/-- `m'` is `m` after `value` was stored to the `w` bytes at `dst`, in order. -/
structure Fills (value : UInt8) (m m' : Machine) (dst w : Nat) : Prop where
  mem    : m'.mem = m.mem.fill dst w value
  loads  : m'.loads = m.loads
  stores : m'.stores = m.stores ++ List.range' dst w

namespace Fills

variable {value : UInt8} {m m' m'' : Machine} {dst k w : Nat}

theorem none (value : UInt8) (m : Machine) (dst : Nat) : Fills value m m dst 0 where
  mem    := (Memory.fill_zero m.mem dst value).symm
  loads  := rfl
  stores := (List.append_nil _).symm

theorem trans (h : Fills value m m' dst k) (h' : Fills value m' m'' (dst + k) w) :
    Fills value m m'' dst (k + w) where
  mem    := by rw [h'.mem, h.mem, Memory.fill_fill]
  loads  := h'.loads.trans h.loads
  stores := by rw [h'.stores, h.stores, List.append_assoc, List.range'_append_1]

theorem byte (value : UInt8) (m : Machine) (dst : Nat) :
    Fills value m (m.storeByte dst value) dst 1 where
  mem    := Memory.write8_eq_fill m.mem dst value
  loads  := rfl
  stores := rfl

theorem vector (value : UInt8) (m : Machine) (dst : Nat) :
    Fills value m (m.store16 dst (set1Epi8 value)) dst 16 where
  mem    := by
    funext i
    simp only [Machine.store16, storeuSi128, Memory.fill, set1Epi8, dite_eq_ite]
  loads  := rfl
  stores := rfl

theorem unrolled (value : UInt8) (m : Machine) (dst : Nat) :
    Fills value m ((((m.store16 dst (set1Epi8 value)).store16 (dst + 16) (set1Epi8 value)).store16
      (dst + 32) (set1Epi8 value)).store16 (dst + 48) (set1Epi8 value)) dst 64 :=
  (((vector value m dst).trans (vector value _ _)).trans (vector value _ _)).trans
    (vector value _ _)

end Fills

/-- Where the loops stand: what is behind the pointer is filled. -/
structure Filled (value : UInt8) (m₀ : Machine) (dst n : Nat) (s : FillState) : Prop where
  left  : s.len ≤ n
  dstAt : s.dst = dst + (n - s.len)
  fills : Fills value m₀ s.m dst (n - s.len)

/-- **One round** of any of the loops. -/
theorem Filled.advance {value : UInt8} {m₀ m' : Machine} {dst n w : Nat} {s : FillState}
    (h : Filled value m₀ dst n s) (hLeft : w ≤ s.len) (hStep : Fills value s.m m' s.dst w) :
    Filled value m₀ dst n (s.advance w m') := by
  have hLen := h.left
  have hNext : n - (s.len - w) = n - s.len + w := by omega
  rw [h.dstAt] at hStep
  refine ⟨?_, ?_, ?_⟩
  · show s.len - w ≤ n
    omega
  · show s.dst + w = dst + (n - (s.len - w))
    rw [hNext, h.dstAt, Nat.add_assoc]
  · show Fills value m₀ m' dst (n - (s.len - w))
    rw [hNext]
    exact h.fills.trans hStep

/-- **One loop** whose rounds store `w` bytes each. -/
theorem Filled.loop {value : UInt8} {m₀ : Machine} {dst n w : Nat} {s : FillState}
    {f : Machine → Nat → Machine} (h : Filled value m₀ dst n s) (cond : FillState → Prop)
    [DecidablePred cond] (hPos : 0 < w) (hCond : ∀ s, cond s → w ≤ s.len)
    (hStep : ∀ m dst, Fills value m (f m dst) dst w) :
    ∃ t, Lib.loop cond (fun s => s.advance w (f s.m s.dst)) n s = some t ∧
      Filled value m₀ dst n t ∧ ¬ cond t := by
  refine loop_total FillState.len (fun s hs hMore => ?_) (fun s hs hMore => ?_) h h.left
  · exact hs.advance (hCond s hMore) (hStep s.m s.dst)
  · have hLeft := hCond s hMore
    show s.len - w < s.len
    omega

-- ---------------------------------------------------------------------------
-- The call
-- ---------------------------------------------------------------------------

theorem memset_filled (m₀ : Machine) (dst : Nat) (value : UInt8) (n : Nat) :
    ∃ m, memset dst value n m₀ = some m ∧ Fills value m₀ m dst n := by
  unfold memset
  split_ifs with hNone
  · subst hNone
    exact ⟨m₀, rfl, Fills.none value m₀ dst⟩
  have hStart : Filled value m₀ dst n ⟨dst, n, m₀⟩ := by
    refine ⟨Nat.le_refl n, ?_, ?_⟩
    · simp
    · rw [Nat.sub_self]
      exact Fills.none value m₀ dst
  obtain ⟨s₁, hLoop₁, h₁, -⟩ := hStart.loop (fun s => s.dst &&& 15 ≠ 0 ∧ s.len > 0)
    Nat.one_pos (fun _ hMore => hMore.2) (Fills.byte value)
  obtain ⟨s₂, hLoop₂, h₂, -⟩ := h₁.loop (fun s => s.len ≥ 64)
    (by decide) (fun _ hMore => hMore) (Fills.unrolled value)
  obtain ⟨s₃, hLoop₃, h₃, -⟩ := h₂.loop (fun s => s.len ≥ 16)
    (by decide) (fun _ hMore => hMore) (Fills.vector value)
  obtain ⟨s₄, hLoop₄, h₄, hEnd⟩ := h₃.loop (fun s => s.len > 0)
    Nat.one_pos (fun _ hMore => hMore) (Fills.byte value)
  -- the last loop only ends when nothing is left
  have hAll := h₄.fills
  rw [Nat.eq_zero_of_not_pos hEnd, Nat.sub_zero] at hAll
  refine ⟨s₄.m, ?_, hAll⟩
  unfold FillState.storeByte FillState.store64 FillState.store16
  simp only [hLoop₁, hLoop₂, hLoop₃, hLoop₄, Option.bind_eq_bind, Option.bind_some]
  rfl

/-- **`memset` fills.** It returns, the region holds the value, every other byte
is as it was, and the stores made on the way are the addresses of the region,
in order and each once. -/
theorem memset_fills (mem : Memory) (dst : Nat) (value : UInt8) (len : Nat) :
    ∃ m, memset dst value len ⟨mem, [], []⟩ = some m ∧
      (∀ i < len, m.mem (dst + i) = value) ∧
      (∀ a, a < dst ∨ dst + len ≤ a → m.mem a = mem a) ∧
      m.stores = List.range' dst len ∧
      (∀ a ∈ m.stores, dst ≤ a ∧ a < dst + len) := by
  obtain ⟨m, hCall, hFills⟩ := memset_filled ⟨mem, [], []⟩ dst value len
  have hStores : m.stores = List.range' dst len := hFills.stores
  refine ⟨m, hCall, fun i hi => ?_, fun a ha => ?_, hStores, fun a ha => ?_⟩
  · rw [hFills.mem, Memory.fill, if_pos (by omega)]
  · rw [hFills.mem, Memory.fill, if_neg (by omega)]
  · rw [hStores] at ha
    exact List.mem_range'_1.mp ha

end Neutrix.Rlib
