import Mathlib.Algebra.Group.Nat.Defs
import Mathlib.Tactic.Common
import Mathlib.Tactic.SplitIfs

/-!
# Byte memory with little-endian words

Memory is a function from addresses to bytes. A 32-bit word occupies four
bytes, lowest first. Words read back what was written to them, and writes
elsewhere do not show.
-/

namespace Neutrix.Lib

/-- A fact about bytes can be checked byte by byte. -/
@[elab_as_elim]
theorem forall_byte {motive : UInt8 → Prop} (b : UInt8)
    (h : ∀ n < 2 ^ 8, motive (UInt8.ofNat n)) : motive b := by
  have hb := h b.toNat b.toNat_lt
  rwa [UInt8.ofNat_toNat] at hb

theorem toUInt8_and_ff (x : UInt32) : (x &&& 0xFF).toUInt8 = x.toUInt8 := by
  have hMask : ∀ n : Nat, n &&& 255 = n % 2 ^ 8 := fun n => Nat.and_two_pow_sub_one_eq_mod n 8
  apply UInt8.toNat_inj.mp
  simp [hMask]

theorem toUInt16_and_ffff (x : UInt32) : (x &&& 0xFFFF).toUInt16 = x.toUInt16 := by
  have hMask : ∀ n : Nat, n &&& 65535 = n % 2 ^ 16 :=
    fun n => Nat.and_two_pow_sub_one_eq_mod n 16
  apply UInt16.toNat_inj.mp
  simp [hMask]

def Memory := Nat → UInt8

namespace Memory

def write8 (m : Memory) (a : Nat) (v : UInt8) : Memory := fun i => if i = a then v else m i

/-- Byte `k` of a word. -/
def byteOf (v : UInt32) (k : Nat) : UInt8 := UInt8.ofNat (v.toNat / 2 ^ (8 * k))

def read32 (m : Memory) (a : Nat) : UInt32 :=
  UInt32.ofNat ((m a).toNat + (m (a + 1)).toNat * 2 ^ 8 + (m (a + 2)).toNat * 2 ^ 16 +
    (m (a + 3)).toNat * 2 ^ 24)

def read16 (m : Memory) (a : Nat) : UInt16 :=
  UInt16.ofNat ((m a).toNat + (m (a + 1)).toNat * 2 ^ 8)

def read64 (m : Memory) (a : Nat) : UInt64 :=
  (m.read32 a).toUInt64 ||| ((m.read32 (a + 4)).toUInt64 <<< 32)

/-- The memory a pointer to address `p` shows: address 0 is the byte at `p`. -/
def drop (m : Memory) (p : Nat) : Memory := fun i => m (p + i)

theorem drop_drop (m : Memory) (p q : Nat) : (m.drop p).drop q = m.drop (p + q) := by
  funext i
  simp only [drop, Nat.add_assoc]

theorem read16_drop (m : Memory) (p a : Nat) : (m.drop p).read16 a = m.read16 (p + a) := by
  simp only [read16, drop, Nat.add_assoc]

theorem read32_drop (m : Memory) (p a : Nat) : (m.drop p).read32 a = m.read32 (p + a) := by
  simp only [read32, drop, Nat.add_assoc]

theorem read64_drop (m : Memory) (p a : Nat) : (m.drop p).read64 a = m.read64 (p + a) := by
  simp only [read64, read32_drop, Nat.add_assoc]

/-- The first `n` bytes. -/
def bytes (m : Memory) (n : Nat) : List UInt8 := (List.range n).map m

def write32 (m : Memory) (a : Nat) (v : UInt32) : Memory :=
  fun i => if a ≤ i ∧ i < a + 4 then byteOf v (i - a) else m i

def fill (m : Memory) (dst len : Nat) (v : UInt8) : Memory :=
  fun i => if dst ≤ i ∧ i < dst + len then v else m i

/-- `core::ptr::copy`: the source as it was before. -/
def copy (m : Memory) (src dst len : Nat) : Memory :=
  fun i => if dst ≤ i ∧ i < dst + len then m (src + (i - dst)) else m i

theorem write32_apply_of_disjoint (m : Memory) {a i : Nat} (v : UInt32) (h : i < a ∨ a + 4 ≤ i) :
    m.write32 a v i = m i := by
  rw [write32, if_neg (by omega)]

theorem read32_of_bytes {m : Memory} {a : Nat} {v : UInt32}
    (h : ∀ k < 4, m (a + k) = byteOf v k) : m.read32 a = v := by
  have hLt := v.toNat_lt
  have h0 : m a = byteOf v 0 := h 0 (by decide)
  apply UInt32.toNat_inj.mp
  rw [read32, h0, h 1 (by decide), h 2 (by decide), h 3 (by decide)]
  simp only [byteOf, UInt8.toNat_ofNat', UInt32.toNat_ofNat']
  omega

@[simp] theorem read32_write32_self (m : Memory) (a : Nat) (v : UInt32) :
    (m.write32 a v).read32 a = v := by
  apply read32_of_bytes
  intro k hk
  rw [write32, if_pos (by omega), Nat.add_sub_cancel_left]

theorem read32_write32_of_disjoint (m : Memory) {a b : Nat} (v : UInt32)
    (h : a + 4 ≤ b ∨ b + 4 ≤ a) : (m.write32 a v).read32 b = m.read32 b := by
  unfold read32
  rw [write32_apply_of_disjoint m v (by omega), write32_apply_of_disjoint m v (by omega),
    write32_apply_of_disjoint m v (by omega), write32_apply_of_disjoint m v (by omega)]

theorem read32_copy_inside (m : Memory) {src dst len a : Nat} (h : dst ≤ a ∧ a + 4 ≤ dst + len) :
    (m.copy src dst len).read32 a = m.read32 (src + (a - dst)) := by
  have hByte : ∀ k < 4, m.copy src dst len (a + k) = m (src + (a - dst) + k) := by
    intro k hk
    rw [copy, if_pos (by omega)]
    congr 1
    omega
  have h0 : m.copy src dst len a = m (src + (a - dst)) := hByte 0 (by decide)
  rw [read32, h0, hByte 1 (by decide), hByte 2 (by decide), hByte 3 (by decide), read32]

theorem read32_copy_outside (m : Memory) {src dst len a : Nat}
    (h : a + 4 ≤ dst ∨ dst + len ≤ a) : (m.copy src dst len).read32 a = m.read32 a := by
  have hByte : ∀ k < 4, m.copy src dst len (a + k) = m (a + k) := by
    intro k hk
    rw [copy, if_neg (by omega)]
  have h0 : m.copy src dst len a = m a := hByte 0 (by decide)
  rw [read32, h0, hByte 1 (by decide), hByte 2 (by decide), hByte 3 (by decide), read32]

theorem copy_zero (m : Memory) (src dst : Nat) : m.copy src dst 0 = m := by
  funext i
  rw [copy, if_neg (by omega)]

theorem write8_eq_copy (m : Memory) (src dst : Nat) : m.write8 dst (m src) = m.copy src dst 1 := by
  funext i
  unfold write8 copy
  by_cases hAt : i = dst
  · rw [if_pos hAt, if_pos (by omega), hAt, Nat.sub_self, Nat.add_zero]
  · rw [if_neg hAt, if_neg (by omega)]

theorem copy_self (m : Memory) (src len : Nat) : m.copy src src len = m := by
  funext i
  unfold copy
  by_cases hIn : src ≤ i ∧ i < src + len
  · rw [if_pos hIn, Nat.add_sub_cancel' hIn.1]
  · rw [if_neg hIn]

/-- Copying on upwards: the pieces make up the whole, as no byte of the source
from `src + k` on has been overwritten. -/
theorem copy_copy_up (m : Memory) {src dst k w : Nat} (h : dst ≤ src ∨ src + (k + w) ≤ dst) :
    (m.copy src dst k).copy (src + k) (dst + k) w = m.copy src dst (k + w) := by
  funext i
  unfold copy
  by_cases hNew : dst + k ≤ i ∧ i < dst + k + w
  · have hAddr : src + k + (i - (dst + k)) = src + (i - dst) := by omega
    rw [if_pos hNew, hAddr, if_neg (by omega), if_pos (by omega)]
  · rw [if_neg hNew]
    by_cases hOld : dst ≤ i ∧ i < dst + k
    · rw [if_pos hOld, if_pos (by omega)]
    · rw [if_neg hOld, if_neg (by omega)]

/-- Copying on downwards. -/
theorem copy_copy_down (m : Memory) {src dst : Nat} (h : src ≤ dst) (k w : Nat) :
    (m.copy (src + w) (dst + w) k).copy src dst w = m.copy src dst (w + k) := by
  funext i
  unfold copy
  by_cases hNew : dst ≤ i ∧ i < dst + w
  · rw [if_pos hNew, if_neg (by omega), if_pos (by omega)]
  · rw [if_neg hNew]
    by_cases hOld : dst + w ≤ i ∧ i < dst + w + k
    · have hAddr : src + w + (i - (dst + w)) = src + (i - dst) := by omega
      rw [if_pos hOld, hAddr, if_pos (by omega)]
    · rw [if_neg hOld, if_neg (by omega)]

theorem fill_zero (m : Memory) (dst : Nat) (v : UInt8) : m.fill dst 0 v = m := by
  funext i
  rw [fill, if_neg (by omega)]

theorem write8_eq_fill (m : Memory) (dst : Nat) (v : UInt8) : m.write8 dst v = m.fill dst 1 v := by
  funext i
  unfold write8 fill
  by_cases hAt : i = dst
  · rw [if_pos hAt, if_pos (by omega)]
  · rw [if_neg hAt, if_neg (by omega)]

theorem fill_fill (m : Memory) (dst k w : Nat) (v : UInt8) :
    (m.fill dst k v).fill (dst + k) w v = m.fill dst (k + w) v := by
  funext i
  unfold fill
  by_cases hNew : dst + k ≤ i ∧ i < dst + k + w
  · rw [if_pos hNew, if_pos (by omega)]
  · rw [if_neg hNew]
    by_cases hOld : dst ≤ i ∧ i < dst + k
    · rw [if_pos hOld, if_pos (by omega)]
    · rw [if_neg hOld, if_neg (by omega)]

-- ---------------------------------------------------------------------------
-- Byte strings in memory
-- ---------------------------------------------------------------------------

/-- The bytes of a word, lowest first. -/
def le32 (v : UInt32) : List UInt8 := [byteOf v 0, byteOf v 1, byteOf v 2, byteOf v 3]

def le16 (v : UInt16) : List UInt8 := [UInt8.ofNat v.toNat, UInt8.ofNat (v.toNat / 2 ^ 8)]

def le64 (v : UInt64) : List UInt8 := le32 v.toUInt32 ++ le32 (v >>> 32).toUInt32

@[simp] theorem length_le32 (v : UInt32) : (le32 v).length = 4 := rfl

@[simp] theorem length_le16 (v : UInt16) : (le16 v).length = 2 := rfl

@[simp] theorem length_le64 (v : UInt64) : (le64 v).length = 8 := rfl

/-- Memory holds the byte string from address `p` on. -/
def Holds (m : Memory) (p : Nat) : List UInt8 → Prop
  | [] => True
  | b :: bs => m p = b ∧ m.Holds (p + 1) bs

instance decidableHolds (m : Memory) : (p : Nat) → (bs : List UInt8) → Decidable (m.Holds p bs)
  | _, [] => isTrue trivial
  | p, b :: bs => @instDecidableAnd _ _ (instDecidableEqUInt8 (m p) b) (decidableHolds m (p + 1) bs)

@[simp] theorem holds_nil (m : Memory) (p : Nat) : m.Holds p [] := trivial

@[simp] theorem holds_cons (m : Memory) (p : Nat) (b : UInt8) (bs : List UInt8) :
    m.Holds p (b :: bs) ↔ m p = b ∧ m.Holds (p + 1) bs := Iff.rfl

@[simp] theorem holds_append (m : Memory) (p : Nat) (as bs : List UInt8) :
    m.Holds p (as ++ bs) ↔ m.Holds p as ∧ m.Holds (p + as.length) bs := by
  induction as generalizing p with
  | nil => simp
  | cons a as ih =>
    have hEnd : p + 1 + as.length = p + (as.length + 1) := by omega
    rw [List.cons_append, holds_cons, holds_cons, ih, List.length_cons, hEnd, and_assoc]

theorem holds_drop (m : Memory) (p q : Nat) (bs : List UInt8) :
    (m.drop p).Holds q bs ↔ m.Holds (p + q) bs := by
  induction bs generalizing q with
  | nil => exact iff_of_true trivial trivial
  | cons b bs ih => exact and_congr Iff.rfl (ih (q + 1))

theorem bytes_succ (m : Memory) (n : Nat) : m.bytes (n + 1) = m 0 :: (m.drop 1).bytes n := by
  have hMap : ∀ f : Nat → UInt8,
      (List.range (n + 1)).map f = f 0 :: (List.range n).map fun i => f (1 + i) := by
    intro f
    rw [List.range_succ_eq_map, List.map_cons, List.map_map]
    simp only [Function.comp_def, Nat.succ_eq_add_one, Nat.add_comm]
  exact hMap m

theorem bytes_of_holds {m : Memory} {bs : List UInt8} (h : m.Holds 0 bs) :
    m.bytes bs.length = bs := by
  induction bs generalizing m with
  | nil => rfl
  | cons b bs ih =>
    rw [List.length_cons, bytes_succ, h.1, ih ((holds_drop m 1 0 bs).mpr h.2)]

theorem read32_of_holds {m : Memory} {a : Nat} {v : UInt32} (h : m.Holds a (le32 v)) :
    m.read32 a = v := by
  obtain ⟨h0, h1, h2, h3, -⟩ := h
  apply read32_of_bytes
  intro k hk
  match k, hk with
  | 0, _ => exact h0
  | 1, _ => exact h1
  | 2, _ => exact h2
  | 3, _ => exact h3

theorem read16_of_holds {m : Memory} {a : Nat} {v : UInt16} (h : m.Holds a (le16 v)) :
    m.read16 a = v := by
  obtain ⟨h0, h1, -⟩ := h
  have hLt := v.toNat_lt
  apply UInt16.toNat_inj.mp
  rw [read16, h0, h1]
  simp only [UInt8.toNat_ofNat', UInt16.toNat_ofNat']
  omega

theorem read64_of_holds {m : Memory} {a : Nat} {v : UInt64} (h : m.Holds a (le64 v)) :
    m.read64 a = v := by
  obtain ⟨hLow, hHigh⟩ := (holds_append m a _ _).mp h
  rw [length_le32] at hHigh
  rw [read64, read32_of_holds hLow, read32_of_holds hHigh]
  have hLt := v.toNat_lt
  have hOr : 2 ^ 32 * (v.toNat / 2 ^ 32) + v.toNat % 2 ^ 32 =
      2 ^ 32 * (v.toNat / 2 ^ 32) ||| v.toNat % 2 ^ 32 :=
    Nat.two_pow_add_eq_or_of_lt (Nat.mod_lt _ (by decide)) _
  apply UInt64.toNat_inj.mp
  simp only [UInt64.toNat_or, UInt64.toNat_shiftLeft, UInt32.toNat_toUInt64, UInt64.toNat_toUInt32,
    UInt64.toNat_shiftRight]
  have hShift : (32 : UInt64).toNat % 64 = 32 := rfl
  have hHalf : v.toNat / 2 ^ 32 % 2 ^ 32 = v.toNat / 2 ^ 32 := Nat.mod_eq_of_lt (by omega)
  have hFits : 2 ^ 32 * (v.toNat / 2 ^ 32) % 2 ^ 64 = 2 ^ 32 * (v.toNat / 2 ^ 32) :=
    Nat.mod_eq_of_lt (by omega)
  rw [hShift, Nat.shiftRight_eq_div_pow, Nat.shiftLeft_eq, hHalf, Nat.mul_comm, hFits, Nat.or_comm,
    ← hOr, Nat.div_add_mod]

/-- A table of values of one size, read back entry by entry. -/
theorem reads_of_holds {β : Type*} {enc : β → List UInt8} {read : Memory → Nat → β} {w : Nat}
    (hLen : ∀ v, (enc v).length = w)
    (hRead : ∀ (m : Memory) a v, m.Holds a (enc v) → read m a = v)
    {m : Memory} {p : Nat} {vs : List β} (h : m.Holds p (vs.flatMap enc)) :
    (List.range vs.length).map (fun i => read m (p + w * i)) = vs := by
  induction vs generalizing p with
  | nil => rfl
  | cons v vs ih =>
    rw [List.flatMap_cons, holds_append, hLen] at h
    have hNext : ∀ i, p + w * (i + 1) = p + w + w * i := fun i => by rw [Nat.mul_add]; omega
    rw [List.length_cons, List.range_succ_eq_map, List.map_cons, List.map_map]
    simp only [Function.comp_def, Nat.succ_eq_add_one, hNext, ih h.2, Nat.mul_zero, Nat.add_zero,
      hRead m p v h.1]

-- ---------------------------------------------------------------------------
-- Parts of a dword
-- ---------------------------------------------------------------------------

theorem toNat_read32 (m : Memory) (a : Nat) :
    (m.read32 a).toNat = (m a).toNat + (m (a + 1)).toNat * 2 ^ 8 + (m (a + 2)).toNat * 2 ^ 16 +
      (m (a + 3)).toNat * 2 ^ 24 := by
  have h0 := (m a).toNat_lt
  have h1 := (m (a + 1)).toNat_lt
  have h2 := (m (a + 2)).toNat_lt
  have h3 := (m (a + 3)).toNat_lt
  rw [read32, UInt32.toNat_ofNat']
  omega

theorem byte0_read32 (m : Memory) (a : Nat) : (m.read32 a &&& 0xFF).toUInt8 = m a := by
  have h0 := (m a).toNat_lt
  rw [toUInt8_and_ff]
  apply UInt8.toNat_inj.mp
  rw [UInt32.toNat_toUInt8, toNat_read32]
  omega

theorem byte1_read32 (m : Memory) (a : Nat) :
    ((m.read32 a >>> 8) &&& 0xFF).toUInt8 = m (a + 1) := by
  have h0 := (m a).toNat_lt
  have h1 := (m (a + 1)).toNat_lt
  rw [toUInt8_and_ff]
  apply UInt8.toNat_inj.mp
  simp [toNat_read32, Nat.shiftRight_eq_div_pow]
  omega

theorem word0_read32 (m : Memory) (a : Nat) : (m.read32 a &&& 0xFFFF).toUInt16 = m.read16 a := by
  have h0 := (m a).toNat_lt
  have h1 := (m (a + 1)).toNat_lt
  rw [toUInt16_and_ffff]
  apply UInt16.toNat_inj.mp
  rw [UInt32.toNat_toUInt16, toNat_read32, read16, UInt16.toNat_ofNat']
  omega

theorem word1_read32 (m : Memory) (a : Nat) :
    ((m.read32 a >>> 16) &&& 0xFFFF).toUInt16 = m.read16 (a + 2) := by
  have h0 := (m a).toNat_lt
  have h1 := (m (a + 1)).toNat_lt
  have h2 := (m (a + 2)).toNat_lt
  have h3 := (m (a + 3)).toNat_lt
  rw [toUInt16_and_ffff]
  apply UInt16.toNat_inj.mp
  rw [read16, show a + 2 + 1 = a + 3 from rfl]
  simp [toNat_read32, Nat.shiftRight_eq_div_pow]
  omega

theorem le32_read32 (m : Memory) (a : Nat) :
    le32 (m.read32 a) = [m a, m (a + 1), m (a + 2), m (a + 3)] := by
  have h0 := (m a).toNat_lt
  have h1 := (m (a + 1)).toNat_lt
  have h2 := (m (a + 2)).toNat_lt
  have h3 := (m (a + 3)).toNat_lt
  simp only [le32, byteOf, read32, List.cons.injEq, and_true, ← UInt8.toNat_inj,
    UInt8.toNat_ofNat', UInt32.toNat_ofNat']
  omega

/-- The bytes of a 64-bit word are the bytes it was read from. -/
theorem le64_read64 (m : Memory) (a : Nat) :
    le64 (m.read64 a) =
      [m a, m (a + 1), m (a + 2), m (a + 3), m (a + 4), m (a + 5), m (a + 6), m (a + 7)] := by
  have hLow : (m.read64 a).toUInt32 = m.read32 a := by
    apply UInt32.toBitVec_inj.mp
    ext i hi
    simp [read64]
  have hHigh : (m.read64 a >>> 32).toUInt32 = m.read32 (a + 4) := by
    apply UInt32.toBitVec_inj.mp
    ext i hi
    have hIn : i < 64 := by omega
    have hShift : 32 + i < 64 := by omega
    have hAbove : ¬ 32 + i < 32 := by omega
    simp [read64, hIn, hShift, hAbove, BitVec.getLsbD_eq_getElem hi]
  rw [le64, hLow, hHigh, le32_read32, le32_read32]
  rfl

end Memory

end Neutrix.Lib
