import Neutrix.Devices.PciScan
import Neutrix.Lib.Run
import Neutrix.Lib.SizingMask

/-!
# Neutrix — base address registers

A round of the BAR loop looks at one register and, for a 64-bit memory BAR,
at the next one too. `barStep` is the round as a step between loop states and
`BarRuns` the loop as a run of such steps that ends when the index leaves the
six registers (`LoopRuns`), so that a run is also a proof that the loop stops.

A `Layout` says which BARs the six registers hold; every `Bar` carries its
power-of-two size, its aligned base and its flags.

* `readBars_layout` — the loop runs through a layout BAR by BAR, records each
  one that answers, and puts all registers back.
* `readBars_records_memory` — memory BARs are recorded with their base and
  their size.
* `readBars_records_io_iff` — an I/O BAR is recorded with its size exactly
  when its upper 16 address bits are writable.
-/

namespace Neutrix.Pci

open Neutrix.Lib

variable {σ : Type*} [ConfigAccess σ]

-- ---------------------------------------------------------------------------
-- One round
-- ---------------------------------------------------------------------------

/-- What the loop takes a register for. -/
inductive BarKind
  | skipped
  | io
  | mem64
  | mem32
deriving DecidableEq, Repr

def barKind (orig : UInt32) : BarKind :=
  if orig = 0 ∨ orig = 0xFFFFFFFF then .skipped
  else if orig &&& 0x1 = 0x1 then .io
  else if (orig >>> 1) &&& 0x3 = 0x2 then .mem64
  else .mem32

/-- How many registers it takes. -/
def BarKind.width : BarKind → Nat
  | .mem64 => 2
  | _ => 1

def ioResource (orig mask : UInt32) : Resource :=
  ⟨.io, (orig &&& 0xFFFFFFFC).toUInt64, (~~~ (mask &&& 0xFFFFFFFC) + 1).toUInt64⟩

def mem32Resource (orig mask : UInt32) : Resource :=
  ⟨.memoryMapped, (orig &&& 0xFFFFFFF0).toUInt64, (~~~ (mask &&& ~~~ 0xF) + 1).toUInt64⟩

def mem64Resource (orig origHigh maskLow maskHigh : UInt32) : Resource :=
  ⟨.memoryMapped, (origHigh.toUInt64 <<< 32) ||| (orig.toUInt64 &&& 0xFFFFFFF0),
    ~~~ (((maskHigh.toUInt64 <<< 32) ||| maskLow.toUInt64) &&& ~~~ 0xF) + 1⟩

/-- The state between rounds. -/
structure BarState (σ : Type*) where
  barIndex  : UInt8
  resources : List Resource
  cfg       : σ

/-- The loop body. -/
def barStep (s : BarState σ) : BarState σ :=
  let off := 0x10 + s.barIndex * 4
  let orig := ConfigAccess.read s.cfg off
  match barKind orig with
  | .skipped => { s with barIndex := s.barIndex + 1 }
  | .io =>
    let probed := ConfigAccess.write s.cfg off 0xFFFFFFFF
    { barIndex := s.barIndex + 1
      resources := s.resources ++ [ioResource orig (ConfigAccess.read probed off)]
      cfg := ConfigAccess.write probed off orig }
  | .mem64 =>
    let offHigh := 0x10 + (s.barIndex + 1) * 4
    let origHigh := ConfigAccess.read s.cfg offHigh
    let probed := ConfigAccess.write (ConfigAccess.write s.cfg off 0xFFFFFFFF) offHigh 0xFFFFFFFF
    { barIndex := s.barIndex + 2
      resources := s.resources ++ [mem64Resource orig origHigh (ConfigAccess.read probed off)
        (ConfigAccess.read probed offHigh)]
      cfg := ConfigAccess.write (ConfigAccess.write probed off orig) offHigh origHigh }
  | .mem32 =>
    let probed := ConfigAccess.write s.cfg off 0xFFFFFFFF
    { barIndex := s.barIndex + 1
      resources := s.resources ++ [mem32Resource orig (ConfigAccess.read probed off)]
      cfg := ConfigAccess.write probed off orig }

theorem barLoop_succ (fuel : Nat) (s : BarState σ) (h : s.barIndex < 6) :
    barLoop (fuel + 1) s.barIndex s.resources s.cfg =
      barLoop fuel (barStep s).barIndex (barStep s).resources (barStep s).cfg := by
  rw [barLoop, if_pos h]
  unfold barStep barKind
  dsimp only
  split_ifs <;> rfl

/-- The loop gets from `s` to `t` in `n` rounds. -/
def BarRuns (n : Nat) (s t : BarState σ) : Prop :=
  LoopRuns (fun s => s.barIndex < 6) barStep n s t

theorem BarRuns.barLoop_eq {n fuel : Nat} {s t : BarState σ} (h : BarRuns n s t)
    (hFuel : n ≤ fuel) : barLoop fuel s.barIndex s.resources s.cfg = (t.resources, t.cfg) := by
  induction h generalizing fuel with
  | done hEnd =>
    cases fuel with
    | zero => rfl
    | succ fuel => rw [barLoop, if_neg hEnd]
  | round hIn _ ih =>
    obtain ⟨fuel, rfl⟩ := Nat.exists_eq_add_of_le' hFuel
    rw [← Nat.add_assoc, barLoop_succ _ _ hIn]
    exact ih (Nat.le_add_left _ _)

-- ---------------------------------------------------------------------------
-- A round on a bank of registers
-- ---------------------------------------------------------------------------

/-- What the round at register `i` records. -/
def barResource (cfg : RegBank) (i : Nat) : Option Resource :=
  match barKind (cfg.read (4 + i)) with
  | .skipped => none
  | .io => some (ioResource (cfg.read (4 + i)) (cfg (4 + i)).probe)
  | .mem64 => some (mem64Resource (cfg.read (4 + i)) (cfg.read (4 + i + 1)) (cfg (4 + i)).probe
      (cfg (4 + i + 1)).probe)
  | .mem32 => some (mem32Resource (cfg.read (4 + i)) (cfg (4 + i)).probe)

theorem dwordIndex_bar {i : Nat} (hi : i < 7) : dwordIndex (0x10 + UInt8.ofNat i * 4) = 4 + i := by
  decide +revert

theorem dwordIndex_bar_succ {i : Nat} (hi : i < 6) :
    dwordIndex (0x10 + (UInt8.ofNat i + 1) * 4) = 4 + i + 1 := by
  rw [show UInt8.ofNat i + 1 = UInt8.ofNat (i + 1) from (UInt8.ofNat_add i 1).symm]
  exact dwordIndex_bar (by omega)

theorem ofNat_lt_six {i : Nat} (hi : i < 6) : UInt8.ofNat i < 6 := by
  decide +revert

/-- A round leaves the registers as they were. -/
theorem barStep_regBank {i : Nat} (hi : i < 6) (resources : List Resource) (cfg : RegBank) :
    barStep ⟨UInt8.ofNat i, resources, cfg⟩ =
      ⟨UInt8.ofNat (i + (barKind (cfg.read (4 + i))).width),
        resources ++ (barResource cfg i).toList, cfg⟩ := by
  have hNe : ¬ 4 + i = 4 + i + 1 := by omega
  unfold barStep barResource
  dsimp only [ConfigAccess.read, ConfigAccess.write]
  rw [dwordIndex_bar (by omega), dwordIndex_bar_succ hi]
  have hOne := cfg.write_restore (4 + i) 0xFFFFFFFF
  have hTwo := cfg.write_restore_two hNe 0xFFFFFFFF 0xFFFFFFFF
  cases barKind (cfg.read (4 + i)) with
  | skipped => simp [BarKind.width]
  | io =>
    dsimp only
    rw [hOne]
    simp [BarKind.width, RegBank.write, RegBank.read, MaskedReg.probe]
  | mem64 =>
    dsimp only
    rw [hTwo]
    simp [BarKind.width, RegBank.write, RegBank.read, MaskedReg.probe]
  | mem32 =>
    dsimp only
    rw [hOne]
    simp [BarKind.width, RegBank.write, RegBank.read, MaskedReg.probe]

-- ---------------------------------------------------------------------------
-- BARs
-- ---------------------------------------------------------------------------

/-- The mask of the address bits of a block of `2 ^ order` bytes. -/
def sizeMask (order : Nat) : UInt32 := ~~~ UInt32.ofNat (2 ^ order - 1)

/-- An I/O BAR. A device that decodes 16 address bits may hard-wire the upper half
of the register to zero. -/
structure IoBar where
  base    : UInt32
  order   : Nat
  wide    : Bool
  two_le  : 2 ≤ order
  lt      : order < 32
  aligned : base.toNat % 2 ^ order = 0
  narrow  : wide = false → order ≤ 16 ∧ base.toNat < 2 ^ 16

/-- A 32-bit memory BAR; the flags are the type and the prefetchable bit. -/
structure MemBar32 where
  base     : UInt32
  flags    : UInt32
  order    : Nat
  four_le  : 4 ≤ order
  lt       : order < 32
  aligned  : base.toNat % 2 ^ order = 0
  flags_lt : flags.toNat < 2 ^ 4
  memory   : flags &&& 0x1 = 0
  not64    : (flags >>> 1) &&& 0x3 ≠ 0x2

/-- A 64-bit memory BAR. -/
structure MemBar64 where
  base     : UInt64
  flags    : UInt32
  order    : Nat
  four_le  : 4 ≤ order
  lt       : order < 64
  aligned  : base.toNat % 2 ^ order = 0
  flags_lt : flags.toNat < 2 ^ 4
  memory   : flags &&& 0x1 = 0
  is64     : (flags >>> 1) &&& 0x3 = 0x2

def IoBar.reg (b : IoBar) : MaskedReg :=
  ⟨b.base ||| 0x1, sizeMask b.order &&& if b.wide then 0xFFFFFFFF else 0xFFFF⟩

def MemBar32.reg (b : MemBar32) : MaskedReg := ⟨b.base ||| b.flags, sizeMask b.order⟩

/-- The address bits of both halves. -/
def MemBar64.mask (b : MemBar64) : UInt64 := ~~~ UInt64.ofNat (2 ^ b.order - 1)

def MemBar64.lowReg (b : MemBar64) : MaskedReg := ⟨b.base.toUInt32 ||| b.flags, b.mask.toUInt32⟩

def MemBar64.highReg (b : MemBar64) : MaskedReg :=
  ⟨(b.base >>> 32).toUInt32, (b.mask >>> 32).toUInt32⟩

inductive Bar
  | unimplemented
  | io (b : IoBar)
  | mem32 (b : MemBar32)
  | mem64 (b : MemBar64)

namespace Bar

def width : Bar → Nat
  | mem64 _ => 2
  | _ => 1

/-- The BAR is found in the registers from number `k` on. -/
def At (cfg : RegBank) (k : Nat) : Bar → Prop
  | unimplemented => cfg.read k = 0
  | io b => cfg k = b.reg
  | mem32 b => cfg k = b.reg
  | mem64 b => cfg k = b.lowReg ∧ cfg (k + 1) = b.highReg

/-- The resource of a memory BAR whose low register does not read as zero. -/
def memory? : Bar → Option Resource
  | mem32 b =>
    if b.reg.val = 0 then none
    else some ⟨.memoryMapped, b.base.toUInt64, UInt64.ofNat (2 ^ b.order)⟩
  | mem64 b => some ⟨.memoryMapped, b.base, UInt64.ofNat (2 ^ b.order)⟩
  | _ => none

/-- The length the loop computes for an I/O BAR. -/
def ioLen (b : IoBar) : UInt64 :=
  if b.wide then UInt64.ofNat (2 ^ b.order)
  else (UInt32.ofNat (0xFFFF0000 + 2 ^ b.order)).toUInt64

/-- What the loop records for the BAR. -/
def recorded : Bar → Option Resource
  | io b => some ⟨.io, b.base.toUInt64, ioLen b⟩
  | bar => bar.memory?

end Bar

/-- The registers from BAR register `i` to the sixth hold these BARs. -/
def Layout (cfg : RegBank) : Nat → List Bar → Prop
  | i, [] => i = 6
  | i, bar :: bars => bar.At cfg (4 + i) ∧ Layout cfg (i + bar.width) bars

-- ---------------------------------------------------------------------------
-- What a round makes of a BAR
-- ---------------------------------------------------------------------------

/-- The kind of a nonzero register follows from its flags. -/
theorem flag_bits (orig : UInt32) : orig &&& 0x1 = (orig &&& 0xF) &&& 0x1 ∧
    (orig >>> 1) &&& (0x3 : UInt32) = ((orig &&& 0xF) >>> 1) &&& (0x3 : UInt32) := by
  constructor
  · rw [UInt32.and_assoc]
    rfl
  · have hLow4 : ∀ n : Nat, n &&& 15 = n % 16 := fun n => Nat.and_two_pow_sub_one_eq_mod n 4
    have hLow2 : ∀ n : Nat, n &&& 3 = n % 4 := fun n => Nat.and_two_pow_sub_one_eq_mod n 2
    apply UInt32.toNat_inj.mp
    simp [Nat.shiftRight_eq_div_pow, hLow4, hLow2]
    omega

theorem ne_ones_of_even {orig : UInt32} (h : orig &&& 0x1 = 0) : orig ≠ 0xFFFFFFFF := by
  rintro rfl
  exact absurd h (by decide)

/-- The kind of a nonzero register with the flags of a memory BAR. -/
theorem barKind_of_flags {orig flags : UInt32} (hFlags : orig &&& 0xF = flags)
    (hMemory : flags &&& 0x1 = 0) (hNonzero : orig ≠ 0) :
    barKind orig = if (flags >>> 1) &&& (0x3 : UInt32) = 0x2 then .mem64 else .mem32 := by
  obtain ⟨hBit, hType⟩ := flag_bits orig
  rw [hFlags] at hBit hType
  have hEven : orig &&& 0x1 = 0 := hBit.trans hMemory
  have hNotIo : ¬ orig &&& 0x1 = 0x1 := by
    rw [hEven]
    decide
  have hAnswers : ¬ (orig = 0 ∨ orig = 0xFFFFFFFF) :=
    not_or.mpr ⟨hNonzero, ne_ones_of_even hEven⟩
  rw [barKind, if_neg hAnswers, if_neg hNotIo, hType]

/-- The two's complement of the mask, widened as in the source. -/
theorem not_sizeMask_add_one {order : Nat} (h : order < 32) :
    (~~~ sizeMask order + 1).toUInt64 = UInt64.ofNat (2 ^ order) := by
  have hSize : ~~~ sizeMask order + 1 = UInt32.ofNat (2 ^ order) := by
    rw [sizeMask, UInt32.not_not]
    exact UInt32.toBitVec_inj.mp (lowBits_add_one 32 order)
  have hLt : 2 ^ order < 2 ^ 32 := Nat.pow_lt_pow_right (by decide) h
  apply UInt64.toNat_inj.mp
  rw [hSize, UInt32.toNat_toUInt64, UInt32.toNat_ofNat', UInt64.toNat_ofNat',
    Nat.mod_eq_of_lt hLt, Nat.mod_eq_of_lt (hLt.trans (by decide))]

section MemBar32

variable (b : MemBar32)

theorem MemBar32.base_aligned : b.base.toBitVec &&& lowBits 32 b.order = 0 :=
  and_lowBits_eq_zero b.lt.le b.aligned

theorem MemBar32.flags_small : b.flags.toBitVec &&& ~~~ lowBits 32 4 = 0 :=
  and_not_lowBits_eq_zero b.flags_lt

theorem MemBar32.val_flags : b.reg.val &&& 0xF = b.flags :=
  UInt32.toBitVec_inj.mp (flags_eq b.base_aligned b.flags_small b.four_le)

theorem MemBar32.barKind_eq (h : b.reg.val ≠ 0) : barKind b.reg.val = .mem32 := by
  rw [barKind_of_flags b.val_flags b.memory h, if_neg b.not64]

theorem MemBar32.resource_eq : mem32Resource b.reg.val b.reg.probe =
    ⟨.memoryMapped, b.base.toUInt64, UInt64.ofNat (2 ^ b.order)⟩ := by
  have hAddr : b.reg.val &&& 0xFFFFFFF0 = b.base :=
    UInt32.toBitVec_inj.mp (address_eq b.base_aligned b.flags_small b.four_le)
  have hMask : b.reg.probe &&& ~~~ 0xF = sizeMask b.order := by
    rw [MaskedReg.probe_eq]
    refine UInt32.toBitVec_inj.mp
      (probe_eq b.flags_small b.four_le (not_lowBits_and_lowBits 32 b.order) ?_)
    show b.base.toBitVec &&& ~~~ (~~~ lowBits 32 b.order) = 0
    rw [BitVec.not_not]
    exact b.base_aligned
  rw [mem32Resource, hAddr, hMask, not_sizeMask_add_one b.lt]

end MemBar32

section MemBar64

variable (b : MemBar64)

/-- Both halves of a 64-bit register. -/
def joined (high low : UInt32) : UInt64 := (high.toUInt64 <<< 32) ||| low.toUInt64

theorem getElem_joined (high low : UInt32) {i : Nat} (hi : i < 64) :
    (joined high low).toBitVec[i] =
      if h : i < 32 then low.toBitVec[i] else high.toBitVec[i - 32] := by
  unfold joined
  by_cases hLow : i < 32
  · simp [hLow]
  · have hOff : i - 32 < 32 := by omega
    simp [hLow, BitVec.getLsbD_of_ge low.toBitVec i (by omega), BitVec.getLsbD_eq_getElem hOff]

theorem joined_halves (x : UInt64) : joined (x >>> 32).toUInt32 x.toUInt32 = x := by
  apply UInt64.toBitVec_inj.mp
  ext i hi
  rw [getElem_joined _ _ hi]
  by_cases hLow : i < 32
  · simp [hLow, BitVec.getLsbD_eq_getElem hi]
  · have hBack : 32 + (i - 32) = i := by omega
    simp [hLow, hBack, BitVec.getLsbD_eq_getElem hi]

/-- The flags as bits of the whole register. -/
theorem MemBar64.joined_val : joined b.highReg.val b.lowReg.val = b.base ||| b.flags.toUInt64 := by
  apply UInt64.toBitVec_inj.mp
  ext i hi
  rw [getElem_joined _ _ hi]
  by_cases hLow : i < 32
  · simp [MemBar64.lowReg, hLow, BitVec.getLsbD_eq_getElem hi]
  · have hBack : 32 + (i - 32) = i := by omega
    have hFlag : b.flags.toBitVec.getLsbD i = false := BitVec.getLsbD_of_ge _ _ (by omega)
    simp [MemBar64.highReg, hLow, hBack, hFlag, BitVec.getLsbD_eq_getElem hi]

theorem joined_probe (low high : MaskedReg) :
    joined high.probe low.probe =
      (joined high.val low.val &&& ~~~ joined high.rw_ low.rw_) ||| joined high.rw_ low.rw_ := by
  rw [MaskedReg.probe_eq, MaskedReg.probe_eq]
  apply UInt64.toBitVec_inj.mp
  ext i hi
  simp only [UInt64.toBitVec_or, UInt64.toBitVec_and, UInt64.toBitVec_not, BitVec.getElem_or,
    BitVec.getElem_and, BitVec.getElem_not, getElem_joined _ _ hi]
  by_cases hLow : i < 32
  · simp [hLow]
  · simp [hLow]

theorem joined_address (high low : UInt32) :
    (high.toUInt64 <<< 32) ||| (low.toUInt64 &&& 0xFFFFFFF0) = joined high low &&& ~~~ 0xF := by
  have hWide : low.toUInt64 &&& 0xFFFFFFF0 = (low &&& 0xFFFFFFF0).toUInt64 := by
    rw [UInt32.toUInt64_and]
    rfl
  have hMask32 : (0xFFFFFFF0 : UInt32).toBitVec = ~~~ lowBits 32 4 := rfl
  have hMask64 : (0xF : UInt64).toBitVec = lowBits 64 4 := rfl
  rw [hWide]
  apply UInt64.toBitVec_inj.mp
  ext i hi
  have hJoined := getElem_joined high (low &&& 0xFFFFFFF0) hi
  unfold joined at hJoined
  rw [hJoined, UInt64.toBitVec_and, UInt64.toBitVec_not, BitVec.getElem_and, BitVec.getElem_not,
    getElem_joined _ _ hi, hMask64, getElem_lowBits]
  by_cases hLow : i < 32
  · rw [dif_pos hLow, dif_pos hLow, UInt32.toBitVec_and, BitVec.getElem_and, hMask32,
      BitVec.getElem_not, getElem_lowBits]
  · have hHigh : ¬ i < 4 := by omega
    simp [hLow, hHigh]

theorem MemBar64.base_aligned : b.base.toBitVec &&& lowBits 64 b.order = 0 :=
  and_lowBits_eq_zero b.lt.le b.aligned

theorem MemBar64.flags_small : b.flags.toUInt64.toBitVec &&& ~~~ lowBits 64 4 = 0 :=
  and_not_lowBits_eq_zero (by
    show b.flags.toUInt64.toNat < 2 ^ 4
    rw [UInt32.toNat_toUInt64]
    exact b.flags_lt)

theorem MemBar64.val_flags : b.lowReg.val &&& 0xF = b.flags := by
  have hAligned : b.base.toNat % 2 ^ 4 = 0 :=
    Nat.mod_eq_zero_of_dvd
      (Nat.dvd_trans (Nat.pow_dvd_pow 2 b.four_le) (Nat.dvd_of_mod_eq_zero b.aligned))
  have hBase : b.base.toUInt32.toBitVec &&& lowBits 32 4 = 0 := by
    refine and_lowBits_eq_zero (by decide) ?_
    show b.base.toUInt32.toNat % 2 ^ 4 = 0
    rw [UInt64.toNat_toUInt32]
    omega
  have hFlags : b.flags.toBitVec &&& ~~~ lowBits 32 4 = 0 := and_not_lowBits_eq_zero b.flags_lt
  exact UInt32.toBitVec_inj.mp (flags_eq hBase hFlags le_rfl)

theorem MemBar64.barKind_eq : barKind b.lowReg.val = .mem64 := by
  have hNonzero : b.lowReg.val ≠ 0 := by
    intro hZero
    have hType := b.is64
    rw [← b.val_flags, hZero] at hType
    exact absurd hType (by decide)
  rw [barKind_of_flags b.val_flags b.memory hNonzero, if_pos b.is64]

theorem MemBar64.resource_eq :
    mem64Resource b.lowReg.val b.highReg.val b.lowReg.probe b.highReg.probe =
      ⟨.memoryMapped, b.base, UInt64.ofNat (2 ^ b.order)⟩ := by
  have hAddr : (b.highReg.val.toUInt64 <<< 32) ||| (b.lowReg.val.toUInt64 &&& 0xFFFFFFF0) =
      b.base := by
    rw [joined_address, b.joined_val]
    have hMask64 : (~~~ 0xF : UInt64).toBitVec = ~~~ lowBits 64 4 := rfl
    apply UInt64.toBitVec_inj.mp
    rw [UInt64.toBitVec_and, UInt64.toBitVec_or, hMask64]
    exact address_eq b.base_aligned b.flags_small b.four_le
  have hMask : joined b.highReg.probe b.lowReg.probe &&& ~~~ 0xF = b.mask := by
    rw [joined_probe, b.joined_val, show joined b.highReg.rw_ b.lowReg.rw_ = b.mask from
      joined_halves b.mask]
    refine UInt64.toBitVec_inj.mp
      (probe_eq b.flags_small b.four_le (not_lowBits_and_lowBits 64 b.order) ?_)
    show b.base.toBitVec &&& ~~~ (~~~ lowBits 64 b.order) = 0
    rw [BitVec.not_not]
    exact b.base_aligned
  have hSize : ~~~ b.mask + 1 = UInt64.ofNat (2 ^ b.order) := by
    rw [MemBar64.mask, UInt64.not_not]
    exact UInt64.toBitVec_inj.mp (lowBits_add_one 64 b.order)
  unfold joined at hMask
  rw [mem64Resource, hAddr, hMask, hSize]

end MemBar64

section IoBar

variable (b : IoBar)

theorem IoBar.base_aligned : b.base.toBitVec &&& lowBits 32 b.order = 0 :=
  and_lowBits_eq_zero b.lt.le b.aligned

/-- The flag that says I/O. -/
theorem ioFlag_small : (0x1 : UInt32).toBitVec &&& ~~~ lowBits 32 2 = 0 := by decide

theorem IoBar.val_flags : b.reg.val &&& 0x3 = 0x1 :=
  UInt32.toBitVec_inj.mp (flags_eq b.base_aligned ioFlag_small b.two_le)

theorem IoBar.barKind_eq : barKind b.reg.val = .io := by
  have hOdd : b.reg.val &&& 0x1 = 0x1 := by
    have hBit : b.reg.val &&& 0x1 = (b.reg.val &&& 0x3) &&& 0x1 := by
      rw [UInt32.and_assoc]
      rfl
    rw [hBit, b.val_flags]
    rfl
  -- bit 1 is reserved and reads as zero
  have hAnswers : ¬ (b.reg.val = 0 ∨ b.reg.val = 0xFFFFFFFF) := by
    rintro (hVal | hVal) <;>
      · have hFlags := b.val_flags
        rw [hVal] at hFlags
        exact absurd hFlags (by decide)
  rw [barKind, if_neg hAnswers, if_pos hOdd]

theorem IoBar.addr_eq : b.reg.val &&& 0xFFFFFFFC = b.base :=
  UInt32.toBitVec_inj.mp (address_eq b.base_aligned ioFlag_small b.two_le)

/-- The writable bits: those above the size, up to bit 15 if the register is narrow. -/
theorem IoBar.rw_bits {i : Nat} (hi : i < 32) :
    b.reg.rw_.toBitVec[i] = (!decide (i < b.order) && (b.wide || decide (i < 16))) := by
  have hOnes : (0xFFFFFFFF : UInt32).toBitVec = lowBits 32 32 := rfl
  have hHalf : (0xFFFF : UInt32).toBitVec = lowBits 32 16 := rfl
  show (~~~ lowBits 32 b.order &&& (if b.wide then 0xFFFFFFFF else 0xFFFF : UInt32).toBitVec)[i] = _
  rw [BitVec.getElem_and, BitVec.getElem_not, getElem_lowBits]
  cases b.wide with
  | true => rw [if_pos rfl, hOnes, getElem_lowBits, decide_eq_true hi, Bool.true_or]
  | false => rw [if_neg Bool.false_ne_true, hHalf, getElem_lowBits, Bool.false_or]

/-- The base needs no address bit beyond the writable ones. -/
theorem IoBar.base_writable : b.base.toBitVec &&& ~~~ b.reg.rw_.toBitVec = 0 := by
  ext i hi
  rw [BitVec.getElem_and, BitVec.getElem_not, b.rw_bits hi]
  by_cases hLow : i < b.order
  · simp [getElem_of_aligned b.base_aligned hi hLow]
  · cases hWide : b.wide with
    | true => simp [hLow]
    | false =>
      have hSmall : b.base.toBitVec &&& ~~~ lowBits 32 16 = 0 :=
        and_not_lowBits_eq_zero (b.narrow hWide).2
      by_cases hHalf : i < 16
      · simp [hLow, hHalf]
      · simp [getElem_of_small hSmall hi (Nat.not_lt.mp hHalf)]

theorem IoBar.mask_eq : b.reg.probe &&& 0xFFFFFFFC = b.reg.rw_ := by
  have hRw : b.reg.rw_.toBitVec &&& lowBits 32 b.order = 0 := by
    ext i hi
    rw [BitVec.getElem_and, b.rw_bits hi, getElem_lowBits]
    by_cases hLow : i < b.order
    · simp [hLow]
    · simp [hLow]
  rw [MaskedReg.probe_eq]
  exact UInt32.toBitVec_inj.mp (probe_eq ioFlag_small b.two_le hRw b.base_writable)

/-- With a hard-wired upper half the two's complement of the mask is too large. -/
theorem not_narrowMask_add_one {order : Nat} (h : order ≤ 16) :
    ~~~ (sizeMask order &&& 0xFFFF) + 1 = UInt32.ofNat (0xFFFF0000 + 2 ^ order) := by
  decide +revert

theorem IoBar.resource_eq :
    ioResource b.reg.val b.reg.probe = ⟨.io, b.base.toUInt64, Bar.ioLen b⟩ := by
  rw [ioResource, b.addr_eq, b.mask_eq, Bar.ioLen, IoBar.reg]
  cases hWide : b.wide with
  | true =>
    have hMask : sizeMask b.order &&& 0xFFFFFFFF = sizeMask b.order :=
      UInt32.toBitVec_inj.mp BitVec.and_allOnes
    dsimp only
    rw [if_pos rfl, if_pos rfl, hMask, not_sizeMask_add_one b.lt]
  | false =>
    dsimp only
    rw [if_neg Bool.false_ne_true, if_neg Bool.false_ne_true,
      not_narrowMask_add_one (b.narrow hWide).1]

end IoBar

-- ---------------------------------------------------------------------------
-- The loop on a layout
-- ---------------------------------------------------------------------------

/-- One round deals with one BAR. -/
theorem Bar.round {cfg : RegBank} {i : Nat} {bar : Bar} (h : bar.At cfg (4 + i)) :
    (barKind (cfg.read (4 + i))).width = bar.width ∧ barResource cfg i = bar.recorded := by
  cases bar with
  | unimplemented =>
    have hRead : cfg.read (4 + i) = 0 := h
    rw [barResource, hRead]
    exact ⟨rfl, rfl⟩
  | io b =>
    have hReg : cfg (4 + i) = b.reg := h
    rw [barResource, RegBank.read, hReg, b.barKind_eq]
    exact ⟨rfl, congrArg some b.resource_eq⟩
  | mem32 b =>
    have hReg : cfg (4 + i) = b.reg := h
    rw [barResource, RegBank.read, hReg]
    by_cases hZero : b.reg.val = 0
    · rw [hZero]
      exact ⟨rfl, (if_pos hZero).symm⟩
    · rw [b.barKind_eq hZero]
      exact ⟨rfl, (congrArg some b.resource_eq).trans (if_neg hZero).symm⟩
  | mem64 b =>
    obtain ⟨hLow, hHigh⟩ : cfg (4 + i) = b.lowReg ∧ cfg (4 + i + 1) = b.highReg := h
    rw [barResource, RegBank.read, RegBank.read, hLow, hHigh, b.barKind_eq]
    exact ⟨rfl, congrArg some b.resource_eq⟩

theorem Bar.width_pos (bar : Bar) : 0 < bar.width := by
  cases bar <;> exact Nat.succ_pos _

theorem Layout.length_le {cfg : RegBank} {i : Nat} {bars : List Bar} (h : Layout cfg i bars) :
    i + bars.length ≤ 6 := by
  induction bars generalizing i with
  | nil => exact le_of_eq h
  | cons bar bars ih =>
    have hRest := ih h.2
    have hPos := bar.width_pos
    rw [List.length_cons]
    omega

/-- **The BAR loop on a layout.** One round per BAR, until the index is 6. -/
theorem Layout.barRuns {cfg : RegBank} {i : Nat} {bars : List Bar} (h : Layout cfg i bars)
    (resources : List Resource) :
    BarRuns bars.length ⟨UInt8.ofNat i, resources, cfg⟩
      ⟨6, resources ++ bars.filterMap Bar.recorded, cfg⟩ := by
  induction bars generalizing i resources with
  | nil =>
    obtain rfl : i = 6 := h
    rw [List.filterMap_nil, List.append_nil]
    exact LoopRuns.done (show ¬ (6 : UInt8) < 6 by decide)
  | cons bar bars ih =>
    obtain ⟨hAt, hRest⟩ := h
    have hLen := Layout.length_le (show Layout cfg i (bar :: bars) from ⟨hAt, hRest⟩)
    rw [List.length_cons] at hLen ⊢
    obtain ⟨hWidth, hResource⟩ := Bar.round hAt
    refine LoopRuns.round (ofNat_lt_six (by omega)) ?_
    rw [barStep_regBank (by omega), hWidth, hResource]
    have hTail := ih hRest (resources ++ bar.recorded.toList)
    rw [List.append_assoc] at hTail
    cases hRec : bar.recorded with
    | none =>
      rw [hRec] at hTail
      rw [List.filterMap_cons_none hRec]
      exact hTail
    | some r =>
      rw [hRec] at hTail
      rw [List.filterMap_cons_some hRec]
      exact hTail

theorem readBars_layout {cfg : RegBank} {bars : List Bar} (h : Layout cfg 0 bars) :
    readBars cfg = (bars.filterMap Bar.recorded, cfg) := by
  have hLen := h.length_le
  exact (h.barRuns []).barLoop_eq (by omega)

theorem Bar.recorded_filter (bar : Bar) :
    bar.recorded.filter (fun r => r.kind = .memoryMapped) = bar.memory? := by
  cases bar with
  | unimplemented => rfl
  | io b => rfl
  | mem32 b =>
    show (Bar.memory? (.mem32 b)).filter _ = _
    unfold Bar.memory?
    by_cases hZero : b.reg.val = 0
    · simp [hZero]
    · simp [hZero]
  | mem64 b => rfl

theorem Layout.filter_memory {cfg : RegBank} {bars : List Bar} (h : Layout cfg 0 bars) :
    (readBars cfg).1.filter (fun r => r.kind = .memoryMapped) = bars.filterMap Bar.memory? := by
  rw [readBars_layout h, List.filter_filterMap]
  exact List.filterMap_congr fun bar _ => bar.recorded_filter

/-- **Memory BARs.** The loop stops after at most six rounds, has recorded the
memory BARs that answer with their base and size in register order, and has
put every register back. -/
theorem readBars_records_memory (cfg : RegBank) (bars : List Bar) (h : Layout cfg 0 bars) :
    (readBars cfg).1.filter (fun r => r.kind = .memoryMapped) = bars.filterMap Bar.memory? ∧
    (readBars cfg).2 = cfg ∧
    ∃ n ≤ 6, BarRuns n ⟨0, [], cfg⟩ ⟨6, (readBars cfg).1, (readBars cfg).2⟩ := by
  have hLen := h.length_le
  refine ⟨h.filter_memory, ?_, bars.length, by omega, ?_⟩
  · rw [readBars_layout h]
  · rw [readBars_layout h]
    exact h.barRuns []

/-- A prefetchable 64-bit BAR of 16 KiB above 4 GiB. -/
def sampleMem64 : MemBar64 where
  base := 0x3800000000
  flags := 0xC
  order := 14
  four_le := by decide
  lt := by decide
  aligned := by decide
  flags_lt := by decide
  memory := by decide
  is64 := by decide

/-- A 32-bit BAR of 4 KiB. -/
def sampleMem32 : MemBar32 where
  base := 0xFEBC1000
  flags := 0
  order := 12
  four_le := by decide
  lt := by decide
  aligned := by decide
  flags_lt := by decide
  memory := by decide
  not64 := by decide

/-- 32 ports at 0xC000. -/
def sampleIo (wide : Bool) : IoBar where
  base := 0xC000
  order := 5
  wide := wide
  two_le := by decide
  lt := by decide
  aligned := by decide
  narrow := fun _ => by decide

/-- The registers of a 64-bit BAR, an I/O BAR and a 32-bit BAR, and one that is not
implemented. -/
def sampleBars (wide : Bool) : List Bar :=
  [.mem64 sampleMem64, .io (sampleIo wide), .unimplemented, .mem32 sampleMem32, .unimplemented]

def sampleCfg (wide : Bool) : RegBank := fun k =>
  [sampleMem64.lowReg, sampleMem64.highReg, (sampleIo wide).reg, ⟨0, 0⟩,
    sampleMem32.reg].getD (k - 4) ⟨0, 0⟩

/-- The only function of a machine, at 00:00.0, and its ECAM window. -/
def machineOf (cfg : RegBank) : Machine RegBank where
  funcs  := fun a => if a = ⟨0, 0, 0, 0⟩ then cfg else fun _ => ⟨0xFFFFFFFF, 0⟩
  ecam   := fun phys => if phys = 0xB0000000 then some ⟨0, 0, 0, 0⟩ else none
  memory := fun _ => 0

theorem sampleCfg_layout (wide : Bool) : Layout (sampleCfg wide) 0 (sampleBars wide) :=
  ⟨⟨rfl, rfl⟩, rfl, rfl, rfl, rfl, rfl⟩

theorem readBars_records_memory_sampleCfg :
    Layout (sampleCfg true) 0 (sampleBars true) ∧
    (readBars (sampleCfg true)).1.filter (fun r => r.kind = .memoryMapped) =
      [⟨.memoryMapped, 0x3800000000, 0x4000⟩, ⟨.memoryMapped, 0xFEBC1000, 0x1000⟩] :=
  ⟨sampleCfg_layout true,
    (readBars_records_memory (sampleCfg true) (sampleBars true) (sampleCfg_layout true)).1⟩

-- ---------------------------------------------------------------------------
-- I/O BARs
-- ---------------------------------------------------------------------------

theorem Bar.ioLen_eq_iff (b : IoBar) : Bar.ioLen b = UInt64.ofNat (2 ^ b.order) ↔ b.wide = true := by
  unfold Bar.ioLen
  cases hWide : b.wide with
  | true => exact iff_of_true (if_pos rfl) rfl
  | false =>
    refine iff_of_false ?_ Bool.false_ne_true
    rw [if_neg Bool.false_ne_true]
    have hNarrow := (b.narrow hWide).1
    generalize b.order = order at hNarrow
    clear hWide
    decide +revert

/-- **I/O BARs.** The record of an I/O BAR stands behind those of the BARs before it.
It has the programmed base and the BAR's size exactly when the upper 16 address
bits of the BAR are writable. -/
theorem readBars_records_io_iff (cfg : RegBank) (before after : List Bar) (b : IoBar)
    (h : Layout cfg 0 (before ++ .io b :: after)) :
    (readBars cfg).1[(before.filterMap Bar.recorded).length]? =
        some ⟨.io, b.base.toUInt64, UInt64.ofNat (2 ^ b.order)⟩ ↔
      b.wide = true := by
  have hRecorded : (Bar.io b).recorded = some ⟨.io, b.base.toUInt64, Bar.ioLen b⟩ := rfl
  rw [readBars_layout h, List.filterMap_append, List.filterMap_cons_some hRecorded,
    List.getElem?_append_right le_rfl, Nat.sub_self, List.getElem?_cons_zero, Option.some.injEq,
    Resource.mk.injEq, ← Bar.ioLen_eq_iff]
  exact ⟨fun hEq => hEq.2.2, fun hEq => ⟨rfl, rfl, hEq⟩⟩

theorem readBars_records_io_sampleCfg :
    Layout (sampleCfg true) 0 (sampleBars true) ∧
    (readBars (sampleCfg true)).1[1]? = some ⟨.io, 0xC000, 32⟩ :=
  ⟨sampleCfg_layout true,
    (readBars_records_io_iff (sampleCfg true) [.mem64 sampleMem64]
      [.unimplemented, .mem32 sampleMem32, .unimplemented] (sampleIo true)
      (sampleCfg_layout true)).mpr rfl⟩

/-- A device that decodes 16 address bits gets a length of almost 4 GiB. -/
theorem narrow_io_length :
    Layout (sampleCfg false) 0 (sampleBars false) ∧
    (readBars (sampleCfg false)).1[1]? = some ⟨.io, 0xC000, 0xFFFF0020⟩ :=
  ⟨sampleCfg_layout false, by rw [readBars_layout (sampleCfg_layout false)]; rfl⟩

end Neutrix.Pci
