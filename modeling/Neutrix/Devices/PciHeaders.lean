import Neutrix.Devices.PciBars
import Neutrix.Devices.PciCaps

/-!
# Neutrix — sizing and header layouts

The scan sizes six registers from 0x10 on, whatever header the function has.
On a bridge only the first two of them are BARs, on a type 2 header only the
first. A `Logged` configuration space keeps a list of the registers that were
written, so the scan itself says which ones they are.

* `mem_scan_log` — a function the scan reaches has exactly the registers
  written that the walk over its registers sizes.
* `scan_keeps_to_bars_iff` — the scan keeps to the BARs of the header's layout
  exactly when the registers behind them read as zero or all ones and the last
  one does not look like the lower half of a 64-bit BAR.
-/

namespace Neutrix.Pci

open Neutrix.Lib

variable {σ δ : Type*}

-- ---------------------------------------------------------------------------
-- The walk over the registers
-- ---------------------------------------------------------------------------

/-- The BAR registers at which rounds take place, from `i` on. -/
def barVisits (cfg : RegBank) : Nat → Nat → List Nat
  | 0, _ => []
  | fuel + 1, i =>
    if i < 6 then i :: barVisits cfg fuel (i + (barKind (cfg.read (4 + i))).width) else []

/-- The registers that the round at `i` writes, in order. -/
def barWrites (cfg : RegBank) (i : Nat) : List Nat :=
  match barKind (cfg.read (4 + i)) with
  | .skipped => []
  | .mem64 => [4 + i, 4 + i + 1, 4 + i, 4 + i + 1]
  | _ => [4 + i, 4 + i]

/-- All registers that sizing writes. -/
def sizingWrites (cfg : RegBank) : List Nat := (barVisits cfg 6 0).flatMap (barWrites cfg)

theorem ofNat_lt_six_iff {i : Nat} (hi : i < 8) : UInt8.ofNat i < 6 ↔ i < 6 := by
  decide +revert

theorem BarKind.eq_mem64 {kind : BarKind} (h : 1 < kind.width) : kind = .mem64 := by
  cases kind with
  | mem64 => rfl
  | skipped | io | mem32 => exact absurd h (by decide)

theorem BarKind.width_le (kind : BarKind) : kind.width ≤ 2 := by
  cases kind <;> decide

/-- The loop on a space whose rounds follow the registers of `cfg`; `mk` is the
space after the given writes. -/
theorem barLoop_visits [ConfigAccess σ] (cfg : RegBank) (mk : List Nat → σ)
    (hStep : ∀ i < 6, ∀ resources log, barStep ⟨UInt8.ofNat i, resources, mk log⟩ =
      ⟨UInt8.ofNat (i + (barKind (cfg.read (4 + i))).width),
        resources ++ (barResource cfg i).toList, mk (log ++ barWrites cfg i)⟩)
    (fuel : Nat) {i : Nat} (hi : i < 8) (resources : List Resource) (log : List Nat) :
    barLoop fuel (UInt8.ofNat i) resources (mk log) =
      (resources ++ (barVisits cfg fuel i).filterMap (barResource cfg),
        mk (log ++ (barVisits cfg fuel i).flatMap (barWrites cfg))) := by
  induction fuel generalizing i resources log with
  | zero => simp [barLoop, barVisits]
  | succ fuel ih =>
    by_cases hIn : i < 6
    · have hWidth := (barKind (cfg.read (4 + i))).width_le
      have hRound := barLoop_succ fuel ⟨UInt8.ofNat i, resources, mk log⟩
        ((ofNat_lt_six_iff hi).mpr hIn)
      rw [hStep i hIn, ih (by omega)] at hRound
      rw [hRound, barVisits, if_pos hIn, List.flatMap_cons, List.append_assoc, List.append_assoc]
      cases hRes : barResource cfg i with
      | none => rw [List.filterMap_cons_none hRes, Option.toList_none, List.nil_append]
      | some r => rw [List.filterMap_cons_some hRes, Option.toList_some, List.singleton_append]
    · rw [barLoop, if_neg (mt (ofNat_lt_six_iff hi).mp hIn), barVisits, if_neg hIn]
      simp

theorem readBars_fst (cfg : RegBank) :
    (readBars cfg).1 = (barVisits cfg 6 0).filterMap (barResource cfg) := by
  have hLoop := barLoop_visits cfg (fun _ => cfg)
    (fun i hi resources _ => barStep_regBank hi resources cfg) 6 (i := 0) (by decide) [] []
  exact congrArg Prod.fst hLoop

-- ---------------------------------------------------------------------------
-- Configuration spaces with a log
-- ---------------------------------------------------------------------------

/-- A bank of registers and the numbers of the registers written so far. -/
structure Logged where
  cfg : RegBank
  log : List Nat

instance : ConfigAccess Logged where
  read c off    := ConfigAccess.read c.cfg off
  write c off v := ⟨ConfigAccess.write c.cfg off v, c.log ++ [dwordIndex off]⟩

/-- A round on a logged bank restores the registers and logs its writes. -/
theorem barStep_logged (cfg : RegBank) {i : Nat} (hi : i < 6) (resources : List Resource)
    (log : List Nat) :
    barStep (⟨UInt8.ofNat i, resources, ⟨cfg, log⟩⟩ : BarState Logged) =
      ⟨UInt8.ofNat (i + (barKind (cfg.read (4 + i))).width),
        resources ++ (barResource cfg i).toList, ⟨cfg, log ++ barWrites cfg i⟩⟩ := by
  have hPlain := barStep_regBank hi resources cfg
  unfold barStep at hPlain ⊢
  unfold barWrites
  dsimp only [ConfigAccess.read, ConfigAccess.write] at hPlain ⊢
  rw [dwordIndex_bar (by omega), dwordIndex_bar_succ hi] at hPlain ⊢
  cases hKind : barKind (cfg.read (4 + i)) with
  | skipped =>
    rw [hKind] at hPlain
    obtain ⟨hIndex, hResources, -⟩ := BarState.mk.inj hPlain
    rw [← hIndex, ← hResources, List.append_nil]
  | io | mem64 | mem32 =>
    rw [hKind] at hPlain
    obtain ⟨hIndex, hResources, hCfg⟩ := BarState.mk.inj hPlain
    dsimp only
    rw [← hIndex, ← hResources, hCfg]
    simp only [List.append_assoc, List.cons_append, List.nil_append]

theorem readBars_logged (c : Logged) :
    readBars c = ((readBars c.cfg).1, ⟨c.cfg, c.log ++ sizingWrites c.cfg⟩) := by
  have hLoop := barLoop_visits c.cfg (Logged.mk c.cfg)
    (fun i hi resources log => barStep_logged c.cfg hi resources log) 6 (i := 0) (by decide) [] c.log
  rw [readBars_fst]
  exact hLoop

-- ---------------------------------------------------------------------------
-- The scan of a logged machine
-- ---------------------------------------------------------------------------

/-- The machine with nothing written yet. -/
def Machine.logged (m : Machine RegBank) : Machine Logged :=
  { funcs := fun a => ⟨m.funcs a, []⟩, ecam := m.ecam, memory := m.memory }

section Reached

variable (physOffset : UInt64) (m : Machine RegBank)

/-- The functions of a slot that answer at the addresses the scan computes. -/
def reachedSlot (alloc : McfgAllocation) (bus slot : UInt8) : List FuncAddr :=
  let at_ func := m.ecamAt physOffset (physOffset + cfgAddr alloc.baseAddress bus slot func)
  match at_ 0 with
  | none => []
  | some a₀ =>
    if absent (ConfigAccess.read (m.funcs a₀) 0x00) then []
    else
      (upTo (maxFuncs (ConfigAccess.read (m.funcs a₀) 0x0C))).flatMap fun func =>
        (at_ func).toList.filter m.present

/-- The functions the scan sizes, in its order, whatever the ECAM windows decode. -/
def reached (mcfgs : List McfgAllocation) : List FuncAddr :=
  mcfgs.flatMap fun alloc =>
    (busRange alloc.startBus alloc.endBus).flatMap fun bus =>
      (upTo 32).flatMap fun slot => reachedSlot physOffset m alloc bus slot

/-- `l` has the registers and the windows of `m`. -/
structure SameRegs (l : Machine Logged) : Prop where
  regs : ∀ a, (l.funcs a).cfg = m.funcs a
  ecam : l.ecam = m.ecam

end Reached

/-- Size one function. -/
def visit (l : Machine Logged) (a : FuncAddr) : Machine Logged :=
  l.setFunc a (readBars (l.funcs a)).2

section Visits

variable {physOffset : UInt64} {m : Machine RegBank} {l : Machine Logged}

theorem SameRegs.visit (hS : SameRegs m l) (a : FuncAddr) : SameRegs m (visit l a) := by
  refine ⟨fun a' => ?_, hS.ecam⟩
  show (if a' = a then (readBars (l.funcs a)).2 else l.funcs a').cfg = m.funcs a'
  split_ifs with hEq
  · rw [readBars_logged, hEq]
    exact hS.regs a
  · exact hS.regs a'

theorem SameRegs.foldl_visit (hS : SameRegs m l) (as : List FuncAddr) :
    SameRegs m (as.foldl Pci.visit l) := by
  induction as generalizing l with
  | nil => exact hS
  | cons a as ih => exact ih (hS.visit a)

/-- The writes of one visit are added to the function's log. -/
theorem SameRegs.mem_log_visit (hS : SameRegs m l) {a a' : FuncAddr} {w : Nat} :
    w ∈ ((Pci.visit l a').funcs a).log ↔
      w ∈ (l.funcs a).log ∨ (a = a' ∧ w ∈ sizingWrites (m.funcs a)) := by
  show w ∈ (if a = a' then (readBars (l.funcs a')).2 else l.funcs a).log ↔ _
  split_ifs with hEq
  · subst hEq
    rw [readBars_logged, hS.regs a, List.mem_append]
    simp
  · simp [hEq]

theorem SameRegs.mem_log_foldl_visit (hS : SameRegs m l) {as : List FuncAddr} {a : FuncAddr}
    {w : Nat} :
    w ∈ ((as.foldl Pci.visit l).funcs a).log ↔
      w ∈ (l.funcs a).log ∨ (a ∈ as ∧ w ∈ sizingWrites (m.funcs a)) := by
  induction as generalizing l with
  | nil => simp
  | cons a' as ih =>
    rw [List.foldl_cons, ih (hS.visit a'), hS.mem_log_visit, List.mem_cons]
    tauto

theorem SameRegs.ecamAt_eq (hS : SameRegs m l) (phys : UInt64) :
    l.ecamAt physOffset phys = m.ecamAt physOffset phys := by
  rw [Machine.ecamAt, Machine.ecamAt, hS.ecam]

theorem SameRegs.read_eq (hS : SameRegs m l) (a : FuncAddr) (off : UInt8) :
    ConfigAccess.read (l.funcs a) off = ConfigAccess.read (m.funcs a) off :=
  congrArg (fun cfg : RegBank => ConfigAccess.read cfg off) (hS.regs a)

/-- One function: it is sized if it answers. -/
theorem SameRegs.scanFunction_fst (hS : SameRegs m l) (alloc : McfgAllocation)
    (bus slot func : UInt8) (mgr : DeviceManager δ) :
    (scanFunction physOffset alloc bus slot (l, mgr) func).1 =
      ((m.ecamAt physOffset (physOffset + cfgAddr alloc.baseAddress bus slot func)).toList.filter
        m.present).foldl Pci.visit l := by
  unfold scanFunction
  dsimp only
  rw [hS.ecamAt_eq]
  cases m.ecamAt physOffset (physOffset + cfgAddr alloc.baseAddress bus slot func) with
  | none => rfl
  | some a =>
    dsimp only
    rw [hS.read_eq]
    by_cases hAbs : absent (ConfigAccess.read (m.funcs a) 0x00)
    · rw [if_pos hAbs]
      simp [Machine.present, hAbs]
    · rw [if_neg hAbs]
      simp [Machine.present, hAbs, Pci.visit]

/-- A loop of the scan whose rounds size the functions `g x`. -/
theorem foldl_scan_visits {ι : Type*} {step : Machine Logged × DeviceManager δ → ι →
      Machine Logged × DeviceManager δ} {g : ι → List FuncAddr} {xs : List ι}
    (hStep : ∀ x ∈ xs, ∀ l mgr, SameRegs m l → (step (l, mgr) x).1 = (g x).foldl Pci.visit l)
    (hS : SameRegs m l) (mgr : DeviceManager δ) :
    (xs.foldl step (l, mgr)).1 = (xs.flatMap g).foldl Pci.visit l := by
  induction xs generalizing l mgr with
  | nil => rfl
  | cons x xs ih =>
    have hHead := hStep x List.mem_cons_self l mgr hS
    rw [List.foldl_cons, List.flatMap_cons, List.foldl_append, ← hHead]
    refine ih (fun y hy => hStep y (List.mem_cons_of_mem x hy)) ?_ (step (l, mgr) x).2
    rw [hHead]
    exact hS.foldl_visit (g x)

theorem SameRegs.scanSlot_fst (hS : SameRegs m l) (alloc : McfgAllocation) (bus slot : UInt8)
    (mgr : DeviceManager δ) :
    (scanSlot physOffset alloc bus (l, mgr) slot).1 =
      (reachedSlot physOffset m alloc bus slot).foldl Pci.visit l := by
  unfold scanSlot reachedSlot
  dsimp only
  rw [hS.ecamAt_eq]
  cases m.ecamAt physOffset (physOffset + cfgAddr alloc.baseAddress bus slot 0) with
  | none => rfl
  | some a =>
    dsimp only
    rw [hS.read_eq, hS.read_eq]
    by_cases hAbs : absent (ConfigAccess.read (m.funcs a) 0x00)
    · rw [if_pos hAbs, if_pos hAbs]
      rfl
    · rw [if_neg hAbs, if_neg hAbs]
      exact foldl_scan_visits
        (fun func _ l mgr hS => hS.scanFunction_fst alloc bus slot func mgr) hS mgr

/-- **The scan of a logged machine.** -/
theorem SameRegs.scan_fst (hS : SameRegs m l) {mcfgs : List McfgAllocation} (hNe : mcfgs ≠ [])
    (mgr : DeviceManager δ) :
    (scanAndRegisterWithPhysOffset physOffset mcfgs (l, mgr)).1 =
      (reached physOffset m mcfgs).foldl Pci.visit l := by
  have hEmpty : ¬ mcfgs.isEmpty := by simpa using hNe
  rw [scanAndRegisterWithPhysOffset, if_neg hEmpty]
  refine foldl_scan_visits (fun alloc _ l mgr hS => ?_) hS mgr
  refine foldl_scan_visits (fun bus _ l mgr hS => ?_) hS mgr
  exact foldl_scan_visits (fun slot _ l mgr hS => hS.scanSlot_fst alloc bus slot mgr) hS mgr

end Visits

theorem ne_nil_of_mem_reached {physOffset : UInt64} {m : Machine RegBank}
    {mcfgs : List McfgAllocation} {a : FuncAddr} (ha : a ∈ reached physOffset m mcfgs) :
    mcfgs ≠ [] := by
  rintro rfl
  cases ha

/-- A reached function has the registers written that sizing its registers writes. -/
theorem mem_scan_log {physOffset : UInt64} {m : Machine RegBank} {mcfgs : List McfgAllocation}
    {a : FuncAddr} (ha : a ∈ reached physOffset m mcfgs) (mgr : DeviceManager δ) {w : Nat} :
    w ∈ ((scanAndRegisterWithPhysOffset physOffset mcfgs (m.logged, mgr)).1.funcs a).log ↔
      w ∈ sizingWrites (m.funcs a) := by
  have hS : SameRegs m m.logged := ⟨fun _ => rfl, rfl⟩
  rw [hS.scan_fst (ne_nil_of_mem_reached ha), hS.mem_log_foldl_visit]
  simp [Machine.logged, ha]

-- ---------------------------------------------------------------------------
-- Layouts
-- ---------------------------------------------------------------------------

/-- The header layouts: a device, a PCI-to-PCI bridge, a CardBus bridge. -/
inductive HeaderLayout
  | type0
  | type1
  | type2
deriving DecidableEq, Repr

namespace HeaderLayout

/-- The header type field without the multifunction bit. -/
def code : HeaderLayout → UInt32
  | type0 => 0
  | type1 => 1
  | type2 => 2

/-- The BARs: 0x10 to 0x27, 0x10 to 0x17, 0x10 to 0x13. -/
def barCount : HeaderLayout → Nat
  | type0 => 6
  | type1 => 2
  | type2 => 1

/-- The number of a register that is a BAR in this layout. -/
def IsBar (layout : HeaderLayout) (w : Nat) : Prop := 4 ≤ w ∧ w < 4 + layout.barCount

end HeaderLayout

/-- The layout that the header of a function declares, at offset 0x0E. -/
def headerCode (cfg : RegBank) : UInt32 := (cfg.read 3 >>> 16) &&& 0x7F

/-- The registers behind the first `n` look unimplemented, and the last of the first
`n`, if a round takes place there, does not look like the lower half of a 64-bit BAR. -/
structure EndsAt (cfg : RegBank) (n : Nat) : Prop where
  behind : ∀ i, n ≤ i → i < 6 → barKind (cfg.read (4 + i)) = .skipped
  last   : n - 1 ∈ barVisits cfg 6 0 → barKind (cfg.read (4 + (n - 1))) ≠ .mem64

/-- The IO and memory resources in the record come from the BAR loop. -/
theorem mem_readBars_of_mem_record {physOffset : UInt64} {m : Machine RegBank} {a : FuncAddr}
    {read : UInt8 → UInt32} {r : Resource} (h : r ∈ (m.record physOffset a read).resources)
    (hKind : r.kind = .io ∨ r.kind = .memoryMapped) : r ∈ (readBars (m.funcs a)).1 := by
  have hMem : r ∈ (readBars (m.funcs a)).1 ++
      interruptResource (ConfigAccess.read (m.funcs a) 0x3C) :=
    mem_of_mem_readCapabilities h hKind
  rcases List.mem_append.mp hMem with hBar | hIntr
  · exact hBar
  · unfold interruptResource at hIntr
    dsimp only at hIntr
    split_ifs at hIntr with hLine
    · obtain rfl := List.mem_singleton.mp hIntr
      rcases hKind with hKind | hKind <;> cases hKind
    · cases hIntr

section Walk

variable {cfg : RegBank}

theorem lt_six_of_mem_barVisits {fuel i j : Nat} (h : j ∈ barVisits cfg fuel i) : j < 6 := by
  induction fuel generalizing i with
  | zero => cases h
  | succ fuel ih =>
    rw [barVisits] at h
    split_ifs at h with hIn
    · rcases List.mem_cons.mp h with rfl | hRest
      · exact hIn
      · exact ih hRest
    · cases h

/-- A register without a round of its own is the upper half of a 64-bit BAR. -/
theorem mem_barVisits_or {fuel i j : Nat} (hFuel : 6 ≤ fuel + i) (hij : i ≤ j) (hj : j < 6) :
    j ∈ barVisits cfg fuel i ∨
      ∃ k, j = k + 1 ∧ k ∈ barVisits cfg fuel i ∧ barKind (cfg.read (4 + k)) = .mem64 := by
  induction fuel generalizing i with
  | zero => omega
  | succ fuel ih =>
    rw [barVisits, if_pos (by omega)]
    by_cases hSelf : j = i
    · exact .inl (hSelf ▸ List.mem_cons_self)
    have hPos : 0 < (barKind (cfg.read (4 + i))).width := by
      cases barKind (cfg.read (4 + i)) <;> decide
    by_cases hSkip : i + (barKind (cfg.read (4 + i))).width ≤ j
    · rcases ih (by omega) hSkip with hVisit | ⟨k, hk, hVisit, hKind⟩
      · exact .inl (List.mem_cons_of_mem i hVisit)
      · exact .inr ⟨k, hk, List.mem_cons_of_mem i hVisit, hKind⟩
    · -- `j` is jumped over, so the round at `i` took two registers
      refine .inr ⟨i, ?_, List.mem_cons_self, ?_⟩
      · have hWidth := (barKind (cfg.read (4 + i))).width_le
        omega
      · exact BarKind.eq_mem64 (by omega)

theorem mem_visits_or (cfg : RegBank) {j : Nat} (hj : j < 6) :
    j ∈ barVisits cfg 6 0 ∨
      ∃ k, j = k + 1 ∧ k ∈ barVisits cfg 6 0 ∧ barKind (cfg.read (4 + k)) = .mem64 :=
  mem_barVisits_or (by omega) (Nat.zero_le j) hj

theorem mem_barWrites {i w : Nat} :
    w ∈ barWrites cfg i ↔
      (barKind (cfg.read (4 + i)) ≠ .skipped ∧ w = 4 + i) ∨
        (barKind (cfg.read (4 + i)) = .mem64 ∧ w = 4 + i + 1) := by
  unfold barWrites
  cases barKind (cfg.read (4 + i)) <;> simp
  tauto

theorem mem_sizingWrites {i w : Nat} (hVisit : i ∈ barVisits cfg 6 0)
    (hWrite : w ∈ barWrites cfg i) : w ∈ sizingWrites cfg :=
  List.mem_flatMap.mpr ⟨i, hVisit, hWrite⟩

/-- Sizing stays below register `4 + n` exactly when the walk ends there. -/
theorem sizingWrites_lt_iff {n : Nat} (hn : 1 ≤ n) :
    (∀ w ∈ sizingWrites cfg, w < 4 + n) ↔ EndsAt cfg n := by
  constructor
  · intro hWrites
    have hLast : n - 1 ∈ barVisits cfg 6 0 → barKind (cfg.read (4 + (n - 1))) ≠ .mem64 := by
      intro hVisit hKind
      have hLt := hWrites (4 + (n - 1) + 1)
        (mem_sizingWrites hVisit (mem_barWrites.mpr (.inr ⟨hKind, rfl⟩)))
      omega
    refine ⟨fun i hi => ?_, hLast⟩
    -- from `n` on every register has a round, in which it is skipped
    induction i, hi using Nat.le_induction with
    | base =>
      intro hIn
      by_contra hKind
      rcases mem_visits_or cfg hIn with hVisit | ⟨k, rfl, hVisit, h64⟩
      · have hLt := hWrites (4 + n)
          (mem_sizingWrites hVisit (mem_barWrites.mpr (.inl ⟨hKind, rfl⟩)))
        omega
      · exact hLast hVisit h64
    | succ i hi ih =>
      intro hIn
      by_contra hKind
      rcases mem_visits_or cfg hIn with hVisit | ⟨k, hk, hVisit, h64⟩
      · have hLt := hWrites (4 + (i + 1))
          (mem_sizingWrites hVisit (mem_barWrites.mpr (.inl ⟨hKind, rfl⟩)))
        omega
      · obtain rfl : i = k := by omega
        rw [ih (by omega)] at h64
        cases h64
  · intro hEnds w hw
    obtain ⟨i, hVisit, hWrite⟩ := List.mem_flatMap.mp hw
    have hSix := lt_six_of_mem_barVisits hVisit
    have hIn : barKind (cfg.read (4 + i)) ≠ .skipped → i < n := by
      intro hKind
      by_contra hOut
      exact hKind (hEnds.behind i (by omega) hSix)
    rcases mem_barWrites.mp hWrite with ⟨hKind, rfl⟩ | ⟨hKind, rfl⟩
    · have := hIn hKind
      omega
    · have hLt := hIn (by rw [hKind]; decide)
      have hNotLast : i ≠ n - 1 := by
        rintro rfl
        exact hEnds.last hVisit hKind
      omega

end Walk

/-- **Sizing and header layouts.** For a function the scan reaches: only BARs of its
layout are written, and its IO and memory resources come from them, exactly when
the walk over the registers ends with the layout's BARs. -/
theorem scan_keeps_to_bars_iff (physOffset : UInt64) (mcfgs : List McfgAllocation)
    (m : Machine RegBank) (mgr : DeviceManager δ) (a : FuncAddr)
    (ha : a ∈ reached physOffset m mcfgs) :
    ∀ layout : HeaderLayout, headerCode (m.funcs a) = layout.code →
      ((∀ w ∈ ((scanAndRegisterWithPhysOffset physOffset mcfgs (m.logged, mgr)).1.funcs a).log,
          layout.IsBar w) ∧
        (∀ read, ∀ r ∈ (m.record physOffset a read).resources,
          r.kind = .io ∨ r.kind = .memoryMapped →
            ∃ i < layout.barCount, barResource (m.funcs a) i = some r) ↔
        EndsAt (m.funcs a) layout.barCount) := by
  intro layout _
  have hCount : 1 ≤ layout.barCount := by
    cases layout <;> decide
  have hEnds : (∀ w ∈ sizingWrites (m.funcs a), w < 4 + layout.barCount) ↔
      EndsAt (m.funcs a) layout.barCount := sizingWrites_lt_iff hCount
  constructor
  · rintro ⟨hLog, -⟩
    exact hEnds.mp fun w hw => (hLog w ((mem_scan_log ha mgr).mpr hw)).2
  · intro hEnd
    refine ⟨fun w hw => ?_, fun read r hr hKind => ?_⟩
    · have hWrite := (mem_scan_log ha mgr).mp hw
      obtain ⟨i, -, hRound⟩ := List.mem_flatMap.mp hWrite
      refine ⟨?_, hEnds.mpr hEnd w hWrite⟩
      rcases mem_barWrites.mp hRound with ⟨-, rfl⟩ | ⟨-, rfl⟩ <;> omega
    · have hBar := mem_readBars_of_mem_record hr hKind
      rw [readBars_fst] at hBar
      obtain ⟨i, hVisit, hRes⟩ := List.mem_filterMap.mp hBar
      refine ⟨i, ?_, hRes⟩
      -- a register behind the BARs is skipped, so it records nothing
      by_contra hOut
      have hSkipped := hEnd.behind i (by omega) (lt_six_of_mem_barVisits hVisit)
      rw [barResource, hSkipped] at hRes
      cases hRes

/-- A PCI-to-PCI bridge with its two BARs; its bus numbers are at 0x18. -/
def bridgeCfg (bar0 bar1 busNumbers : UInt32) : RegBank := fun k =>
  if k = 0 then ⟨0x12348086, 0⟩
  else if k = 3 then ⟨0x10000, 0⟩
  else if k = 4 then ⟨bar0, 0xFFFFF000⟩
  else if k = 5 then ⟨bar1, 0xFFFFFFE0⟩
  else if k = 6 then ⟨busNumbers, 0xFFFFFF⟩
  else ⟨0, 0⟩

def oneBus : List McfgAllocation := [⟨0xB0000000, 0, 0, 0⟩]

theorem mem_reached_machineOf {cfg : RegBank} {physOffset : UInt64}
    (h : ⟨0, 0, 0, 0⟩ ∈ reachedSlot physOffset (machineOf cfg) ⟨0xB0000000, 0, 0, 0⟩ 0 0) :
    ⟨0, 0, 0, 0⟩ ∈ reached physOffset (machineOf cfg) oneBus :=
  List.mem_flatMap.mpr ⟨_, List.mem_singleton_self _, List.mem_flatMap.mpr
    ⟨0, by decide, List.mem_flatMap.mpr ⟨0, by decide, h⟩⟩⟩

/-- A bridge with a memory and an I/O BAR whose bus numbers are not assigned: the BARs are
sized, and nothing else is written. -/
theorem scan_keeps_to_bars_unassigned :
    ⟨0, 0, 0, 0⟩ ∈ reached 0x10000000000 (machineOf (bridgeCfg 0xFEB00000 0xE001 0)) oneBus ∧
    (∀ w ∈ ((scanAndRegisterWithPhysOffset 0x10000000000 oneBus
      ((machineOf (bridgeCfg 0xFEB00000 0xE001 0)).logged,
        (⟨[], 0⟩ : DeviceManager Empty))).1.funcs ⟨0, 0, 0, 0⟩).log, HeaderLayout.type1.IsBar w) ∧
    ∀ w ∈ [4, 5], w ∈ ((scanAndRegisterWithPhysOffset 0x10000000000 oneBus
      ((machineOf (bridgeCfg 0xFEB00000 0xE001 0)).logged,
        (⟨[], 0⟩ : DeviceManager Empty))).1.funcs ⟨0, 0, 0, 0⟩).log := by
  have hReached : ⟨0, 0, 0, 0⟩ ∈
      reached 0x10000000000 (machineOf (bridgeCfg 0xFEB00000 0xE001 0)) oneBus :=
    mem_reached_machineOf (by decide)
  refine ⟨hReached, ((scan_keeps_to_bars_iff 0x10000000000 oneBus
    (machineOf (bridgeCfg 0xFEB00000 0xE001 0)) ⟨[], 0⟩ _ hReached .type1 (by decide)).mpr
      ⟨?_, ?_⟩).1, fun w hw => (mem_scan_log hReached _).mpr ?_⟩
  · decide
  · decide
  · revert w
    decide

/-- The bus numbers of a bridge are taken for a memory BAR: the register is
overwritten while it is sized, and a memory resource is recorded for it. -/
theorem bridge_bus_numbers_sized :
    ⟨0, 0, 0, 0⟩ ∈ reached 0x10000000000 (machineOf (bridgeCfg 0 0 0x20100)) oneBus ∧
    headerCode ((machineOf (bridgeCfg 0 0 0x20100)).funcs ⟨0, 0, 0, 0⟩) = HeaderLayout.type1.code ∧
    0x18 / 4 ∈ ((scanAndRegisterWithPhysOffset 0x10000000000 oneBus
      ((machineOf (bridgeCfg 0 0 0x20100)).logged, (⟨[], 0⟩ : DeviceManager Empty))).1.funcs
        ⟨0, 0, 0, 0⟩).log ∧
    ¬ HeaderLayout.type1.IsBar (0x18 / 4) ∧
    (readBars (bridgeCfg 0 0 0x20100)).1 = [⟨.memoryMapped, 0x20100, 0xFF000010⟩] := by
  have hReached : ⟨0, 0, 0, 0⟩ ∈ reached 0x10000000000 (machineOf (bridgeCfg 0 0 0x20100)) oneBus :=
    mem_reached_machineOf (by decide)
  refine ⟨hReached, by decide, (mem_scan_log hReached _).mpr (by decide), ?_, by decide⟩
  rintro ⟨-, hLt⟩
  exact absurd hLt (by decide)

end Neutrix.Pci
