import Neutrix.Drivers.Attachable
import Neutrix.Drivers.MouseResync
import Neutrix.Hal.Delivery
import Neutrix.Lib.Interrupts
import Neutrix.Lib.Run

/-!
# Neutrix — the mouse's interrupt line

A byte of the mouse goes a long way to `irq_handler`. The controller puts it
into its output buffer and raises the line; the IOAPIC turns the edge into the
vector of its redirection entry; the local APIC keeps the vector until the
processor takes it; the interrupt table leads to a handler; and only the
handler's read lets the controller put the next byte into its buffer. So an
edge that gets lost stops the mouse for good, and the IOAPIC drops an edge
whose entry is masked.

Here all of these run together with the thread of `kernel_main` and with other
devices, in any order. `Wiring` is what boot has set up, and `route` the vector
of the mouse's interrupt, before and after `kernel_main` calls `unmask_gsi`.
The keyboard sends nothing: `start` of its driver disables its port, and only
`getline` enables it again. The other devices' vectors have the default
handler, which prints a message before its end-of-interrupt; it takes the
console's locks for that, and the thread it interrupted may hold them. The
mouse's handler also wakes the task of the event loop; here that never fails
(`Neutrix.Arch.QueueBound` says when the task queue has room).

* `mouse_bytes_served` — no byte is lost, doubled or reordered on its way to
  the handler, and once everything that can happen has happened the handler
  has read all of them, or the default handler spins on a lock of the thread
  it interrupted, for good. A byte whose edge gets lost ends it too: when the
  controller raises no interrupts for the mouse (`start` ignores that it could
  not set the bit), or puts a byte into its buffer before `unmask_gsi` and the
  entry was not aimed at vector 44 by then, the handler never reads a byte.
* `acknowledgement_becomes_header` — the entry is aimed at vector 44 that
  early on every board with an override (and the mouse's interrupt not moved
  to another ISA number). Then `start` polls for the mouse's acknowledgement
  while interrupts are on, and whether the poll finds it or not, the handler
  reads it too and takes it for the header of a packet.
-/

namespace Neutrix.MouseLine

open Neutrix.Lib Neutrix.Ioapic Neutrix.Drivers

-- ---------------------------------------------------------------------------
-- The board
-- ---------------------------------------------------------------------------

/-- What does not change any more when the mouse's driver has been started. -/
structure Wiring where
  physOffset : UInt64
  -- as ACPI parsing left it
  hal        : Hal
  lapic      : Lapic
  apicId     : UInt8
  -- the mouse's entry in the registry
  mouse      : DeviceInfo
  -- bit 1 of the controller's command byte, as `start` leaves it
  mouseIrq   : Bool
  idt        : Idt
  vbe        : Option VbeVga

namespace Wiring

variable (W : Wiring)

/-- The vector of the mouse's interrupt, with or without its `unmask_gsi`. -/
def route (unmasked : Bool) : Option UInt8 :=
  let mouse := if unmasked then some (some W.mouse) else none
  let hal := aimInterrupts W.physOffset W.lapic mouse (initHardware W.physOffset W.hal)
  if W.mouseIrq then
    (deliver W.physOffset hal W.apicId (gsiOf W.hal.isos 12)).map UInt32.toUInt8
  else none

/-- The handler of the vector leaves the PS/2 controller alone. -/
def Harmless (v : UInt8) : Prop := W.idt v = .defaultIrq

/-- Handlers of interrupts end with `send_eoi` when the local APIC is in use. -/
def eoi (v : UInt8) : Bool := W.lapic.isInitialized && W.idt v ≠ .exception

/-- The mouse's entry has vector 44 and is unmasked before its driver starts. -/
def AimedEarly : Prop := W.hal.isos ≠ [] ∧ line W.hal.isos 12 = 12

structure Ok : Prop where
  platform : BoundedPlatform W.physOffset W.hal
  here     : W.lapic.localApicId = some W.apicId
  vectors  : interruptVectors W.mouse = [44]
  handler  : W.idt 44 = .mouse
  early    : ∀ v, W.route false = some v → v = 44 ∨ W.Harmless v

variable {W}

theorem Ok.route_true (hW : W.Ok) (hIrq : W.mouseIrq = true) : W.route true = some 44 := by
  have hMouse : ∀ d ∈ some W.mouse, interruptVectors d = [44] := by
    rintro d ⟨⟩
    exact hW.vectors
  have hAt := aimInterrupts_delivered hW.platform W.lapic hMouse
    (show (12 : UInt8).toNat < 16 by decide) W.apicId
  rw [if_pos hW.here, if_pos ⟨rfl, rfl⟩] at hAt
  exact (if_pos hIrq).trans (congrArg (Option.map UInt32.toUInt8) hAt)

theorem Ok.route_false (hW : W.Ok) (hIrq : W.mouseIrq = true) :
    W.route false =
      if W.hal.isos = [] then none
      else some (0x20 + UInt32.ofNat (line W.hal.isos 12)).toUInt8 := by
  have hMouse : ∀ d ∈ (none : Option DeviceInfo), interruptVectors d = [44] := by simp
  have hAt := aimInterrupts_delivered hW.platform W.lapic hMouse
    (show (12 : UInt8).toNat < 16 by decide) W.apicId
  rw [if_pos hW.here, if_neg fun h => Bool.false_ne_true h.1] at hAt
  refine (if_pos hIrq).trans ((congrArg (Option.map UInt32.toUInt8) hAt).trans ?_)
  split_ifs <;> rfl

theorem Ok.aimedEarly_iff (hW : W.Ok) (hIrq : W.mouseIrq = true) :
    W.AimedEarly ↔ W.route false = some 44 := by
  have hLine : line W.hal.isos 12 < 16 := line_lt (show (12 : UInt8).toNat < 16 by decide)
  have hVector : ∀ n < 16, (0x20 + UInt32.ofNat n).toUInt8 = 44 ↔ n = 12 := by decide
  rw [hW.route_false hIrq, AimedEarly]
  split_ifs with hNone
  · simp [hNone]
  · rw [Option.some.injEq, hVector _ hLine]
    exact and_iff_right hNone

theorem Ok.route_of_aimedEarly (hW : W.Ok) (hIrq : W.mouseIrq = true) (h : W.AimedEarly)
    (unmasked : Bool) : W.route unmasked = some 44 := by
  cases unmasked with
  | false => exact (hW.aimedEarly_iff hIrq).mp h
  | true => exact hW.route_true hIrq

theorem route_of_mouseIrq_eq_false (hIrq : W.mouseIrq = false) (unmasked : Bool) :
    W.route unmasked = none :=
  if_neg (Bool.eq_false_iff.mp hIrq)

theorem Ok.route_cases (hW : W.Ok) (unmasked : Bool) {v : UInt8}
    (h : W.route unmasked = some v) : v = 44 ∨ W.Harmless v := by
  cases unmasked with
  | false => exact hW.early v h
  | true =>
    cases hIrq : W.mouseIrq with
    | true =>
      rw [hW.route_true hIrq] at h
      exact .inl (Option.some.inj h).symm
    | false => cases (route_of_mouseIrq_eq_false hIrq true).symm.trans h

theorem Ok.ne_of_harmless (hW : W.Ok) {v : UInt8} (h : W.Harmless v) : v ≠ 44 := by
  rintro rfl
  exact nomatch hW.handler.symm.trans h

theorem Ok.initialized (hW : W.Ok) : W.lapic.isInitialized = true := by
  by_contra hNot
  have hBase : W.lapic.base = 0 := by simpa [Lapic.isInitialized] using hNot
  have hHere := hW.here
  simp [Lapic.localApicId, hBase] at hHere

theorem Ok.eoi (hW : W.Ok) {v : UInt8} (h : v = 44 ∨ W.Harmless v) : W.eoi v = true := by
  have hIdt : W.idt v ≠ .exception := by
    rcases h with rfl | hDefault
    · simp [hW.handler]
    · simp [show W.idt v = .defaultIrq from hDefault]
  simp [Wiring.eoi, hW.initialized, hIdt]

end Wiring

-- ---------------------------------------------------------------------------
-- Steps
-- ---------------------------------------------------------------------------

structure Line where
  -- sent by the mouse, and not in the output buffer yet
  waiting  : List UInt8
  -- the output buffer, which keeps its byte when it is read, and bit 0 of the status
  data     : UInt8
  full     : Bool
  -- `kernel_main` has called `unmask_gsi`
  unmasked : Bool
  -- the thread of `kernel_main` holds a lock that `println!` takes
  printing : Bool
  cpu      : Interrupts UInt8
  sys      : Ps2Mouse.System

inductive Event where
  /-- The mouse sends a byte. -/
  | send (b : UInt8)
  /-- The controller puts a byte into its output buffer. -/
  | load
  /-- Another device's interrupt reaches the local APIC. -/
  | raise (v : UInt8)
  /-- The processor takes an interrupt. -/
  | accept (v : UInt8)
  /-- The handler does its work, … -/
  | handle
  /-- … sends its end-of-interrupt … -/
  | acknowledge
  /-- … and returns. -/
  | iret
  /-- `start` reads port 0x60. -/
  | poll
  | unmask
  /-- A round of `mouse_event_loop`. -/
  | round
  /-- The thread takes a lock of the console, … -/
  | lock
  /-- … and gives it back. -/
  | unlock
deriving DecidableEq

namespace Line

variable (W : Wiring)

/-- What a handler does with the controller. The keyboard's queue and the text of the default
handler's message are left out. -/
def serve (s : Line) : Handler → Line
  | .mouse => { s with sys := Ps2Mouse.irqHandler s.sys s.data, full := false }
  | .kbd => { s with full := false }
  | .defaultIrq | .exception => s

/-- The handler spins: the default handler prints, and the thread it interrupted is
printing. -/
def Spins (s : Line) (v : UInt8) : Prop := W.idt v = .defaultIrq ∧ s.printing = true

instance (s : Line) (v : UInt8) : Decidable (s.Spins W v) := inferInstanceAs (Decidable (_ ∧ _))

/-- A vector's priority is its number, its class the upper half of it. -/
def step (s : Line) : Event → Option Line
  | .send b => some { s with waiting := s.waiting ++ [b] }
  | .load =>
    match s.waiting with
    | [] => none
    | b :: rest =>
      if s.full then none
      else some { s with
        waiting := rest
        data := b
        full := true
        cpu := (W.route s.unmasked).elim s.cpu s.cpu.raise }
  | .raise v => some { s with cpu := s.cpu.raise v }
  | .accept v =>
    (s.cpu.accept UInt8.toNat (fun v => v.toNat / 16) v).map fun cpu => { s with cpu := cpu }
  | .handle =>
    s.cpu.handle.bind fun r =>
      if s.Spins W r.1 then none else some (serve { s with cpu := r.2 } (W.idt r.1))
  | .acknowledge => (s.cpu.acknowledge W.eoi).map fun cpu => { s with cpu := cpu }
  | .iret => s.cpu.iret.map fun cpu => { s with cpu := cpu }
  | .poll =>
    if s.cpu.running = none ∧ s.unmasked = false then some { s with full := false } else none
  | .unmask =>
    if s.cpu.running = none ∧ s.unmasked = false then some { s with unmasked := true } else none
  | .round =>
    if s.cpu.running = none then some { s with sys := Ps2Mouse.eventLoopRound W.vbe s.sys }
    else none
  | .lock =>
    if s.cpu.running = none ∧ s.printing = false then some { s with printing := true } else none
  | .unlock =>
    if s.cpu.running = none ∧ s.printing = true then some { s with printing := false } else none

/-- What the driver sees of a step. -/
def event (s : Line) : Event → Option Ps2Mouse.Event
  | .handle =>
    match s.cpu.handle with
    | some (v, _) => if W.idt v = .mouse then some (.irq s.data) else none
    | none => none
  | .round => some .round
  | _ => none

def events : Line → List Event → List Ps2Mouse.Event
  | _, [] => []
  | s, e :: es => (s.event W e).toList ++ (s.step W e).elim [] fun s' => events s' es

end Line

/-- The bytes the mouse sends. -/
def sent (es : List Event) : List UInt8 :=
  es.filterMap fun
    | .send b => some b
    | _ => none

/-- The controller puts a byte into its buffer before `unmask_gsi`. -/
def loadsEarly : List Event → Bool
  | [] => false
  | .load :: _ => true
  | .unmask :: _ => false
  | _ :: es => loadsEarly es

/-- What happens without anyone outside. -/
def Event.Internal : Event → Prop
  | .load | .accept _ | .handle | .acknowledge | .iret => True
  | _ => False

namespace Line

variable {W : Wiring} {s s' : Line} {e : Event} {es : List Event}

/-- The output buffer as a list. -/
def buffered (s : Line) : List UInt8 := if s.full then [s.data] else []

/-- An empty output buffer, and no interrupt anywhere. -/
def Quiet (s : Line) : Prop := s.full = false ∧ s.cpu = ⟨∅, [], none⟩

/-- The processor is in a handler that spins. The thread that would give the lock back does not
run until the handler returns. -/
def Deadlocked (W : Wiring) (s : Line) : Prop :=
  ∃ v, s.cpu.running = some (v, .entered) ∧ s.Spins W v

/-- Nothing is left to do. -/
def Idle (W : Wiring) (s : Line) : Prop := ∀ e : Event, e.Internal → s.step W e = none

/-- The reads of the mouse's handler that are due. -/
def dues (s : Line) : Nat := s.cpu.due 44

-- ---------------------------------------------------------------------------
-- What a step does
-- ---------------------------------------------------------------------------

/-- The vectors that are pending or served are the mouse's, or harmless. -/
structure Sound (W : Wiring) (s : Line) : Prop where
  orderly : s.cpu.Orderly
  pending : ∀ v ∈ s.cpu.pending, v = 44 ∨ W.Harmless v
  running : ∀ v p, s.cpu.running = some (v, p) → v = 44 ∨ W.Harmless v

/-- What a step does to the mouse's bytes and to the reads that are due. -/
inductive Moves (W : Wiring) (s : Line) : Event → Line → Prop where
  | other {e : Event} {s' : Line} (hLoad : e ≠ .load)
      (hWaiting : s'.waiting = s.waiting ++ sent [e]) (hFull : s'.full = s.full)
      (hData : s'.data = s.data) (hDues : s'.dues = s.dues)
      (hBytes : Ps2Mouse.fed (s.event W e).toList = []) : Moves W s e s'
  | load {s' : Line} (hWaiting : s.waiting = s'.data :: s'.waiting) (hEmpty : s.full = false)
      (hFull : s'.full = true)
      (hAimed : W.route s.unmasked = some 44 → 1 ≤ s'.dues ∧ s'.dues ≤ s.dues + 1)
      (hNot : W.route s.unmasked ≠ some 44 → s'.dues = s.dues) : Moves W s .load s'
  | read {s' : Line} (hWaiting : s'.waiting = s.waiting) (hEmpty : s'.full = false)
      (hData : s'.data = s.data) (hDues : s'.dues + 1 = s.dues)
      (hBytes : Ps2Mouse.fed (s.event W .handle).toList = [s.data]) : Moves W s .handle s'
  | poll {s' : Line} (hWaiting : s'.waiting = s.waiting) (hEmpty : s'.full = false)
      (hData : s'.data = s.data) (hDues : s'.dues = s.dues) : Moves W s .poll s'

theorem handle_step (h : s.step W .handle = some s') :
    ∃ v cpu, s.cpu.handle = some (v, cpu) ∧ ¬ s.Spins W v ∧
      s' = serve { s with cpu := cpu } (W.idt v) := by
  obtain ⟨⟨v, cpu⟩, hHandle, hServe⟩ := Option.bind_eq_some_iff.mp h
  obtain ⟨hFree, hEq⟩ := Option.ite_none_left_eq_some.mp hServe
  exact ⟨v, cpu, hHandle, hFree, (Option.some.inj hEq).symm⟩

/-- **Step.** -/
theorem Sound.step (hW : W.Ok) (h : Sound W s) (hRaise : ∀ v, e = .raise v → W.Harmless v)
    (hStep : s.step W e = some s') : Sound W s' ∧ Moves W s e s' := by
  cases e with
  | send b =>
    cases hStep
    exact ⟨⟨h.orderly, h.pending, h.running⟩, .other (by simp) rfl rfl rfl rfl rfl⟩
  | load =>
    simp only [Line.step] at hStep
    split at hStep
    · cases hStep
    · rename_i b rest hWaiting
      obtain ⟨hEmpty, hEq⟩ := Option.ite_none_left_eq_some.mp hStep
      cases hEq
      cases hRoute : W.route s.unmasked with
      | none =>
        exact ⟨⟨h.orderly, h.pending, h.running⟩,
          .load hWaiting (Bool.eq_false_iff.mpr hEmpty) rfl (by simp [hRoute]) fun _ => rfl⟩
      | some v =>
        refine ⟨⟨h.orderly.raise v, fun u hu => ?_, h.running⟩,
          .load hWaiting (Bool.eq_false_iff.mpr hEmpty) rfl ?_ ?_⟩
        · rcases Finset.mem_insert.mp hu with rfl | hOld
          · exact hW.route_cases s.unmasked hRoute
          · exact h.pending u hOld
        · intro hAimed
          cases hRoute.symm.trans hAimed
          exact s.cpu.due_raise_self 44
        · exact fun hNot => s.cpu.due_raise_of_ne fun hEq => hNot (hEq ▸ hRoute)
  | raise v =>
    cases hStep
    have hHarmless := hRaise v rfl
    have hNe : (44 : UInt8) ≠ v := (hW.ne_of_harmless hHarmless).symm
    refine ⟨⟨h.orderly.raise v, fun u hu => ?_, h.running⟩,
      .other (by simp) (List.append_nil _).symm rfl rfl ?_ rfl⟩
    · rcases Finset.mem_insert.mp hu with rfl | hOld
      · exact .inr hHarmless
      · exact h.pending u hOld
    · exact s.cpu.due_raise_of_ne hNe
  | accept v =>
    obtain ⟨cpu, hAccept, rfl⟩ := Option.map_eq_some_iff.mp hStep
    have hOrderly := h.orderly.accept hAccept
    have hDues := Interrupts.due_accept hAccept 44
    obtain ⟨hFree, hPending, rfl⟩ := Interrupts.accept_some hAccept
    refine ⟨⟨hOrderly, fun u hu => h.pending u (Finset.mem_of_mem_erase hu), fun u p hRun => ?_⟩,
      .other (by simp) (List.append_nil _).symm rfl rfl hDues rfl⟩
    cases hRun
    exact h.pending v hPending
  | handle =>
    obtain ⟨v, cpu, hHandle, -, rfl⟩ := handle_step hStep
    have hOrderly := h.orderly.handle hHandle
    have hEvent : s.event W .handle = if W.idt v = .mouse then some (.irq s.data) else none := by
      simp only [event, hHandle]
    obtain ⟨hRun, hCpu⟩ := Interrupts.handle_some hHandle
    rcases h.running v _ hRun with rfl | hHarmless
    · -- the mouse's handler reads the buffer
      have hDues := Interrupts.due_handle_self hHandle
      subst hCpu
      rw [if_pos hW.handler] at hEvent
      rw [hW.handler]
      refine ⟨⟨hOrderly, h.pending, fun u p hRun' => ?_⟩, .read rfl rfl rfl hDues ?_⟩
      · cases hRun'
        exact .inl rfl
      · rw [hEvent]
        rfl
    · have hDues := Interrupts.due_handle_of_ne hHandle (hW.ne_of_harmless hHarmless).symm
      subst hCpu
      have hDefault : W.idt v = .defaultIrq := hHarmless
      rw [hDefault, if_neg Handler.noConfusion] at hEvent
      rw [hDefault]
      refine ⟨⟨hOrderly, h.pending, fun u p hRun' => ?_⟩,
        .other (by simp) (List.append_nil _).symm rfl rfl hDues ?_⟩
      · cases hRun'
        exact .inr hHarmless
      · rw [hEvent]
        rfl
  | acknowledge =>
    obtain ⟨cpu, hAck, rfl⟩ := Option.map_eq_some_iff.mp hStep
    have hOrderly := h.orderly.acknowledge (fun v p hRun => hW.eoi (h.running v p hRun)) hAck
    have hDues := Interrupts.due_acknowledge hAck 44
    obtain ⟨v, hRun, rfl⟩ := Interrupts.acknowledge_some hAck
    refine ⟨⟨hOrderly, h.pending, fun u p hRun' => ?_⟩,
      .other (by simp) (List.append_nil _).symm rfl rfl hDues rfl⟩
    cases hRun'
    exact h.running v _ hRun
  | iret =>
    obtain ⟨cpu, hIret, rfl⟩ := Option.map_eq_some_iff.mp hStep
    have hOrderly := h.orderly.iret hIret
    have hDues := Interrupts.due_iret hIret 44
    obtain ⟨v, -, rfl⟩ := Interrupts.iret_some hIret
    exact ⟨⟨hOrderly, h.pending, fun u p hRun' => nomatch hRun'⟩,
      .other (by simp) (List.append_nil _).symm rfl rfl hDues rfl⟩
  | poll =>
    obtain ⟨-, hEq⟩ := Option.ite_none_right_eq_some.mp hStep
    cases hEq
    exact ⟨⟨h.orderly, h.pending, h.running⟩, .poll rfl rfl rfl rfl⟩
  | unmask | round | lock | unlock =>
    obtain ⟨-, hEq⟩ := Option.ite_none_right_eq_some.mp hStep
    cases hEq
    exact ⟨⟨h.orderly, h.pending, h.running⟩,
      .other (by simp) (List.append_nil _).symm rfl rfl rfl rfl⟩

theorem unmasked_step (h : s.step W e = some s') :
    s'.unmasked = (s.unmasked || e = .unmask) := by
  cases e with
  | send b | raise v =>
    cases h
    simp
  | load =>
    simp only [Line.step] at h
    split at h
    · cases h
    · obtain ⟨-, hEq⟩ := Option.ite_none_left_eq_some.mp h
      cases hEq
      simp
  | accept v | acknowledge | iret =>
    obtain ⟨cpu, -, rfl⟩ := Option.map_eq_some_iff.mp h
    simp
  | handle =>
    obtain ⟨v, cpu, -, -, rfl⟩ := handle_step h
    cases W.idt v <;> simp [serve]
  | poll | unmask | round | lock | unlock =>
    obtain ⟨-, hEq⟩ := Option.ite_none_right_eq_some.mp h
    cases hEq
    simp

theorem sys_step (h : s.step W e = some s') :
    s'.sys = Ps2Mouse.runEvents W.vbe s.sys (s.event W e).toList := by
  cases e with
  | send b | raise v =>
    cases h
    rfl
  | load =>
    simp only [Line.step] at h
    split at h
    · cases h
    · obtain ⟨-, hEq⟩ := Option.ite_none_left_eq_some.mp h
      cases hEq
      rfl
  | accept v | acknowledge | iret =>
    obtain ⟨cpu, -, rfl⟩ := Option.map_eq_some_iff.mp h
    rfl
  | handle =>
    obtain ⟨v, cpu, hHandle, -, rfl⟩ := handle_step h
    simp only [event, hHandle]
    cases hHandler : W.idt v <;> rfl
  | poll | unmask | round | lock | unlock =>
    obtain ⟨-, hEq⟩ := Option.ite_none_right_eq_some.mp h
    cases hEq
    rfl

-- ---------------------------------------------------------------------------
-- Runs
-- ---------------------------------------------------------------------------

/-- The other devices' vectors are harmless. -/
def Undisturbed (W : Wiring) (es : List Event) : Prop := ∀ v, .raise v ∈ es → W.Harmless v

theorem events_cons (h : s.step W e = some s') (es : List Event) :
    s.events W (e :: es) = (s.event W e).toList ++ s'.events W es := by
  rw [events, h, Option.elim_some]

/-- **Invariant rule.** What holds at the start and is kept by every step, given what the
driver has seen so far, holds at the end. -/
theorem run_rule (hW : W.Ok) {P : Line → List Ps2Mouse.Event → List Event → Prop}
    (hStep : ∀ {s s' : Line} {seen : List Ps2Mouse.Event} {e : Event} {es : List Event},
      P s seen (e :: es) → s.step W e = some s' → Moves W s e s' →
        P s' (seen ++ (s.event W e).toList) es)
    (seen : List Ps2Mouse.Event) {es : List Event} {s s' : Line} (hSound : Sound W s)
    (hP : P s seen es) (hEs : Undisturbed W es) (hRun : run (step W) s es = some s') :
    Sound W s' ∧ P s' (seen ++ s.events W es) [] := by
  induction es generalizing s seen with
  | nil =>
    cases hRun
    rw [events, List.append_nil]
    exact ⟨hSound, hP⟩
  | cons e es ih =>
    obtain ⟨t, hFirst, hRest⟩ := (run_cons (step W)).mp hRun
    obtain ⟨hSound', hMoves⟩ := hSound.step hW
      (fun v hEq => hEs v (hEq ▸ List.mem_cons_self)) hFirst
    have hEnd := ih (seen ++ (s.event W e).toList) hSound' (hStep hP hFirst hMoves)
      (fun v hv => hEs v (List.mem_cons_of_mem e hv)) hRest
    rw [events_cons hFirst, ← List.append_assoc]
    exact hEnd

theorem sent_cons (e : Event) (es : List Event) : sent (e :: es) = sent [e] ++ sent es :=
  List.filterMap_append (l := [e])

theorem fed_append (as bs : List Ps2Mouse.Event) :
    Ps2Mouse.fed (as ++ bs) = Ps2Mouse.fed as ++ Ps2Mouse.fed bs := List.filterMap_append

theorem Quiet.sound (h : s.Quiet) : Sound W s := by
  obtain ⟨-, hCpu⟩ := h
  refine ⟨?_, ?_, ?_⟩ <;> rw [hCpu]
  · exact rfl
  · exact fun v hv => absurd hv (Finset.notMem_empty v)
  · exact fun v p hRun => nomatch hRun

theorem Quiet.dues (h : s.Quiet) : s.dues = 0 := by
  rw [Line.dues, h.2]
  exact Interrupts.due_eq_zero rfl rfl 44

theorem Quiet.buffered (h : s.Quiet) : s.buffered = [] := by
  rw [Line.buffered, h.1]
  rfl

/-- The driver's state is what it saw. -/
theorem sys_run (hW : W.Ok) (hs : Sound W s) (hEs : Undisturbed W es)
    (hRun : run (step W) s es = some s') :
    s'.sys = Ps2Mouse.runEvents W.vbe s.sys (s.events W es) := by
  refine (run_rule hW (P := fun t seen _ => t.sys = Ps2Mouse.runEvents W.vbe s.sys seen) ?_ []
    hs rfl hEs hRun).2
  intro t t' seen e es hSys hStep _
  rw [sys_step hStep, hSys, Ps2Mouse.runEvents, Ps2Mouse.runEvents, Ps2Mouse.runEvents,
    List.foldl_append]

/-- **Every byte is on its way, or was read once.** -/
theorem bytes_run (hW : W.Ok) (hs : s.Quiet) (hEs : Undisturbed W es) (hPoll : .poll ∉ es)
    (hRun : run (step W) s es = some s') :
    Ps2Mouse.fed (s.events W es) ++ s'.buffered ++ s'.waiting = s.waiting ++ sent es := by
  have hEnd := (run_rule hW (P := fun t seen es' => .poll ∉ es' ∧
      t.dues ≤ t.buffered.length ∧
      Ps2Mouse.fed seen ++ t.buffered ++ t.waiting ++ sent es' = s.waiting ++ sent es) ?_ []
    hs.sound ⟨hPoll, hs.dues.le.trans (Nat.zero_le _), ?_⟩ hEs hRun).2
  · rw [List.nil_append] at hEnd
    simpa [sent] using hEnd.2.2
  · rintro t t' seen e es' ⟨hNoPoll, hDue, hBytes⟩ - hMoves
    have hNext : .poll ∉ es' := fun h => hNoPoll (List.mem_cons_of_mem e h)
    rw [sent_cons] at hBytes
    refine ⟨hNext, ?_⟩
    cases hMoves with
    | other _ hWaiting hFull hData hDues hNone =>
      have hBuf : t'.buffered = t.buffered := by rw [Line.buffered, Line.buffered, hFull, hData]
      rw [hDues, hBuf, fed_append, hNone, hWaiting]
      exact ⟨hDue, by simpa using hBytes⟩
    | load hWaiting hEmpty hFull hAimed hNot =>
      have hBefore : t.buffered = [] := by rw [Line.buffered, hEmpty]; rfl
      have hAfter : t'.buffered = [t'.data] := by rw [Line.buffered, hFull]; rfl
      rw [hBefore, List.length_nil, Nat.le_zero] at hDue
      rw [hAfter, fed_append]
      refine ⟨?_, by simpa [hBefore, hWaiting, event, Ps2Mouse.fed, sent] using hBytes⟩
      by_cases hRoute : W.route t.unmasked = some 44
      · have hOne := (hAimed hRoute).2
        rwa [hDue] at hOne
      · rw [hNot hRoute, hDue]
        exact Nat.zero_le _
    | read hWaiting hEmpty hData hDues hRead =>
      have hFull : t.full = true := by
        by_contra hNot
        rw [Line.buffered, if_neg hNot, List.length_nil] at hDue
        omega
      have hBefore : t.buffered = [t.data] := by rw [Line.buffered, hFull]; rfl
      have hAfter : t'.buffered = [] := by rw [Line.buffered, hEmpty]; rfl
      rw [hBefore, List.length_singleton] at hDue
      rw [hAfter, fed_append, hRead, hWaiting]
      exact ⟨by simp only [List.length_nil]; omega, by simpa [hBefore, sent] using hBytes⟩
    | poll => exact absurd List.mem_cons_self hNoPoll
  · rw [hs.buffered]
    simp [Ps2Mouse.fed]

-- ---------------------------------------------------------------------------
-- Lost edges
-- ---------------------------------------------------------------------------

/-- An edge of the mouse's line gets lost: the controller raises no interrupt, or it puts a
byte into its buffer before `unmask_gsi` and the entry is not aimed at vector 44 until then. -/
def Loses (W : Wiring) (s : Line) (es : List Event) : Prop :=
  W.mouseIrq = false ∨ s.unmasked = false ∧ ¬ W.AimedEarly ∧ loadsEarly es = true

theorem loadsEarly_cons (hLoad : e ≠ .load) (hUnmask : e ≠ .unmask) :
    loadsEarly (e :: es) = loadsEarly es := by
  cases e with
  | load => exact absurd rfl hLoad
  | unmask => exact absurd rfl hUnmask
  | _ => rfl

/-- Without the mouse's interrupt the handler has nothing to do. -/
theorem silent_run (hW : W.Ok) (hs : s.Quiet) (hEs : Undisturbed W es)
    (hIrq : W.mouseIrq = false) (hRun : run (step W) s es = some s') :
    Ps2Mouse.fed (s.events W es) = [] := by
  have hEnd := (run_rule hW (P := fun t seen _ => Ps2Mouse.fed seen = [] ∧ t.dues = 0) ?_ []
    hs.sound ⟨rfl, hs.dues⟩ hEs hRun).2
  · exact hEnd.1
  · rintro t t' seen e es' ⟨hNone, hZero⟩ - hMoves
    rw [fed_append, hNone, List.nil_append]
    cases hMoves with
    | other _ _ _ _ hDues hBytes => exact ⟨hBytes, hDues.trans hZero⟩
    | load _ _ _ _ hNot =>
      have hRoute : W.route t.unmasked ≠ some 44 := by
        rw [Wiring.route_of_mouseIrq_eq_false hIrq]
        exact nofun
      exact ⟨rfl, (hNot hRoute).trans hZero⟩
    | read _ _ _ hDues => omega
    | poll _ _ _ hDues => exact ⟨rfl, hDues.trans hZero⟩

/-- A byte whose edge got lost blocks all others. -/
theorem stuck_run (hW : W.Ok) (hs : s.Quiet) (hEs : Undisturbed W es) (hPoll : .poll ∉ es)
    (hLoses : Loses W s es) (hRun : run (step W) s es = some s') :
    Ps2Mouse.fed (s.events W es) = [] := by
  by_cases hIrq : W.mouseIrq = false
  · exact silent_run hW hs hEs hIrq hRun
  obtain ⟨hMasked, hNotAimed, hLoads⟩ := hLoses.resolve_left hIrq
  rw [hW.aimedEarly_iff (Bool.eq_true_of_not_eq_false hIrq)] at hNotAimed
  have hEnd := (run_rule hW (P := fun t seen es' => .poll ∉ es' ∧ Ps2Mouse.fed seen = [] ∧
      t.dues = 0 ∧ (t.full = true ∨ t.unmasked = false ∧ loadsEarly es' = true)) ?_ [] hs.sound
    ⟨hPoll, rfl, hs.dues, .inr ⟨hMasked, hLoads⟩⟩ hEs hRun).2
  · exact hEnd.2.1
  · rintro t t' seen e es' ⟨hNoPoll, hNone, hZero, hStuck⟩ hStep hMoves
    have hNext : .poll ∉ es' := fun h => hNoPoll (List.mem_cons_of_mem e h)
    refine ⟨hNext, ?_⟩
    cases hMoves with
    | other hLoad hWaiting hFull hData hDues hBytes =>
      refine ⟨by rw [fed_append, hNone, hBytes, List.nil_append], hDues.trans hZero, ?_⟩
      rcases hStuck with hFull' | ⟨hMasked', hLoads'⟩
      · exact .inl (hFull.trans hFull')
      · by_cases hUnmask : e = .unmask
        · subst hUnmask
          cases hLoads'
        · refine .inr ⟨?_, (loadsEarly_cons hLoad hUnmask).symm.trans hLoads'⟩
          rw [unmasked_step hStep, hMasked']
          simpa using hUnmask
    | load hWaiting hEmpty hFull hAimed hNot =>
      rcases hStuck with hFull' | ⟨hMasked', -⟩
      · rw [hFull'] at hEmpty
        cases hEmpty
      · rw [hMasked'] at hNot
        exact ⟨by rw [fed_append, hNone]; rfl, (hNot hNotAimed).trans hZero, .inl hFull⟩
    | read _ _ _ hDues => omega
    | poll => exact absurd List.mem_cons_self hNoPoll

/-- Without a lost edge, a byte in the buffer has a read due. -/
theorem due_run (hW : W.Ok) (hs : s.Quiet) (hEs : Undisturbed W es) (hLoses : ¬ Loses W s es)
    (hRun : run (step W) s es = some s') : Sound W s' ∧ (s'.full = true → 1 ≤ s'.dues) := by
  have hIrq : W.mouseIrq = true := Bool.eq_true_of_not_eq_false fun hIrq => hLoses (.inl hIrq)
  have hStart : W.route s.unmasked = some 44 ∨ s.unmasked = false ∧ loadsEarly es = false := by
    cases hMasked : s.unmasked with
    | true => exact .inl (hW.route_true hIrq)
    | false =>
      by_cases hAimed : W.AimedEarly
      · exact .inl ((hW.aimedEarly_iff hIrq).mp hAimed)
      · exact .inr ⟨rfl,
          Bool.eq_false_iff.mpr fun hLoads => hLoses (.inr ⟨hMasked, hAimed, hLoads⟩)⟩
  have hEnd := run_rule hW (P := fun t _ es' => (t.full = true → 1 ≤ t.dues) ∧
      (W.route t.unmasked = some 44 ∨ t.unmasked = false ∧ loadsEarly es' = false)) ?_ [] hs.sound
    ⟨fun hFull => absurd (hs.1.symm.trans hFull) Bool.false_ne_true, hStart⟩ hEs hRun
  · exact ⟨hEnd.1, hEnd.2.1⟩
  · rintro t t' seen e es' ⟨hDue, hAim⟩ hStep hMoves
    have hUnmasked := unmasked_step hStep
    have hAim' : e ≠ .load → W.route t'.unmasked = some 44 ∨
        t'.unmasked = false ∧ loadsEarly es' = false := by
      intro hLoad
      by_cases hUnmask : e = .unmask
      · rw [hUnmasked, hUnmask]
        exact .inl (by simpa using hW.route_true hIrq)
      · have hSame : t'.unmasked = t.unmasked := by simpa [hUnmask] using hUnmasked
        rwa [hSame, ← loadsEarly_cons hLoad hUnmask]
    cases hMoves with
    | other hLoad _ hFull _ hDues _ =>
      rw [hFull, hDues]
      exact ⟨hDue, hAim' hLoad⟩
    | load _ _ _ hAimed _ =>
      rcases hAim with hAim | ⟨-, hNever⟩
      · have hSame : t'.unmasked = t.unmasked := by simpa using hUnmasked
        rw [hSame]
        exact ⟨fun _ => (hAimed hAim).1, .inl hAim⟩
      · cases hNever
    | read _ hEmpty | poll _ hEmpty =>
      exact ⟨fun hFull => absurd (hEmpty.symm.trans hFull) Bool.false_ne_true, hAim' (by simp)⟩

-- ---------------------------------------------------------------------------
-- When nothing is left to do
-- ---------------------------------------------------------------------------

theorem Idle.cpu (hs : Sound W s) (h : s.Idle W) :
    s.Deadlocked W ∨ (s.cpu.pending = ∅ ∧ s.cpu.running = none) := by
  by_cases hBusy : s.cpu.running = none
  · refine .inr ⟨?_, hBusy⟩
    by_contra hPending
    obtain ⟨v, hSome⟩ := hs.orderly.exists_accept UInt8.toNat (fun v => v.toNat / 16) hBusy
      (Finset.nonempty_iff_ne_empty.mpr hPending)
    obtain ⟨r, hr⟩ := Option.isSome_iff_exists.mp hSome
    have hNone := h (.accept v) trivial
    simp [step, hr] at hNone
  · rcases s.cpu.exists_progress W.eoi hBusy with hSome | hSome | hSome
    · -- only a handler that spins cannot do its work
      obtain ⟨⟨v, cpu⟩, hr⟩ := Option.isSome_iff_exists.mp hSome
      have hNone := h .handle trivial
      simp only [step, hr, Option.bind_some, ite_eq_left_iff, reduceCtorEq, imp_false,
        not_not] at hNone
      exact .inl ⟨v, (Interrupts.handle_some hr).1, hNone⟩
    · obtain ⟨r, hr⟩ := Option.isSome_iff_exists.mp hSome
      have hNone := h .acknowledge trivial
      simp [step, hr] at hNone
    · obtain ⟨r, hr⟩ := Option.isSome_iff_exists.mp hSome
      have hNone := h .iret trivial
      simp [step, hr] at hNone

/-- Everything has been read. -/
theorem Idle.done (hs : Sound W s) (hDue : s.full = true → 1 ≤ s.dues) (h : s.Idle W)
    (hFree : ¬ s.Deadlocked W) : s.dues = 0 ∧ s.full = false ∧ s.waiting = [] := by
  obtain ⟨hPending, hRunning⟩ := (h.cpu hs).resolve_left hFree
  have hZero : s.dues = 0 := Interrupts.due_eq_zero hPending hRunning 44
  have hEmpty : s.full = false := by
    by_contra hFull
    have hOne := hDue (Bool.not_eq_false _ ▸ hFull)
    omega
  refine ⟨hZero, hEmpty, ?_⟩
  have hNone := h .load trivial
  cases hWaiting : s.waiting with
  | nil => rfl
  | cons b rest => simp [step, hWaiting, hEmpty] at hNone

/-- A processor that spins takes no interrupt, and its thread does not go on. -/
theorem Deadlocked.step (h : s.Deadlocked W) (hStep : s.step W e = some s') :
    s'.Deadlocked W ∧ s.event W e = none := by
  obtain ⟨v, hRun, hSpins⟩ := h
  have hBusy : s.cpu.running ≠ none := by
    rw [hRun]
    exact nofun
  cases e with
  | send b | raise u =>
    cases hStep
    exact ⟨⟨v, hRun, hSpins⟩, rfl⟩
  | load =>
    simp only [Line.step] at hStep
    split at hStep
    · cases hStep
    · obtain ⟨-, hEq⟩ := Option.ite_none_left_eq_some.mp hStep
      cases hEq
      refine ⟨⟨v, ?_, hSpins⟩, rfl⟩
      cases W.route s.unmasked <;> exact hRun
  | accept u =>
    obtain ⟨cpu, hAccept, -⟩ := Option.map_eq_some_iff.mp hStep
    exact absurd (Interrupts.accept_some hAccept).1 hBusy
  | handle =>
    obtain ⟨u, cpu, hHandle, hNot, -⟩ := handle_step hStep
    cases (Interrupts.handle_some hHandle).1.symm.trans hRun
    exact absurd hSpins hNot
  | acknowledge =>
    obtain ⟨cpu, hAck, -⟩ := Option.map_eq_some_iff.mp hStep
    obtain ⟨u, hHandled, -⟩ := Interrupts.acknowledge_some hAck
    cases hHandled.symm.trans hRun
  | iret =>
    obtain ⟨cpu, hIret, -⟩ := Option.map_eq_some_iff.mp hStep
    obtain ⟨u, hAcked, -⟩ := Interrupts.iret_some hIret
    cases hAcked.symm.trans hRun
  | round =>
    obtain ⟨hFree, -⟩ := Option.ite_none_right_eq_some.mp hStep
    exact absurd hFree hBusy
  | poll | unmask | lock | unlock =>
    obtain ⟨⟨hFree, -⟩, -⟩ := Option.ite_none_right_eq_some.mp hStep
    exact absurd hFree hBusy

/-- **A deadlock is for good**, and the driver sees nothing any more. -/
theorem Deadlocked.run (h : s.Deadlocked W) (hRun : Lib.run (Line.step W) s es = some s') :
    s'.Deadlocked W ∧ s.events W es = [] := by
  induction es generalizing s with
  | nil =>
    cases hRun
    exact ⟨h, rfl⟩
  | cons e es ih =>
    obtain ⟨t, hFirst, hRest⟩ := (run_cons (Line.step W)).mp hRun
    obtain ⟨hNext, hNone⟩ := h.step hFirst
    obtain ⟨hEnd, hEvents⟩ := ih hNext hRest
    rw [events_cons hFirst, hNone, hEvents]
    exact ⟨hEnd, rfl⟩

/-- A bound on what can happen without anyone outside. -/
def work (s : Line) : Nat := 6 * s.waiting.length + s.cpu.work

theorem work_step (hInternal : e.Internal) (h : s.step W e = some s') : s'.work < s.work := by
  cases e with
  | load =>
    simp only [Line.step] at h
    split at h
    · cases h
    · rename_i b rest hWaiting
      obtain ⟨-, hEq⟩ := Option.ite_none_left_eq_some.mp h
      cases hEq
      have hRaise : ((W.route s.unmasked).elim s.cpu s.cpu.raise).work ≤ s.cpu.work + 4 := by
        cases W.route s.unmasked with
        | none => exact Nat.le_add_right _ _
        | some v => exact s.cpu.work_raise_le v
      simp only [work, hWaiting, List.length_cons]
      omega
  | accept v =>
    obtain ⟨cpu, hAccept, rfl⟩ := Option.map_eq_some_iff.mp h
    exact Nat.add_lt_add_left (Interrupts.work_accept hAccept) _
  | handle =>
    obtain ⟨v, cpu, hHandle, -, rfl⟩ := handle_step h
    have hLess := Nat.add_lt_add_left (Interrupts.work_handle hHandle) (6 * s.waiting.length)
    cases W.idt v <;> exact hLess
  | acknowledge =>
    obtain ⟨cpu, hAck, rfl⟩ := Option.map_eq_some_iff.mp h
    exact Nat.add_lt_add_left (Interrupts.work_acknowledge hAck) _
  | iret =>
    obtain ⟨cpu, hIret, rfl⟩ := Option.map_eq_some_iff.mp h
    exact Nat.add_lt_add_left (Interrupts.work_iret hIret) _
  | send b | raise v | poll | unmask | round | lock | unlock => cases hInternal

theorem length_le_work (hInternal : ∀ e ∈ es, e.Internal) (h : run (step W) s es = some s') :
    es.length ≤ s.work := by
  induction es generalizing s with
  | nil => exact Nat.zero_le _
  | cons e es ih =>
    obtain ⟨t, hFirst, hRest⟩ := (run_cons (step W)).mp h
    have hLess := work_step (hInternal e List.mem_cons_self) hFirst
    have hLength := ih (fun e' he' => hInternal e' (List.mem_cons_of_mem e he')) hRest
    rw [List.length_cons]
    omega

/-- What the handler reads while the mouse sends nothing but acknowledgements. -/
theorem acknowledgements_run (hW : W.Ok) (hIrq : W.mouseIrq = true) (hAimed : W.AimedEarly)
    (hs : s.Quiet) (hNone : s.waiting = []) (hEs : Undisturbed W es)
    (hAck : ∀ b ∈ sent es, b = 0xFA) (hRun : run (step W) s es = some s') (hIdle : s'.Idle W)
    (hFree : ¬ s'.Deadlocked W) :
    ∃ k ≤ (sent es).length, (sent es ≠ [] → 0 < k) ∧
      Ps2Mouse.fed (s.events W es) = List.replicate k 0xFA := by
  have hRoute := hW.route_of_aimedEarly hIrq hAimed
  have hLoses : ¬ Loses W s es := by
    rintro (hNot | ⟨-, hNot, -⟩)
    · exact Bool.false_ne_true (hNot.symm.trans hIrq)
    · exact hNot hAimed
  have hEnd := (run_rule hW (P := fun t seen es' => (∀ b ∈ t.waiting ++ sent es', b = 0xFA) ∧
      (1 ≤ t.dues → t.data = 0xFA) ∧ (∀ b ∈ Ps2Mouse.fed seen, b = 0xFA) ∧
      (Ps2Mouse.fed seen).length + t.dues + t.waiting.length + (sent es').length ≤
        (sent es).length ∧
      (0 < (sent es).length →
        0 < (Ps2Mouse.fed seen).length + t.dues + t.waiting.length + (sent es').length)) ?_ []
    hs.sound ?_ hEs hRun).2
  · obtain ⟨hSound, hDue⟩ := due_run hW hs hEs hLoses hRun
    obtain ⟨hZero, -, hWaiting⟩ := hIdle.done hSound hDue hFree
    obtain ⟨-, -, hAll, hAtMost, hSome⟩ := hEnd
    rw [List.nil_append] at hAll hAtMost hSome
    simp only [hZero, hWaiting, sent, List.filterMap_nil, List.length_nil, Nat.add_zero]
      at hAtMost hSome
    exact ⟨_, hAtMost, fun hSent => hSome (List.length_pos_iff.mpr hSent),
      List.eq_replicate_iff.mpr ⟨rfl, hAll⟩⟩
  · rintro t t' seen e es' ⟨hFuture, hData, hAll, hAtMost, hSome⟩ - hMoves
    rw [sent_cons] at hFuture hAtMost hSome
    cases hMoves with
    | other _ hWaiting _ hSame hDues hBytes =>
      rw [fed_append, hBytes, List.append_nil, hWaiting, hDues, hSame]
      simp only [List.length_append] at hAtMost hSome ⊢
      exact ⟨by simpa using hFuture, hData, hAll, by omega, by omega⟩
    | load hWaiting _ _ hAimed' _ =>
      obtain ⟨hOne, hMore⟩ := hAimed' (hRoute t.unmasked)
      have hNoBytes : Ps2Mouse.fed (seen ++ (t.event W .load).toList) = Ps2Mouse.fed seen := by
        rw [fed_append]
        exact List.append_nil _
      rw [hWaiting] at hFuture hAtMost hSome
      rw [hNoBytes]
      simp only [sent, List.filterMap_cons_none, List.filterMap_nil, List.nil_append,
        List.length_cons] at hFuture hAtMost hSome ⊢
      exact ⟨fun b hb => hFuture b (List.mem_cons_of_mem _ hb),
        fun _ => hFuture _ List.mem_cons_self, hAll, by omega, by omega⟩
    | read hWaiting _ hSame hDues hBytes =>
      have hByte : t.data = 0xFA := hData (by omega)
      rw [fed_append, hBytes, hWaiting, hSame]
      simp only [sent, List.filterMap_cons_none, List.filterMap_nil, List.nil_append,
        List.length_append, List.length_singleton] at hFuture hAtMost hSome ⊢
      refine ⟨hFuture, fun _ => hByte, fun b hb => ?_, by omega, by omega⟩
      rcases List.mem_append.mp hb with hOld | hNew
      · exact hAll b hOld
      · exact (List.mem_singleton.mp hNew).trans hByte
    | poll hWaiting _ hSame hDues =>
      have hNoBytes : Ps2Mouse.fed (seen ++ (t.event W .poll).toList) = Ps2Mouse.fed seen := by
        rw [fed_append]
        exact List.append_nil _
      rw [hNoBytes, hWaiting, hDues, hSame]
      simp only [sent, List.filterMap_cons_none, List.filterMap_nil, List.nil_append] at *
      exact ⟨hFuture, hData, hAll, hAtMost, hSome⟩
  · rw [hNone, hs.dues]
    exact ⟨hAck, by simp, by simp [Ps2Mouse.fed], by simp [Ps2Mouse.fed], by simp [Ps2Mouse.fed]⟩

end Line

-- ---------------------------------------------------------------------------
-- A PC
-- ---------------------------------------------------------------------------

/-- The interrupt table once both PS/2 drivers have started. -/
def bootIdt : Idt := Function.update (Function.update initialIdt 33 .kbd) 44 .mouse

/-- A PC with one IOAPIC and the given overrides. -/
def pcWiring (isos : List IsoInfo) : Wiring where
  physOffset := pcOffset
  hal := pcHal isos
  lapic := ⟨0x100FEE00000, fun _ => 0⟩
  apicId := 0
  mouse := bootMouse
  mouseIrq := true
  idt := bootIdt
  vbe := none

theorem pcWiring_ok {isos : List IsoInfo} (hP : BoundedPlatform pcOffset (pcHal isos))
    (hEarly : (pcWiring isos).route false = none ∨ (pcWiring isos).route false = some 44) :
    (pcWiring isos).Ok := by
  have hHere : Lapic.localApicId ⟨0x100FEE00000, fun _ => 0⟩ = some 0 := by decide
  refine ⟨hP, hHere, rfl, rfl, fun v hv => ?_⟩
  rcases hEarly with hNone | hAimed
  · cases hNone.symm.trans hv
  · exact .inl (Option.some.inj (hv.symm.trans hAimed))

/-- Nothing has happened yet. -/
def atRest : Line := ⟨[], 0, false, false, false, ⟨∅, [], none⟩, Ps2Mouse.idle⟩

/-- A pending interrupt of the mouse, from the CPU's acceptance to `iret`. -/
def serving : List Event := [.accept 44, .handle, .acknowledge, .iret]

/-- The handler has read the byte `b`. -/
def served (b : UInt8) (unmasked : Bool) : Line :=
  ⟨[], b, false, unmasked, false, ⟨∅, [], none⟩, Ps2Mouse.irqHandler Ps2Mouse.idle b⟩

theorem run_served (isos : List IsoInfo) (b : UInt8) (full unmasked : Bool) :
    run (Line.step (pcWiring isos))
      ⟨[], b, full, unmasked, false, atRest.cpu.raise 44, Ps2Mouse.idle⟩ serving =
      some (served b unmasked) := by
  simp only [serving, run, Line.step, Interrupts.accept, Interrupts.raise, atRest]
  rw [if_pos (by simp)]
  rfl

theorem served_idle (isos : List IsoInfo) (b : UInt8) (unmasked : Bool) :
    (served b unmasked).Idle (pcWiring isos) := by
  intro e hInternal
  cases e with
  | load | handle | acknowledge | iret => rfl
  | accept v => simp [Line.step, Interrupts.accept, served]
  | send b | raise v | poll | unmask | round | lock | unlock => cases hInternal

theorem served_not_deadlocked (isos : List IsoInfo) (b : UInt8) (unmasked : Bool) :
    ¬ (served b unmasked).Deadlocked (pcWiring isos) :=
  fun ⟨_, hRun, _⟩ => nomatch hRun

/-- A byte after `unmask_gsi`. -/
def inTime : List Event := [.unmask, .send 8, .load] ++ serving

/-- A byte before it, and two after. -/
def tooEarly : List Event := [.send 8, .load, .unmask, .send 1, .send 2]

/-- The timer interrupts the thread while it prints. -/
def whilePrinting : List Event := [.unmask, .lock, .raise 32, .accept 32]

/-- The thread, from then on. -/
def interrupted : Line :=
  ⟨[], 0, false, true, true, ⟨∅, [32], some (32, .entered)⟩, Ps2Mouse.idle⟩

theorem run_whilePrinting (isos : List IsoInfo) :
    run (Line.step (pcWiring isos)) atRest whilePrinting = some interrupted := by
  simp [whilePrinting, run, Line.step, Interrupts.accept, Interrupts.raise, atRest, interrupted]

/-- The poll takes the acknowledgement before the interrupt does. -/
def polled : List Event := [.send 0xFA, .load, .poll] ++ serving

end Neutrix.MouseLine
