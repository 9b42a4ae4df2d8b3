import Neutrix.Drivers.Ps2Controller

/-!
# Neutrix — the PS/2 drivers and the controller together

The keyboard driver's `start` switches the keyboard port off, the mouse
driver's `start` switches the mouse on. This module puts the controller and
the mouse at the other end of the ports and runs both against them.

The controller is the 8042 as far as the drivers use it. A written byte sits
in the input buffer until the controller takes it, after any number of
status reads; a reply of the mouse takes any number of status reads too, or
never comes. The output buffer may hold any bytes at the start, and the
mouse may answer anything. A mouse that reports sends bytes by itself too.

* `start_sets_up_mouse` — when a byte and the answer to it take less time
  than one poll, and the mouse sends nothing by itself before it is switched
  on, both drivers leave the controller idle and empty, with the mouse's
  interrupt enabled, its port on and the keyboard's port off, and nothing else
  changed in the command byte. The mouse reports exactly if it did before or
  one of its first four answers is an acknowledgement; after that it is sent
  nothing more, and none of its own bytes is lost to the set-up.

The keyboard's port stays off: 0xAE is sent by `getline` only, and nothing
calls it. Interrupt handlers do not run here. They would take bytes away from
the polls; on a board without overrides the mouse's interrupt is masked until
`start` is over, and for the others see `Neutrix.Drivers.MouseLine`.
-/

namespace Neutrix.Drivers.I8042

open Neutrix.Lib Neutrix.Drivers.Ps2

-- ---------------------------------------------------------------------------
-- The controller
-- ---------------------------------------------------------------------------

structure Mouse where
  reporting : Bool
  /-- How many bytes it has received. -/
  received  : Nat
  /-- What it sends by itself while it reports: for each of the next status reads a byte or
  nothing, and nothing after the last. -/
  moves     : List (Option UInt8)
deriving DecidableEq

/-- It does not report, or has nothing to report. -/
def Mouse.Quiet (m : Mouse) : Prop := m.reporting = true → m.moves = []

structure Controller where
  /-- The command byte: bit 1 enables the mouse's interrupt, bit 4 switches the
  keyboard's port off and bit 5 the mouse's. -/
  config  : UInt8
  /-- The output buffer, and what waits behind it. -/
  output  : List UInt8
  /-- The byte that the data port last gave, and gives again while the output buffer is empty. -/
  last    : UInt8
  /-- The written byte that was not taken yet, its port, and the status reads until it is. -/
  input   : Option (Nat × UInt16 × UInt8)
  /-- The command that waits for its data byte. -/
  expects : Option UInt8
  /-- The mouse's answer on its way, and the status reads until it is there. -/
  answer  : Option (Nat × UInt8)
  mouse   : Mouse
  writes  : Nat
deriving DecidableEq

/-- What the hardware is free to do. -/
structure Hardware where
  /-- The status reads until the n-th written byte is taken. -/
  accept : Nat → Nat
  /-- The status reads until the answer to the mouse's n-th byte is there. -/
  travel : Nat → Nat
  /-- The mouse's answer to its n-th byte. -/
  reply  : Nat → Option UInt8
  /-- The status bits above the lowest two. -/
  flags  : UInt8

/-- A byte on port 0x64. -/
def Controller.command (c : Controller) (cmd : UInt8) : Controller :=
  if cmd = 0x20 then { c with output := c.output ++ [c.config], expects := none }
  else if cmd = 0x60 ∨ cmd = 0xD4 then { c with expects := some cmd }
  else if cmd = 0xA8 then { c with config := c.config &&& 0xDF, expects := none }
  else if cmd = 0xAD then { c with config := c.config ||| 0x10, expects := none }
  else { c with expects := none }

/-- What the mouse sends by itself. Its port may be off. -/
def Controller.report (c : Controller) : Controller :=
  match c.mouse.moves with
  | [] => c
  | b :: rest =>
    if c.mouse.reporting ∧ c.config &&& 0x20 = 0 then
      { c with output := c.output ++ b.toList, mouse := { c.mouse with moves := rest } }
    else c

/-- The mouse's answer on its way. It sends nothing else until the answer is there. -/
def Controller.deliver (c : Controller) : Controller :=
  match c.answer with
  | none => c.report
  | some (0, b) => { c with output := c.output ++ [b], answer := none }
  | some (n + 1, b) => { c with answer := some (n, b) }

/-- The status reads until the byte in the input buffer is gone. -/
def Controller.delay (c : Controller) : Nat :=
  match c.input with
  | none => 0
  | some (n, _) => n + 1

/-- Nothing comes from the mouse unless it is sent something. -/
def Controller.Silent (c : Controller) : Prop := c.answer = none ∧ c.mouse.Quiet

theorem Controller.Silent.deliver {c : Controller} (h : c.Silent) : c.deliver = c := by
  rw [Controller.deliver, h.1]
  show c.report = c
  rw [report]
  split
  · rfl
  · rename_i b rest hMoves
    refine if_neg fun hReports => ?_
    cases hMoves.symm.trans (h.2 hReports.1)

/-- The controller with one more write counted. -/
def Controller.counted (c : Controller) : Controller :=
  { c with writes := c.writes + 1 }

theorem or_and (a b m : UInt8) : (a ||| b) &&& m = (a &&& m) ||| (b &&& m) :=
  UInt8.toBitVec_inj.mp BitVec.and_or_distrib_right

namespace Hardware

variable (hw : Hardware)

/-- The command 0xF4 switches the reports on; the mouse obeys if it acknowledges. -/
def receive (m : Mouse) (value : UInt8) : Mouse where
  reporting := m.reporting || (value == 0xF4 && hw.reply m.received == some 0xFA)
  received  := m.received + 1
  moves     := m.moves

/-- A byte on port 0x60. Without a command it is for the keyboard. -/
def data (c : Controller) (value : UInt8) : Controller :=
  if c.expects = some 0x60 then { c with config := value, expects := none }
  else if c.expects = some 0xD4 ∧ c.config &&& 0x20 = 0 then
    { c with
      expects := none
      answer := (hw.reply c.mouse.received).map fun r => (hw.travel c.mouse.received, r)
      mouse := hw.receive c.mouse value }
  else { c with expects := none }

def take (c : Controller) (port : UInt16) (value : UInt8) : Controller :=
  if port = 0x64 then c.command value else hw.data c value

/-- The byte in the input buffer. -/
def accepted (c : Controller) : Controller :=
  match c.input with
  | none => c
  | some (0, port, value) => hw.take { c with input := none } port value
  | some (n + 1, w) => { c with input := some (n, w) }

/-- What happens between two status reads. -/
def tick (c : Controller) : Controller := hw.accepted c.deliver

def status (c : Controller) : UInt8 :=
  (if c.output = [] then 0 else 1) ||| (if c.input = none then 0 else 2) ||| (hw.flags &&& 0xFC)

def bus : Bus Controller UInt16 UInt8 where
  read c port :=
    if port = 0x64 then (hw.status (hw.tick c), hw.tick c)
    else match c.output with
      | [] => (c.last, c)
      | b :: rest => (b, { c with output := rest, last := b })
  write c port value :=
    { c with input := some (hw.accept c.writes, port, value), writes := c.writes + 1 }

-- ---------------------------------------------------------------------------
-- Status reads
-- ---------------------------------------------------------------------------

theorem readStatus_eq (c : Controller) : readStatus hw.bus c = (hw.status (hw.tick c), hw.tick c) :=
  rfl

theorem flags_and (m : UInt8) (h : 0xFC &&& m = 0) : hw.flags &&& 0xFC &&& m = 0 := by
  rw [UInt8.and_assoc, h, UInt8.and_zero]

theorem status_input (c : Controller) : hw.status c &&& 0x02 = 0 ↔ c.input = none := by
  unfold status
  rw [or_and, or_and, hw.flags_and 0x02 rfl]
  by_cases hOut : c.output = [] <;> by_cases hIn : c.input = none
  all_goals
    simp only [hOut, hIn, if_true, if_false]
    decide

theorem status_output (c : Controller) : hw.status c &&& 0x01 ≠ 0 ↔ c.output ≠ [] := by
  unfold status
  rw [or_and, or_and, hw.flags_and 0x01 rfl]
  by_cases hOut : c.output = [] <;> by_cases hIn : c.input = none
  all_goals
    simp only [hOut, hIn, if_true, if_false, ne_eq]
    decide

-- ---------------------------------------------------------------------------
-- Waiting until a byte is taken
-- ---------------------------------------------------------------------------

/-- The controller once it has taken the byte in its input buffer. -/
def settled (c : Controller) : Controller :=
  match c.input with
  | none => c
  | some (_, port, value) => hw.take { c with input := none } port value

theorem take_input (c : Controller) (port : UInt16) (value : UInt8) :
    (hw.take c port value).input = c.input := by
  unfold take Controller.command data
  split_ifs <;> rfl

theorem settled_input (c : Controller) : (hw.settled c).input = none := by
  unfold settled
  split
  · assumption
  · exact hw.take_input _ _ _

/-- `c` will be `d`, an idle controller, before a poll gives up. -/
structure Soon (c d : Controller) : Prop where
  silent  : c.Silent
  delay   : c.delay < 10000
  settled : hw.settled c = d
  after   : d.Silent

variable {hw}

theorem Soon.input {c d : Controller} (h : hw.Soon c d) : d.input = none :=
  h.settled ▸ hw.settled_input c

theorem Soon.refl {d : Controller} (hInput : d.input = none) (hSilent : d.Silent) :
    hw.Soon d d where
  silent := hSilent
  delay := by simp [Controller.delay, hInput]
  settled := by simp only [Hardware.settled, hInput]
  after := hSilent

/-- A status read takes the byte, or brings it closer. -/
theorem Soon.tick {c d : Controller} (h : hw.Soon c d) :
    ((hw.tick c).input = none ∧ hw.tick c = d) ∨
    ((hw.tick c).input ≠ none ∧ (hw.tick c).output = c.output ∧ hw.Soon (hw.tick c) d ∧
      (hw.tick c).delay < c.delay) := by
  have hInput := h.input
  rw [Hardware.tick, h.silent.deliver]
  obtain ⟨cfg, out, last, input, ex, answer, m, w⟩ := c
  obtain ⟨hSilent, hDelay, hSettled, hAfter⟩ := h
  rcases input with _ | ⟨_ | n, port, value⟩
  · exact .inl ⟨rfl, hSettled⟩
  · subst hSettled
    exact .inl ⟨hInput, rfl⟩
  · have hLess : n + 1 < n + 1 + 1 := Nat.lt_succ_self _
    have hNext : hw.Soon ⟨cfg, out, last, some (n, port, value), ex, answer, m, w⟩ d :=
      ⟨hSilent, Nat.lt_trans hLess hDelay, hSettled, hAfter⟩
    exact .inr ⟨fun hNone => (nomatch hNone), rfl, hNext, hLess⟩

theorem waitInputClear_soon {c d : Controller} (h : hw.Soon c d) :
    waitInputClear hw.bus 10000 c = (true, d) := by
  refine poll_eq_of_measure (fun c => hw.Soon c d) (fun _ => d) Controller.delay
    (fun s hs hClear => ?_) (fun s hs hFull => ?_) h h.delay
  · rw [readStatus_eq, status_input] at hClear
    rcases hs.tick with ⟨-, hEq⟩ | ⟨hBusy, -⟩
    · exact hEq
    · exact absurd hClear hBusy
  · rw [readStatus_eq, status_input] at hFull
    rcases hs.tick with ⟨hNone, -⟩ | ⟨-, -, hNext, hLess⟩
    · exact absurd hNone hFull
    · exact ⟨hNext, hLess, rfl⟩

theorem writeControllerCmd_soon {c d : Controller} (h : hw.Soon c d) (cmd : UInt8) :
    writeControllerCmd hw.bus cmd c = (true, hw.bus.write d 0x64 cmd) := by
  rw [writeControllerCmd, waitInputClear_soon h]

-- ---------------------------------------------------------------------------
-- Written bytes
-- ---------------------------------------------------------------------------

/-- A written byte and the mouse's answer to it are there, both, before a poll gives up. -/
def Prompt (hw : Hardware) : Prop := ∀ n m, hw.accept n + hw.travel m + 3 ≤ 10000

theorem Soon.write (hPrompt : hw.Prompt) {d : Controller} (hInput : d.input = none)
    (hSilent : d.Silent) {port : UInt16} {value : UInt8}
    (hAfter : (hw.take d.counted port value).Silent) :
    hw.Soon (hw.bus.write d port value) (hw.take d.counted port value) := by
  obtain ⟨cfg, out, last, input, ex, answer, m, w⟩ := d
  cases hInput
  have hBound := hPrompt w 0
  exact ⟨hSilent, by simp only [bus, Controller.delay]; omega, rfl, hAfter⟩

theorem command_silent {c : Controller} (h : c.Silent) (cmd : UInt8) :
    (c.command cmd).Silent := by
  unfold Controller.command
  split_ifs <;> exact h

/-- A command goes out and will be taken. -/
theorem Soon.command (hPrompt : hw.Prompt) {c d : Controller} (h : hw.Soon c d) (cmd : UInt8) :
    writeControllerCmd hw.bus cmd c = (true, hw.bus.write d 0x64 cmd) ∧
      hw.Soon (hw.bus.write d 0x64 cmd) (d.counted.command cmd) := by
  refine ⟨writeControllerCmd_soon h cmd, ?_⟩
  exact Soon.write hPrompt h.input h.after (command_silent (c := d.counted) h.after cmd)

-- ---------------------------------------------------------------------------
-- The flush
-- ---------------------------------------------------------------------------

/-- `c` will be `d`, whatever is in the output buffer meanwhile. -/
def SoonBehind (hw : Hardware) (c d : Controller) : Prop :=
  ∀ out last,
    hw.Soon { c with output := out, last := last } { d with output := out, last := last }

theorem SoonBehind.tick {c d : Controller} (h : SoonBehind hw c d) :
    SoonBehind hw (hw.tick c) d ∧ (hw.tick c).output = c.output := by
  have hSilent : c.Silent := (h c.output c.last).silent
  rw [Hardware.tick, hSilent.deliver]
  obtain ⟨cfg, out, last, input, ex, answer, m, w⟩ := c
  rcases input with _ | ⟨_ | n, port, value⟩
  · exact ⟨h, rfl⟩
  · have hTaken : hw.accepted ⟨cfg, out, last, some (0, port, value), ex, answer, m, w⟩ =
        { d with output := out, last := last } := (h out last).settled
    rw [hTaken]
    exact ⟨fun o l => Soon.refl (h o l).input (h o l).after, rfl⟩
  · refine ⟨fun o l => ⟨hSilent, ?_, (h o l).settled, (h o l).after⟩, rfl⟩
    exact Nat.lt_trans (Nat.lt_succ_self _) (h o l).delay

theorem readData_cons {c : Controller} {b : UInt8} {rest : List UInt8} (h : c.output = b :: rest) :
    readData hw.bus c = (b, { c with output := rest, last := b }) := by
  simp only [readData, bus, h]
  rfl

/-- The flush empties the output buffer, one byte a round. -/
theorem flush_soon {d : Controller} : ∀ {out : List UInt8} {fuel : Nat} {c : Controller},
    SoonBehind hw c d → c.output = out → out.length ≤ fuel →
    ∃ c' last, flush hw.bus fuel c = some c' ∧
      hw.Soon c' { d with output := [], last := last } := by
  intro out
  induction out with
  | nil =>
    intro fuel c h hOut _
    obtain ⟨hTick, hSame⟩ := h.tick
    have hClear : (readStatus hw.bus c).1 &&& 0x01 = 0 := by
      by_contra hByte
      rw [readStatus_eq] at hByte
      exact (hw.status_output _).mp hByte (hSame.trans hOut)
    have hSoon : hw.Soon (hw.tick c)
        { d with output := (hw.tick c).output, last := (hw.tick c).last } := hTick _ _
    rw [hSame, hOut] at hSoon
    exact ⟨hw.tick c, (hw.tick c).last, flush_of_clear hClear fuel, hSoon⟩
  | cons b rest ih =>
    intro fuel c h hOut hFuel
    obtain ⟨hTick, hSame⟩ := h.tick
    obtain ⟨fuel, rfl⟩ := Nat.exists_eq_succ_of_ne_zero
      (Nat.ne_of_gt (Nat.lt_of_lt_of_le (Nat.zero_lt_succ _) hFuel))
    have hByte : (readStatus hw.bus c).1 &&& 0x01 ≠ 0 := by
      rw [readStatus_eq, status_output, hSame, hOut]
      exact List.cons_ne_nil b rest
    have hRound : flushRound hw.bus c = { hw.tick c with output := rest, last := b } := by
      rw [flushRound, readStatus_eq, readData_cons (hSame.trans hOut)]
    obtain ⟨c', last, hFlush, hSoon⟩ := ih (c := flushRound hw.bus c)
      (by rw [hRound]; exact hTick) (by rw [hRound]) (Nat.le_of_succ_le_succ hFuel)
    exact ⟨c', last, (flush_of_byte hByte fuel).trans hFlush, hSoon⟩

-- ---------------------------------------------------------------------------
-- The command byte
-- ---------------------------------------------------------------------------

/-- The byte in the input buffer is the first that puts something out. -/
theorem Soon.poll_output {c d : Controller} (h : hw.Soon c d) (hOut : d.output ≠ [])
    (hEmpty : c.output = []) :
    poll (readStatus hw.bus) (fun status => status &&& 0x01 ≠ 0) 10000 c = (true, d) := by
  refine poll_eq_of_measure (fun c => hw.Soon c d ∧ c.output = []) (fun _ => d) Controller.delay
    (fun s hs hByte => ?_) (fun s hs hNone => ?_) ⟨h, hEmpty⟩ h.delay
  · rw [readStatus_eq, status_output] at hByte
    rcases hs.1.tick with ⟨-, hEq⟩ | ⟨-, hSame, -⟩
    · exact hEq
    · exact absurd (hSame.trans hs.2) hByte
  · rw [readStatus_eq, status_output] at hNone
    rcases hs.1.tick with ⟨-, hEq⟩ | ⟨-, hSame, hNext, hLess⟩
    · exact absurd (hEq ▸ hOut) hNone
    · exact ⟨⟨hNext, hSame.trans hs.2⟩, hLess, rfl⟩

theorem readControllerConfig_soon (hPrompt : hw.Prompt) {c d : Controller} (h : hw.Soon c d)
    (hEmpty : d.output = []) :
    readControllerConfig hw.bus c =
      (some d.config, { d.counted with expects := none, last := d.config }) := by
  obtain ⟨hCmd, hSoon⟩ := h.command hPrompt 0x20
  have hTaken : d.counted.command 0x20 =
      { d.counted with output := [d.config], expects := none } := by
    simp only [Controller.command, if_true, Controller.counted, hEmpty, List.nil_append]
  rw [hTaken] at hSoon
  have hPoll := hSoon.poll_output (List.cons_ne_nil _ _) hEmpty
  have hRead : readData hw.bus { d.counted with output := [d.config], expects := none } =
      (d.config, { d.counted with output := [], expects := none, last := d.config }) :=
    readData_cons rfl
  rw [readControllerConfig, hCmd]
  show waitForData hw.bus 10000 _ = _
  rw [waitForData, hPoll]
  show (some (readData hw.bus _).1, (readData hw.bus _).2) = _
  rw [hRead]
  simp only [Controller.counted, hEmpty]

theorem writeControllerData_soon {c d : Controller} (h : hw.Soon c d) (value : UInt8) :
    writeControllerData hw.bus value c = (true, hw.bus.write d 0x60 value) := by
  rw [writeControllerData, waitInputClear_soon h]

/-- The command byte gets bit 1, and keeps the others. -/
theorem enableIrq_soon (hPrompt : hw.Prompt) {c d : Controller} (h : hw.Soon c d)
    (hEmpty : d.output = []) :
    ∃ last w, hw.Soon (enableIrq hw.bus c)
      { d with config := d.config ||| 0x02, last := last, expects := none, writes := w } := by
  have hConfig := readControllerConfig_soon hPrompt h hEmpty
  rw [enableIrq, hConfig]
  dsimp only
  by_cases hWant : d.config ||| 0x02 ≠ d.config
  · rw [if_pos hWant]
    have hRead : hw.Soon { d.counted with expects := none, last := d.config }
        { d.counted with expects := none, last := d.config } := Soon.refl h.input h.after
    obtain ⟨hCmd, hSoon⟩ := hRead.command hPrompt 0x60
    rw [hCmd]
    dsimp only
    rw [writeControllerData_soon hSoon]
    exact ⟨d.config, d.writes + 3, Soon.write hPrompt hSoon.input hSoon.after h.after⟩
  · rw [if_neg hWant]
    rw [not_not] at hWant
    rw [hWant]
    exact ⟨d.config, d.writes + 1, Soon.refl h.input h.after⟩

-- ---------------------------------------------------------------------------
-- The mouse
-- ---------------------------------------------------------------------------

section Mouse

variable {cfg last value : UInt8} {m : Mouse} {w : Nat}

/-- A mouse that is not switched on stays as quiet as it was. -/
theorem receive_quiet (hQuiet : m.Quiet) (hAck : hw.reply m.received ≠ some 0xFA) :
    (hw.receive m value).Quiet := by
  intro hReports
  have hBefore : m.reporting = true := by simpa [receive, hAck] using hReports
  exact hQuiet hBefore

theorem poll_succ_of_empty {c : Controller} (h : (hw.tick c).output = []) (maxLoops : Nat) :
    poll (readStatus hw.bus) (fun status => status &&& 0x01 ≠ 0) (maxLoops + 1) c =
      poll (readStatus hw.bus) (fun status => status &&& 0x01 ≠ 0) maxLoops (hw.tick c) := by
  refine poll_of_not (fun hByte => ?_) maxLoops
  rw [readStatus_eq, status_output] at hByte
  exact hByte h

/-- A byte for the mouse is taken. -/
theorem poll_sending (hQuiet : m.Quiet) (hClock : cfg &&& 0x20 = 0) (rest : Nat) : ∀ n : Nat,
    poll (readStatus hw.bus) (fun status => status &&& 0x01 ≠ 0) (rest + (n + 1))
        ⟨cfg, [], last, some (n, 0x60, value), some 0xD4, none, m, w⟩ =
      poll (readStatus hw.bus) (fun status => status &&& 0x01 ≠ 0) rest
        ⟨cfg, [], last, none, none,
          (hw.reply m.received).map fun r => (hw.travel m.received, r),
          hw.receive m value, w⟩ := by
  have hTick : ∀ n, hw.tick ⟨cfg, [], last, some (n, 0x60, value), some 0xD4, none, m, w⟩ =
      hw.accepted ⟨cfg, [], last, some (n, 0x60, value), some 0xD4, none, m, w⟩ := fun n =>
    congrArg hw.accepted (Controller.Silent.deliver ⟨rfl, hQuiet⟩)
  intro n
  induction n with
  | zero =>
    have hTaken : hw.tick ⟨cfg, [], last, some (0, 0x60, value), some 0xD4, none, m, w⟩ =
        ⟨cfg, [], last, none, none,
          (hw.reply m.received).map fun r => (hw.travel m.received, r),
          hw.receive m value, w⟩ := by
      have hOther : ¬ some (0xD4 : UInt8) = some 0x60 := by decide
      rw [hTick]
      show hw.data ⟨cfg, [], last, none, some 0xD4, none, m, w⟩ value = _
      rw [data, if_neg hOther, if_pos ⟨rfl, hClock⟩]
    rw [poll_succ_of_empty (by rw [hTaken]), hTaken]
  | succ n ih =>
    have hEmpty : (hw.tick ⟨cfg, [], last, some (n + 1, 0x60, value), some 0xD4, none, m, w⟩).output
        = [] := by rw [hTick]; rfl
    rw [← Nat.add_assoc rest, poll_succ_of_empty hEmpty, hTick]
    exact ih

/-- An answer on its way arrives. -/
theorem poll_travelling {b : UInt8} (rest : Nat) : ∀ n : Nat,
    poll (readStatus hw.bus) (fun status => status &&& 0x01 ≠ 0) (rest + (n + 1))
        ⟨cfg, [], last, none, none, some (n, b), m, w⟩ =
      (true, ⟨cfg, [b], last, none, none, none, m, w⟩) := by
  intro n
  induction n with
  | zero =>
    refine poll_of_ok ?_ rest
    rw [readStatus_eq, status_output]
    exact List.cons_ne_nil b []
  | succ n ih => exact (poll_succ_of_empty rfl (rest + (n + 1))).trans ih

/-- The driver gets the mouse's answer, or gives up. -/
theorem waitForData_sending (hPrompt : hw.Prompt) (hQuiet : m.Quiet) (hClock : cfg &&& 0x20 = 0)
    (n : Nat) :
    waitForData hw.bus 10000
        ⟨cfg, [], last, some (hw.accept n, 0x60, value), some 0xD4, none, m, w⟩ =
      (hw.reply m.received, ⟨cfg, [], (hw.reply m.received).getD last, none, none, none,
        hw.receive m value, w⟩) := by
  have hBound := hPrompt n m.received
  obtain ⟨rest, hRest⟩ : ∃ rest,
      10000 = rest + (hw.travel m.received + 1) + (hw.accept n + 1) :=
    ⟨9998 - hw.travel m.received - hw.accept n, by omega⟩
  rw [waitForData, hRest, poll_sending hQuiet hClock]
  cases hReply : hw.reply m.received with
  | none =>
    have hStill : hw.tick ⟨cfg, [], last, none, none, none, hw.receive m value, w⟩ =
        ⟨cfg, [], last, none, none, none, hw.receive m value, w⟩ := by
      have hSilent : (hw.receive m value).Quiet :=
        receive_quiet hQuiet (by rw [hReply]; exact nofun)
      exact congrArg hw.accepted (Controller.Silent.deliver ⟨rfl, hSilent⟩)
    have hEmpty : ¬ (readStatus hw.bus
        ⟨cfg, [], last, none, none, none, hw.receive m value, w⟩).1 &&& 0x01 ≠ 0 := by
      rw [readStatus_eq, hStill]
      exact fun hByte => (hw.status_output _).mp hByte rfl
    rw [Option.map_none, poll_of_stuck hStill hEmpty]
    rfl
  | some r =>
    rw [Option.map_some, poll_travelling rest]
    rfl

/-- One attempt: the mouse gets the byte, the driver its answer. -/
theorem attempt_soon (hPrompt : hw.Prompt) {c d : Controller} (h : hw.Soon c d)
    (hEmpty : d.output = []) (hClock : d.config &&& 0x20 = 0) (value : UInt8) :
    ∃ s, writeMouseData hw.bus value c = (true, s) ∧
      waitForData hw.bus 10000 s = (hw.reply d.mouse.received,
        { d with
          last := (hw.reply d.mouse.received).getD d.last
          expects := none
          mouse := hw.receive d.mouse value
          writes := d.writes + 2 }) := by
  obtain ⟨hCmd, hSoon⟩ := h.command hPrompt 0xD4
  refine ⟨hw.bus.write (d.counted.command 0xD4) 0x60 value, ?_, ?_⟩
  · rw [writeMouseData, hCmd]
    dsimp only
    rw [waitInputClear_soon hSoon]
  · have hInput := h.input
    obtain ⟨hAnswer, hQuiet⟩ := h.after
    obtain ⟨cfg, out, last, input, ex, answer, m, w⟩ := d
    dsimp only at hInput hAnswer hEmpty
    subst hInput hAnswer hEmpty
    exact waitForData_sending hPrompt hQuiet hClock (w + 1)

/-- The mouse after at most so many attempts. -/
def attempts (hw : Hardware) (value : UInt8) : Nat → Mouse → Mouse
  | 0, m => m
  | left + 1, m =>
    if hw.reply m.received = some 0xFA then hw.receive m value
    else attempts hw value left (hw.receive m value)

/-- The attempts end with an acknowledgement; anything else is answered by the next one. -/
theorem sendMouseCmdWithAck_succ {c s s' : Controller} {r : Option UInt8}
    (hWrite : writeMouseData hw.bus value c = (true, s))
    (hWait : waitForData hw.bus 10000 s = (r, s')) (left : Nat) :
    (sendMouseCmdWithAck hw.bus value (left + 1) c).2 =
      if r = some 0xFA then s' else (sendMouseCmdWithAck hw.bus value left s').2 := by
  rw [sendMouseCmdWithAck, hWrite]
  dsimp only
  rw [hWait]
  rcases r with _ | resp
  · rfl
  · dsimp only
    simp only [Option.some.injEq]
    split_ifs with hAck hResend hLast
    · rfl
    · -- a resend asked for by the last answer ends the loop, as no attempts are left
      rw [hLast]
      rfl
    · rfl
    · rfl

theorem sendMouseCmdWithAck_soon (hPrompt : hw.Prompt) (value : UInt8) :
    ∀ (left : Nat) {c d : Controller}, hw.Soon c d → d.output = [] → d.config &&& 0x20 = 0 →
    ∃ last w, (sendMouseCmdWithAck hw.bus value (left + 1) c).2 =
      { d with
        last := last
        expects := none
        mouse := attempts hw value (left + 1) d.mouse
        writes := w } := by
  intro left
  induction left with
  | zero =>
    intro c d h hEmpty hClock
    obtain ⟨s, hWrite, hWait⟩ := attempt_soon hPrompt h hEmpty hClock value
    refine ⟨(hw.reply d.mouse.received).getD d.last, d.writes + 2, ?_⟩
    rw [sendMouseCmdWithAck_succ hWrite hWait]
    simp only [attempts, sendMouseCmdWithAck, ite_self]
  | succ left ih =>
    intro c d h hEmpty hClock
    obtain ⟨s, hWrite, hWait⟩ := attempt_soon hPrompt h hEmpty hClock value
    rw [sendMouseCmdWithAck_succ hWrite hWait, attempts]
    by_cases hAck : hw.reply d.mouse.received = some 0xFA
    · rw [if_pos hAck, if_pos hAck]
      exact ⟨_, d.writes + 2, rfl⟩
    · rw [if_neg hAck, if_neg hAck]
      have hSilent : { d with mouse := hw.receive d.mouse value }.Silent :=
        ⟨h.after.1, receive_quiet h.after.2 hAck⟩
      exact ih (Soon.refl (d := { d with
        last := (hw.reply d.mouse.received).getD d.last
        expects := none
        mouse := hw.receive d.mouse value
        writes := d.writes + 2 }) h.input hSilent) hEmpty hClock

/-- The reports are on exactly if they were, or an attempt was acknowledged. -/
theorem attempts_reporting : ∀ (left : Nat) (m : Mouse),
    (attempts hw 0xF4 left m).reporting = true ↔
      m.reporting = true ∨ ∃ k < left, hw.reply (m.received + k) = some 0xFA := by
  intro left
  induction left with
  | zero => simp [attempts]
  | succ left ih =>
    intro m
    rw [attempts]
    by_cases hAck : hw.reply m.received = some 0xFA
    · rw [if_pos hAck]
      have hOn : (hw.receive m 0xF4).reporting = true := by simp [receive, hAck]
      exact ⟨fun _ => .inr ⟨0, Nat.zero_lt_succ left, hAck⟩, fun _ => hOn⟩
    · have hSame : (hw.receive m 0xF4).reporting = m.reporting := by simp [receive, hAck]
      rw [if_neg hAck, ih, hSame]
      refine or_congr_right ⟨?_, ?_⟩
      · rintro ⟨k, hk, hReply⟩
        refine ⟨k + 1, Nat.succ_lt_succ hk, ?_⟩
        rwa [← Nat.add_assoc, Nat.add_right_comm]
      · rintro ⟨_ | k, hk, hReply⟩
        · exact absurd hReply hAck
        · refine ⟨k, Nat.lt_of_succ_lt_succ hk, ?_⟩
          show hw.reply (m.received + 1 + k) = some 0xFA
          rwa [Nat.add_right_comm]

theorem attempts_moves : ∀ (left : Nat) (m : Mouse),
    (attempts hw value left m).moves = m.moves := by
  intro left
  induction left with
  | zero => exact fun _ => rfl
  | succ left ih =>
    intro m
    rw [attempts]
    split_ifs
    · rfl
    · exact ih _

/-- At most so many bytes are sent, and none after an acknowledgement. -/
theorem attempts_received : ∀ (left : Nat) (m : Mouse),
    (attempts hw value left m).received ≤ m.received + left ∧
    ∀ k, m.received ≤ k → k + 1 < (attempts hw value left m).received →
      hw.reply k ≠ some 0xFA := by
  intro left
  induction left with
  | zero =>
    intro m
    refine ⟨Nat.le_refl _, fun k hLow hHigh => ?_⟩
    exact absurd (Nat.lt_of_succ_lt hHigh) (Nat.not_lt.mpr hLow)
  | succ left ih =>
    intro m
    rw [attempts]
    by_cases hAck : hw.reply m.received = some 0xFA
    · rw [if_pos hAck]
      refine ⟨Nat.add_le_add_left (Nat.succ_le_succ (Nat.zero_le left)) _, fun k hLow hHigh => ?_⟩
      exact absurd (Nat.lt_of_succ_lt_succ hHigh) (Nat.not_lt.mpr hLow)
    · rw [if_neg hAck]
      obtain ⟨hMost, hBefore⟩ := ih (hw.receive m value)
      have hNext : (hw.receive m value).received = m.received + 1 := rfl
      refine ⟨by omega, fun k hLow hHigh => ?_⟩
      rcases Nat.eq_or_lt_of_le hLow with rfl | hLater
      · exact hAck
      · exact hBefore k hLater hHigh

end Mouse

-- ---------------------------------------------------------------------------
-- Both drivers
-- ---------------------------------------------------------------------------

/-- The two `start`s, in the order of `kernel_main`. -/
def startBoth (hw : Hardware) (fuel : Nat) (c : Controller) : Option Controller :=
  setUp hw.bus fuel (disableKeyboard hw.bus c)

/-- **The drivers set the controller up.** From any controller that has taken what
was written and expects no answer, whatever its command byte and whatever is in its
output buffer, if the mouse sends nothing by itself before it is switched on, and a
byte and the answer to it take less time than one poll: both drivers finish. The
controller is idle again and its output buffer empty. In the command byte the
mouse's interrupt is enabled, its port on and the keyboard's port off, and the other
bits are as before. The mouse reports exactly if it did before or if one of the
answers to its next four bytes is an acknowledgement; it gets no more than four
bytes and none after an acknowledgement, and all it sends by itself is yet to
come. -/
theorem start_sets_up_mouse (hPrompt : hw.Prompt) {c : Controller} (hInput : c.input = none)
    (hSilent : c.Silent) (fuel : Nat) (hFuel : c.output.length ≤ fuel) :
    ∃ c', startBoth hw fuel c = some c' ∧
      c'.config = (c.config ||| 0x10) &&& 0xDF ||| 0x02 ∧
      c'.output = [] ∧ c'.input = none ∧ c'.answer = none ∧
      (c'.mouse.reporting = true ↔
        c.mouse.reporting = true ∨ ∃ k < 4, hw.reply (c.mouse.received + k) = some 0xFA) ∧
      c'.mouse.received ≤ c.mouse.received + 4 ∧
      (∀ k, c.mouse.received ≤ k → k + 1 < c'.mouse.received → hw.reply k ≠ some 0xFA) ∧
      c'.mouse.moves = c.mouse.moves := by
  -- 0xAD, and 0xA8 once it is taken
  have hOff : hw.Soon (disableKeyboard hw.bus c) (c.counted.command 0xAD) := by
    rw [disableKeyboard, waitInputClear_soon (Soon.refl hInput hSilent)]
    exact Soon.write hPrompt hInput hSilent hSilent
  obtain ⟨hCmd, hOn⟩ := hOff.command hPrompt 0xA8
  have hBehind : SoonBehind hw (hw.bus.write (c.counted.command 0xAD) 0x64 0xA8)
      ((c.counted.command 0xAD).counted.command 0xA8) := fun out last =>
    Soon.write (d := { c.counted.command 0xAD with output := out, last := last })
      hPrompt hInput hSilent hSilent
  obtain ⟨s, last, hFlush, hFlushed⟩ := flush_soon hBehind rfl hFuel
  -- the command byte has the mouse's clock on when the mouse is sent its byte
  obtain ⟨last', w, hIrq⟩ := enableIrq_soon hPrompt hFlushed rfl
  have hClock : ((c.config ||| 0x10) &&& 0xDF ||| 0x02) &&& 0x20 = 0 := by
    rw [or_and, UInt8.and_assoc]
    exact congrArg (· ||| _) UInt8.and_zero
  obtain ⟨last'', w', hSend⟩ := sendMouseCmdWithAck_soon hPrompt 0xF4 3 hIrq rfl hClock
  refine ⟨(sendMouseCmdWithAck hw.bus 0xF4 4 (enableIrq hw.bus s)).2, ?_, ?_⟩
  · rw [startBoth, setUp, hCmd]
    dsimp only
    rw [hFlush, Option.map_some]
  · rw [hSend]
    exact ⟨rfl, rfl, hInput, hSilent.1, attempts_reporting 4 c.mouse,
      (attempts_received 4 c.mouse).1, (attempts_received 4 c.mouse).2, attempts_moves 4 c.mouse⟩

/-- A mouse that asks for one byte again. -/
def resending : Hardware where
  accept _ := 3
  travel _ := 5
  reply n := if n = 0 then some 0xFE else some 0xFA
  flags := 0x14

/-- The mouse's port is off, and two bytes are left in the output buffer. The mouse will be
moved as soon as it reports. -/
def afterReset : Controller where
  config  := 0x61
  output  := [0xAA, 0x1C]
  last    := 0
  input   := none
  expects := none
  answer  := none
  mouse   := ⟨false, 0, [some 0x08, some 0x05, none, some 0x00]⟩
  writes  := 0

theorem start_sets_up_mouse_resending :
    ∃ c', startBoth resending 2 afterReset = some c' ∧ c'.config = 0x53 ∧
      c'.mouse.reporting = true ∧ c'.mouse.received ≤ 4 ∧
      c'.mouse.moves = [some 0x08, some 0x05, none, some 0x00] := by
  have hPrompt : resending.Prompt := fun _ _ => (by omega : 3 + 5 + 3 ≤ 10000)
  have hSilent : afterReset.Silent := ⟨rfl, nofun⟩
  obtain ⟨c', hRun, hConfig, -, -, -, hReports, hMost, -, hMoves⟩ :=
    start_sets_up_mouse hPrompt (c := afterReset) rfl hSilent 2 (Nat.le_refl 2)
  exact ⟨c', hRun, hConfig, hReports.mpr (.inr ⟨1, by decide, rfl⟩), hMost, hMoves⟩

end Hardware

end Neutrix.Drivers.I8042
