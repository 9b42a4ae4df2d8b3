import Neutrix.Lib.Polling
import Neutrix.Lib.While

/-!
# Neutrix — setting up the PS/2 controller

Model of the controller parts of `src/driver_framework/drivers/ps2mouse.rs` and
`ps2kbd.rs`: the helpers that poll the controller, and what the two `start`s do
with them after they have registered their handlers. They are programs on a
bus, with port 0x64 for status and commands and port 0x60 for data. What a read
returns may depend on all that was read and written before.

The helpers poll a limited number of times. The flush of the output buffer
has no limit; `none` says that it is still running after `fuel` rounds.

`sequences` is the bus on which reads of the status port return the values of
one sequence and reads of the data port those of another, whatever was written.
A statement for all sequences covers every controller, also an absent one.
-/

namespace Neutrix.Drivers.Ps2

open Neutrix.Lib

section Driver

variable {σ : Type*} (bus : Bus σ UInt16 UInt8)

def readStatus (s : σ) : UInt8 × σ := bus.read s 0x64

def readData (s : σ) : UInt8 × σ := bus.read s 0x60

-- ---------------------------------------------------------------------------
-- Helpers with a limit
-- ---------------------------------------------------------------------------

def waitInputClear (maxLoops : Nat) (s : σ) : Bool × σ :=
  poll (readStatus bus) (fun status => status &&& 0x02 = 0) maxLoops s

def waitForData (maxLoops : Nat) (s : σ) : Option UInt8 × σ :=
  match poll (readStatus bus) (fun status => status &&& 0x01 ≠ 0) maxLoops s with
  | (true, s) =>
    let (b, s) := readData bus s
    (some b, s)
  | (false, s) => (none, s)

def writeControllerCmd (cmd : UInt8) (s : σ) : Bool × σ :=
  match waitInputClear bus 10000 s with
  | (false, s) => (false, s)
  | (true, s) => (true, bus.write s 0x64 cmd)

def writeControllerData (value : UInt8) (s : σ) : Bool × σ :=
  match waitInputClear bus 10000 s with
  | (false, s) => (false, s)
  | (true, s) => (true, bus.write s 0x60 value)

def readControllerConfig (s : σ) : Option UInt8 × σ :=
  match writeControllerCmd bus 0x20 s with
  | (false, s) => (none, s)
  | (true, s) => waitForData bus 10000 s

/-- The command 0xD4 sends the next byte to the mouse. -/
def writeMouseData (value : UInt8) (s : σ) : Bool × σ :=
  match writeControllerCmd bus 0xD4 s with
  | (false, s) => (false, s)
  | (true, s) =>
    match waitInputClear bus 10000 s with
    | (false, s) => (false, s)
    | (true, s) => (true, bus.write s 0x60 value)

/-- `left` attempts are left. A request to resend on the last one ends the loop. -/
def sendMouseCmdWithAck (cmd : UInt8) : Nat → σ → Bool × σ
  | 0, s => (false, s)
  | left + 1, s =>
    match writeMouseData bus cmd s with
    | (false, s) => sendMouseCmdWithAck cmd left s
    | (true, s) =>
      match waitForData bus 10000 s with
      | (some resp, s) =>
        if resp = 0xFA then (true, s)
        else if resp = 0xFE then
          if left = 0 then (false, s) else sendMouseCmdWithAck cmd left s
        else sendMouseCmdWithAck cmd left s
      | (none, s) => sendMouseCmdWithAck cmd left s

-- ---------------------------------------------------------------------------
-- `start`
-- ---------------------------------------------------------------------------

/-- One round of the flush: a status read that shows a byte, and the byte. -/
def flushRound (s : σ) : σ := (readData bus (readStatus bus s).2).2

/-- The last status read shows that the output buffer is empty. -/
def flush (fuel : Nat) (s : σ) : Option σ :=
  (loop (fun s => (readStatus bus s).1 &&& 0x01 ≠ 0) (flushRound bus) fuel s).map
    fun s => (readStatus bus s).2

/-- Sets bit 1 of the command byte: the mouse may interrupt. -/
def enableIrq (s : σ) : σ :=
  match readControllerConfig bus s with
  | (some cfg, s) =>
    let want := cfg ||| 0x02
    if want ≠ cfg then
      match writeControllerCmd bus 0x60 s with
      | (true, s) => (writeControllerData bus want s).2
      | (false, s) => s
    else s
  | (none, s) => s

/-- The controller set-up of the mouse driver's `start`. -/
def setUp (fuel : Nat) (s : σ) : Option σ :=
  let (_, s) := writeControllerCmd bus 0xA8 s
  (flush bus fuel s).map fun s =>
    let s := enableIrq bus s
    (sendMouseCmdWithAck bus 0xF4 4 s).2

/-- The end of the keyboard driver's `start`: 0xAD is sent even if the wait gave up. -/
def disableKeyboard (s : σ) : σ :=
  let (_, s) := waitInputClear bus 10000 s
  bus.write s 0x64 0xAD

variable {bus}

theorem flush_of_clear {s : σ} (h : (readStatus bus s).1 &&& 0x01 = 0) (fuel : Nat) :
    flush bus fuel s = some (readStatus bus s).2 :=
  congrArg (Option.map fun s => (readStatus bus s).2) (loop_of_not (fun hNot => hNot h) fuel)

theorem flush_of_byte {s : σ} (h : (readStatus bus s).1 &&& 0x01 ≠ 0) (fuel : Nat) :
    flush bus (fuel + 1) s = flush bus fuel (flushRound bus s) :=
  congrArg (Option.map fun s => (readStatus bus s).2) (loop_succ (s := s) h fuel)

end Driver

-- ---------------------------------------------------------------------------
-- Ports that return fixed sequences
-- ---------------------------------------------------------------------------

/-- How many values were read from the ports, and the writes to them. -/
structure Ports where
  statusReads : Nat
  dataReads   : Nat
  writes      : List (UInt16 × UInt8)

def Ports.initial : Ports := ⟨0, 0, []⟩

def sequences (status data : Nat → UInt8) : Bus Ports UInt16 UInt8 where
  read p port :=
    if port = 0x64 then (status p.statusReads, { p with statusReads := p.statusReads + 1 })
    else (data p.dataReads, { p with dataReads := p.dataReads + 1 })
  write p port value := { p with writes := p.writes ++ [(port, value)] }

end Neutrix.Drivers.Ps2
