import Mathlib.Data.List.Induction
import Mathlib.Data.List.Infix
import Neutrix.Drivers.Ps2Mouse

/-!
# Neutrix — from PS/2 bytes to cursor movements

Model of `irq_handler`, the packet queue and `mouse_event_loop` of
`src/driver_framework/drivers/ps2mouse.rs`. A `Packet` is what the mouse
sends: a flag byte with bit 3 set and no overflow, and two deltas of nine
bits whose sign bits are in the flag byte.

* `framing_run`: whatever the interleaving of interrupts and rounds of the
  event loop, one packet is handed over for three bytes, in order.
* `moves_iff`: the loop moves the cursor by the true deltas exactly as long
  as these fit into eight bits. The handler reads the delta bytes as `i8`
  and never looks at the sign bits.
* `packets_moved_iff`: both together, over streams of any length.
-/

namespace Neutrix.Ps2Mouse

open Neutrix.Lib

-- ---------------------------------------------------------------------------
-- Handler, queue and event loop
-- ---------------------------------------------------------------------------

structure Ps2MouseDriver where
  pktState : UInt8
  pktBuf   : Vector UInt8 3
  mouse    : Mouse

structure System where
  -- `get_global_instance_typed`
  drv   : Option Ps2MouseDriver
  -- `MOUSE_QUEUE`, once it is initialised
  queue : Option (List MousePacket)
  mem   : Memory

/-- `ArrayQueue::push` with capacity 256; the handler ignores a refusal. -/
def push (queue : List MousePacket) (pkt : MousePacket) : List MousePacket :=
  if queue.length < 256 then queue ++ [pkt] else queue

/-- The interrupt handler, for the byte `b` at port 0x60. -/
def irqHandler (s : System) (b : UInt8) : System :=
  match s.drv with
  | none => s
  | some drv =>
    match drv.pktState with
    | 0 =>
      -- not a valid packet start: the byte is dropped
      if b &&& 0x08 = 0 then s
      else { s with drv := some { drv with pktBuf := drv.pktBuf.set 0 b, pktState := 1 } }
    | 1 => { s with drv := some { drv with pktBuf := drv.pktBuf.set 1 b, pktState := 2 } }
    | 2 =>
      let buf := drv.pktBuf.set 2 b
      let pkt : MousePacket := ⟨buf[0], buf[1].toInt8, buf[2].toInt8⟩
      { s with drv := some { drv with pktBuf := buf, pktState := 0 }, queue := s.queue.map (push · pkt) }
    | _ => { s with drv := some { drv with pktState := 0 } }

/-- One round of `mouse_event_loop`; with an empty queue the task waits. -/
def eventLoopRound (vbe : Option VbeVga) (s : System) : System :=
  match s.queue with
  | none => { s with queue := some [] }
  | some [] => s
  | some (pkt :: rest) =>
    match s.drv with
    | none => { s with queue := some rest }
    | some drv =>
      let (mouse, mem) := update vbe (drv.mouse, s.mem) (.packet pkt)
      ⟨some { drv with mouse := mouse }, some rest, mem⟩

inductive Event where
  | irq (b : UInt8)
  | round
deriving DecidableEq

def step (vbe : Option VbeVga) (s : System) : Event → System
  | .irq b => irqHandler s b
  | .round => eventLoopRound vbe s

def runEvents (vbe : Option VbeVga) (s : System) (es : List Event) : System :=
  es.foldl (step vbe) s

-- ---------------------------------------------------------------------------
-- The handler as a reader of bytes
-- ---------------------------------------------------------------------------

/-- What the handler reads and writes of the driver. -/
structure Framer where
  pktState : UInt8
  pktBuf   : Vector UInt8 3

def Ps2MouseDriver.framer (drv : Ps2MouseDriver) : Framer := ⟨drv.pktState, drv.pktBuf⟩

def Framer.feed (f : Framer) (b : UInt8) : Framer × Option MousePacket :=
  match f.pktState with
  | 0 => if b &&& 0x08 = 0 then (f, none) else (⟨1, f.pktBuf.set 0 b⟩, none)
  | 1 => (⟨2, f.pktBuf.set 1 b⟩, none)
  | 2 => (⟨0, f.pktBuf.set 2 b⟩, some ⟨f.pktBuf[0], f.pktBuf[1].toInt8, b.toInt8⟩)
  | _ => (⟨0, f.pktBuf⟩, none)

@[simp] theorem Framer.feed_zero (buf : Vector UInt8 3) (b : UInt8) :
    feed ⟨0, buf⟩ b = if b &&& 0x08 = 0 then (⟨0, buf⟩, none) else (⟨1, buf.set 0 b⟩, none) := rfl

@[simp] theorem Framer.feed_one (buf : Vector UInt8 3) (b : UInt8) :
    feed ⟨1, buf⟩ b = (⟨2, buf.set 1 b⟩, none) := rfl

@[simp] theorem Framer.feed_two (buf : Vector UInt8 3) (b : UInt8) :
    feed ⟨2, buf⟩ b = (⟨0, buf.set 2 b⟩, some ⟨buf[0], buf[1].toInt8, b.toInt8⟩) := rfl

theorem Framer.feed_other {state : UInt8} (h0 : state ≠ 0) (h1 : state ≠ 1) (h2 : state ≠ 2)
    (buf : Vector UInt8 3) (b : UInt8) : feed ⟨state, buf⟩ b = (⟨0, buf⟩, none) := by
  unfold feed
  split
  · exact absurd ‹_› h0
  · exact absurd ‹_› h1
  · exact absurd ‹_› h2
  · rfl

/-- The bytes of the packet that is not complete. -/
def Framer.held (f : Framer) : List UInt8 :=
  match f.pktState with
  | 1 => [f.pktBuf[0]]
  | 2 => [f.pktBuf[0], f.pktBuf[1]]
  | _ => []

-- ---------------------------------------------------------------------------
-- What the mouse sends
-- ---------------------------------------------------------------------------

/-- Three bytes of the PS/2 protocol. -/
structure Report where
  flags  : UInt8
  x      : UInt8
  y      : UInt8
  always : flags &&& 0x08 ≠ 0

namespace Report

def bytes (p : Report) : List UInt8 := [p.flags, p.x, p.y]

/-- The report as the handler reads it. -/
def read (p : Report) : MousePacket := ⟨p.flags, p.x.toInt8, p.y.toInt8⟩

end Report

/-- A packet whose deltas fit their nine bits. -/
structure Packet extends Report where
  overflow : flags &&& 0xC0 = 0

namespace Packet

def bytes (p : Packet) : List UInt8 := p.toReport.bytes

/-- A number of nine bits in two's complement. -/
def signed (sign : Bool) (low : UInt8) : Int := if sign then low.toNat - 256 else low.toNat

def xDelta (p : Packet) : Int := signed (p.flags &&& 0x10 ≠ 0) p.x
def yDelta (p : Packet) : Int := signed (p.flags &&& 0x20 ≠ 0) p.y

/-- The packet as the handler reads it. -/
def read (p : Packet) : MousePacket := p.toReport.read

end Packet

/-- The bytes the interrupts deliver. -/
def fed (es : List Event) : List UInt8 :=
  es.filterMap fun
    | .irq b => some b
    | .round => none

/-- The packets the event loop takes out of the queue. -/
def received (vbe : Option VbeVga) (s : System) : List Event → List MousePacket
  | [] => []
  | .irq b :: es => received vbe (irqHandler s b) es
  | .round :: es =>
    (s.queue.getD []).head?.toList ++ received vbe (eventLoopRound vbe s) es

/-- Every packet that is completed finds room in the queue. -/
def HasRoom (vbe : Option VbeVga) (s : System) (es : List Event) : Prop :=
  ∀ before, before <+: es → ((runEvents vbe s before).queue.getD []).length < 256

-- ---------------------------------------------------------------------------
-- Framing
-- ---------------------------------------------------------------------------

/-- What the driver holds of a packet of which `part` has arrived. -/
inductive Holds (drv : Ps2MouseDriver) : List UInt8 → Prop where
  | header (hState : drv.pktState = 0) : Holds drv []
  | x (flags : UInt8) (hState : drv.pktState = 1) (hFlags : drv.pktBuf[0] = flags) :
      Holds drv [flags]
  | y (flags x : UInt8) (hState : drv.pktState = 2) (hFlags : drv.pktBuf[0] = flags)
      (hX : drv.pktBuf[1] = x) : Holds drv [flags, x]

/-- The bytes so far are the packets `done`, all handed over, and a part of the
next one. -/
structure Framing (ps : List Packet) (s : System) (bytes : List UInt8) (seen : List MousePacket)
    (done : List Packet) (part : List UInt8) : Prop where
  complete : done <+: ps
  bytes    : bytes = done.flatMap Packet.bytes ++ part
  holds    : ∃ drv, s.drv = some drv ∧ Holds drv part
  handed   : ∃ queue, s.queue = some queue ∧ seen ++ queue = done.map Packet.read

section Framing

variable {vbe : Option VbeVga} {ps : List Packet} {s : System} {bytes : List UInt8}
  {seen : List MousePacket} {done : List Packet} {part : List UInt8}

/-- The byte that comes next belongs to the next packet. -/
theorem Framing.next_byte (h : Framing ps s bytes seen done part) {b : UInt8}
    (hNext : bytes ++ [b] <+: ps.flatMap Packet.bytes) :
    ∃ p, done ++ [p] <+: ps ∧
      (part = [] ∧ b = p.flags ∨ part = [p.flags] ∧ b = p.x ∨ part = [p.flags, p.x] ∧ b = p.y) := by
  obtain ⟨rest, rfl⟩ := h.complete
  rw [h.bytes, List.append_assoc, List.flatMap_append, List.prefix_append_right_inj] at hNext
  cases rest with
  | nil => simp at hNext
  | cons p rest =>
    refine ⟨p, ⟨rest, by simp⟩, ?_⟩
    obtain ⟨drv, -, hHolds⟩ := h.holds
    rw [List.flatMap_cons, Packet.bytes, Report.bytes] at hNext
    cases hHolds with
    | header hState =>
      simp only [List.nil_append, List.cons_append, List.cons_prefix_cons] at hNext
      exact .inl ⟨rfl, hNext.1⟩
    | x flags hState hFlags =>
      simp only [List.nil_append, List.cons_append, List.cons_prefix_cons] at hNext
      exact .inr (.inl ⟨by rw [hNext.1], hNext.2.1⟩)
    | y flags x hState hFlags hX =>
      simp only [List.nil_append, List.cons_append, List.cons_prefix_cons] at hNext
      exact .inr (.inr ⟨by rw [hNext.1, hNext.2.1], hNext.2.2.1⟩)

/-- **One byte.** The first two are stored, the third completes the packet. -/
theorem Framing.irq (h : Framing ps s bytes seen done part) {b : UInt8}
    (hNext : bytes ++ [b] <+: ps.flatMap Packet.bytes)
    (hRoom : (s.queue.getD []).length < 256) :
    ∃ done' part', Framing ps (irqHandler s b) (bytes ++ [b]) seen done' part' := by
  obtain ⟨p, hMore, hCase⟩ := h.next_byte hNext
  obtain ⟨drv, hDrv, hHolds⟩ := h.holds
  obtain ⟨queue, hQueue, hHanded⟩ := h.handed
  rcases hCase with ⟨rfl, rfl⟩ | ⟨rfl, rfl⟩ | ⟨rfl, rfl⟩
  · cases hHolds with
    | header hState =>
      have hStep : irqHandler s p.flags =
          { s with drv := some { drv with pktBuf := drv.pktBuf.set 0 p.flags, pktState := 1 } } := by
        simp only [irqHandler, hDrv, hState]
        rw [if_neg p.always]
      rw [hStep]
      exact ⟨done, [p.flags], h.complete, by rw [h.bytes, List.append_nil],
        ⟨_, rfl, .x _ rfl (by simp)⟩, queue, hQueue, hHanded⟩
  · cases hHolds with
    | x flags hState hFlags =>
      have hStep : irqHandler s p.x =
          { s with drv := some { drv with pktBuf := drv.pktBuf.set 1 p.x, pktState := 2 } } := by
        simp only [irqHandler, hDrv, hState]
      rw [hStep]
      exact ⟨done, [p.flags, p.x], h.complete, by rw [h.bytes, List.append_assoc]; rfl,
        ⟨_, rfl, .y _ _ rfl (by simpa using hFlags) (by simp)⟩, queue, hQueue, hHanded⟩
  · cases hHolds with
    | y flags x hState hFlags hX =>
      have hPush : push queue p.read = queue ++ [p.read] := by
        rw [hQueue, Option.getD_some] at hRoom
        rw [push, if_pos hRoom]
      have hStep : irqHandler s p.y =
          { s with
            drv := some { drv with pktBuf := drv.pktBuf.set 2 p.y, pktState := 0 }
            queue := some (queue ++ [p.read]) } := by
        rw [← hPush]
        simp only [irqHandler, hDrv, hState, hQueue, Option.map_some]
        simp [hFlags, hX, Packet.read, Report.read]
      rw [hStep]
      refine ⟨done ++ [p], [], hMore, ?_, ⟨_, rfl, .header rfl⟩, _, rfl, ?_⟩
      · rw [h.bytes, List.append_nil, List.append_assoc, List.flatMap_append]
        simp [Packet.bytes, Report.bytes]
      · rw [← List.append_assoc, hHanded, List.map_append, List.map_singleton]

/-- **One round.** What the loop receives was handed over. -/
theorem Framing.round (h : Framing ps s bytes seen done part) :
    Framing ps (eventLoopRound vbe s) bytes (seen ++ (s.queue.getD []).head?.toList) done part := by
  obtain ⟨drv, hDrv, hHolds⟩ := h.holds
  obtain ⟨queue, hQueue, hHanded⟩ := h.handed
  cases queue with
  | nil =>
    have hStep : eventLoopRound vbe s = s := by simp only [eventLoopRound, hQueue]
    rw [hStep, hQueue]
    exact ⟨h.complete, h.bytes, ⟨drv, hDrv, hHolds⟩, [], hQueue, by simpa using hHanded⟩
  | cons pkt rest =>
    have hKeeps : ∀ mouse, Holds { drv with mouse := mouse } part := by
      intro mouse
      cases hHolds with
      | header hState => exact .header hState
      | x flags hState hFlags => exact .x flags hState hFlags
      | y flags x hState hFlags hX => exact .y flags x hState hFlags hX
    simp only [eventLoopRound, hQueue, hDrv]
    exact ⟨h.complete, h.bytes, ⟨_, rfl, hKeeps _⟩, rest, rfl, by simpa using hHanded⟩

theorem HasRoom.head {e : Event} {es : List Event} (h : HasRoom vbe s (e :: es)) :
    (s.queue.getD []).length < 256 := h [] List.nil_prefix

theorem HasRoom.tail {e : Event} {es : List Event} (h : HasRoom vbe s (e :: es)) :
    HasRoom vbe (step vbe s e) es :=
  fun before hPre => h (e :: before) (List.cons_prefix_cons.mpr ⟨rfl, hPre⟩)

/-- **Framing.** Interrupts and rounds in any order. -/
theorem framing_run {es : List Event} (h : Framing ps s bytes seen done part)
    (hBytes : bytes ++ fed es <+: ps.flatMap Packet.bytes) (hRoom : HasRoom vbe s es) :
    ∃ done' part', Framing ps (runEvents vbe s es) (bytes ++ fed es) (seen ++ received vbe s es)
      done' part' := by
  induction es generalizing s bytes seen done part with
  | nil => exact ⟨done, part, by simpa [fed, received, runEvents] using h⟩
  | cons e es ih =>
    cases e with
    | irq b =>
      have hSplit : bytes ++ fed (.irq b :: es) = bytes ++ [b] ++ fed es := by simp [fed]
      rw [hSplit] at hBytes ⊢
      obtain ⟨done', part', h'⟩ := h.irq ((List.prefix_append _ _).trans hBytes) hRoom.head
      exact ih h' hBytes hRoom.tail
    | round =>
      have hSplit : seen ++ received vbe s (.round :: es) =
          seen ++ (s.queue.getD []).head?.toList ++ received vbe (eventLoopRound vbe s) es := by
        rw [received, List.append_assoc]
      rw [hSplit]
      exact ih h.round hBytes hRoom.tail

end Framing

-- ---------------------------------------------------------------------------
-- Movements
-- ---------------------------------------------------------------------------

def cursor (drv : Ps2MouseDriver) : Int × Int := (drv.mouse.cursorX, drv.mouse.cursorY)

/-- The position that a packet out of the queue leads to. -/
def moveRead (c : Int × Int) (pkt : MousePacket) : Int × Int :=
  let m := Mouse.applyPacket ⟨c.1, c.2, none⟩ pkt
  (m.cursorX, m.cursorY)

/-- The position that the packet means: X to the right, Y upwards, at most 16 each. -/
def move (c : Int × Int) (p : Packet) : Int × Int :=
  (saturatingAdd c.1 (max (-16) (min 16 p.xDelta)),
    saturatingAdd c.2 (- max (-16) (min 16 p.yDelta)))

/-- The coordinates are `i32`. -/
def InI32 (c : Int × Int) : Prop :=
  (-2 ^ 31 ≤ c.1 ∧ c.1 < 2 ^ 31) ∧ (-2 ^ 31 ≤ c.2 ∧ c.2 < 2 ^ 31)

/-- The deltas fit into eight bits. The delta -256 reads as 0 and goes unnoticed
where the cursor cannot move any further. -/
def Readable (c : Int × Int) (p : Packet) : Prop :=
  ((-128 ≤ p.xDelta ∧ p.xDelta ≤ 127) ∨ (p.xDelta = -256 ∧ c.1 = -2 ^ 31)) ∧
    ((-128 ≤ p.yDelta ∧ p.yDelta ≤ 127) ∨ (p.yDelta = -256 ∧ c.2 = 2 ^ 31 - 1))

theorem move_inI32 (c : Int × Int) (p : Packet) : InI32 (move c p) := by
  simp only [InI32, move, saturatingAdd]
  omega

/-- The two readings of a delta: the `i8` is the nine-bit number, off by 256 outside
the range of eight bits. -/
theorem toInt8_cases (sign : Bool) (low : UInt8) :
    (-128 ≤ Packet.signed sign low ∧ Packet.signed sign low ≤ 127 ∧
      low.toInt8.toInt = Packet.signed sign low) ∨
    (128 ≤ Packet.signed sign low ∧ Packet.signed sign low ≤ 255 ∧
      low.toInt8.toInt = Packet.signed sign low - 256) ∨
    (-256 ≤ Packet.signed sign low ∧ Packet.signed sign low ≤ -129 ∧
      low.toInt8.toInt = Packet.signed sign low + 256) := by
  have hLow := low.toNat_lt
  have hInt : low.toInt8.toInt = if 2 * low.toNat < 2 ^ 8 then (low.toNat : Int) else low.toNat - 2 ^ 8 :=
    BitVec.toInt_eq_toNat_cond _
  rw [hInt, Packet.signed]
  cases sign <;> simp only [Bool.false_eq_true, if_false, if_true] <;> split_ifs <;> omega

theorem clampDelta_eq (d : Int) : scaleDelta (clampDelta d) = max (-16) (min 16 d) := by
  simp only [scaleDelta, clampDelta, mouseMaxDelta, mouseSensNum, mouseSensDen, mul_one,
    Int.tdiv_one]
  omega

/-- A delta off by 256 moves the other way, or not at all. -/
theorem saturatingAdd_clamp_iff {a d r : Int} (hA : -2 ^ 31 ≤ a ∧ a < 2 ^ 31)
    (h : (-128 ≤ d ∧ d ≤ 127 ∧ r = d) ∨ (128 ≤ d ∧ d ≤ 255 ∧ r = d - 256) ∨
      (-256 ≤ d ∧ d ≤ -129 ∧ r = d + 256)) :
    (saturatingAdd a (max (-16) (min 16 r)) = saturatingAdd a (max (-16) (min 16 d)) ↔
        (-128 ≤ d ∧ d ≤ 127) ∨ (d = -256 ∧ a = -2 ^ 31)) ∧
      (saturatingAdd a (- max (-16) (min 16 r)) = saturatingAdd a (- max (-16) (min 16 d)) ↔
        (-128 ≤ d ∧ d ≤ 127) ∨ (d = -256 ∧ a = 2 ^ 31 - 1)) := by
  simp only [saturatingAdd]
  rcases h with ⟨hLow, hHigh, rfl⟩ | ⟨hLow, hHigh, rfl⟩ | ⟨hLow, hHigh, rfl⟩
  · simp [hLow, hHigh]
  · rw [min_eq_left (by omega : (16 : Int) ≤ d)]
    omega
  · rw [max_eq_left (by omega : min 16 d ≤ -16)]
    omega

/-- **One packet.** -/
theorem moveRead_eq_move_iff {c : Int × Int} (hC : InI32 c) (p : Packet) :
    moveRead c p.read = move c p ↔ Readable c p := by
  have hX := (saturatingAdd_clamp_iff hC.1 (toInt8_cases (p.flags &&& 0x10 ≠ 0) p.x)).1
  have hY := (saturatingAdd_clamp_iff hC.2 (toInt8_cases (p.flags &&& 0x20 ≠ 0) p.y)).2
  simp only [moveRead, Mouse.applyPacket, clampDelta_eq, mouseInvertY, Bool.false_eq_true, if_false,
    Packet.read, Report.read, move, Prod.mk.injEq, Readable, Packet.xDelta, Packet.yDelta]
  exact and_congr hX hY

/-- **Movements.** The packets as read lead to the positions that they mean exactly
if all of them are readable where they arrive. -/
theorem moves_iff {c : Int × Int} (hC : InI32 c) (ps : List Packet) :
    (∀ before, before <+: ps → (before.map Packet.read).foldl moveRead c = before.foldl move c) ↔
      ∀ before p, before ++ [p] <+: ps → Readable (before.foldl move c) p := by
  have hInI32 : ∀ before : List Packet, InI32 (before.foldl move c) := by
    intro before
    induction before using List.reverseRecOn with
    | nil => exact hC
    | append_singleton before p _ =>
      rw [List.foldl_append]
      exact move_inI32 _ p
  constructor
  · intro h before p hPre
    rw [← moveRead_eq_move_iff (hInI32 before), ← h before ((List.prefix_append _ _).trans hPre)]
    have hLast := h (before ++ [p]) hPre
    rw [List.map_append, List.foldl_append, List.foldl_append] at hLast
    rw [← h before ((List.prefix_append _ _).trans hPre)] at hLast
    exact hLast
  · intro h before
    induction before using List.reverseRecOn with
    | nil => exact fun _ => rfl
    | append_singleton before p ih =>
      intro hPre
      rw [List.map_append, List.foldl_append, List.foldl_append,
        ih ((List.prefix_append _ _).trans hPre)]
      exact (moveRead_eq_move_iff (hInI32 before) p).mpr (h before p hPre)

-- ---------------------------------------------------------------------------
-- The cursor along a run
-- ---------------------------------------------------------------------------

section Cursor

variable {vbe : Option VbeVga} {s : System} {drv : Ps2MouseDriver}

/-- Drawing the cursor does not move it. -/
theorem redrawCursor_position (vbe : Option VbeVga) (m : Mouse) (mem : Memory) :
    (redrawCursor vbe m mem).1.cursorX = m.cursorX ∧
      (redrawCursor vbe m mem).1.cursorY = m.cursorY := by
  unfold redrawCursor
  split
  · exact ⟨rfl, rfl⟩
  · split <;> exact ⟨rfl, rfl⟩

theorem cursor_irqHandler (hDrv : s.drv = some drv) (b : UInt8) :
    ∃ drv', (irqHandler s b).drv = some drv' ∧ cursor drv' = cursor drv := by
  simp only [irqHandler, hDrv]
  split
  · split_ifs
    · exact ⟨drv, hDrv, rfl⟩
    · exact ⟨_, rfl, rfl⟩
  · exact ⟨_, rfl, rfl⟩
  · exact ⟨_, rfl, rfl⟩
  · exact ⟨_, rfl, rfl⟩

theorem cursor_eventLoopRound (vbe : Option VbeVga) (hDrv : s.drv = some drv) :
    ∃ drv', (eventLoopRound vbe s).drv = some drv' ∧
      cursor drv' = (s.queue.getD []).head?.toList.foldl moveRead (cursor drv) := by
  rcases hQueue : s.queue with _ | _ | ⟨pkt, rest⟩
  · simp only [eventLoopRound, hQueue]
    exact ⟨drv, hDrv, rfl⟩
  · simp only [eventLoopRound, hQueue]
    exact ⟨drv, hDrv, rfl⟩
  · simp only [eventLoopRound, hQueue, hDrv]
    have hPos := redrawCursor_position vbe (drv.mouse.applyPacket pkt) s.mem
    exact ⟨_, rfl, Prod.ext hPos.1 hPos.2⟩

theorem cursor_run (vbe : Option VbeVga) (hDrv : s.drv = some drv) (es : List Event) :
    ∃ drv', (runEvents vbe s es).drv = some drv' ∧
      cursor drv' = (received vbe s es).foldl moveRead (cursor drv) := by
  induction es generalizing s drv with
  | nil => exact ⟨drv, hDrv, rfl⟩
  | cons e es ih =>
    cases e with
    | irq b =>
      obtain ⟨drv', hDrv', hCursor⟩ := cursor_irqHandler hDrv b
      obtain ⟨drv'', hDrv'', hCursor'⟩ := ih hDrv'
      exact ⟨drv'', hDrv'', by rw [hCursor', hCursor]; rfl⟩
    | round =>
      obtain ⟨drv', hDrv', hCursor⟩ := cursor_eventLoopRound vbe hDrv
      obtain ⟨drv'', hDrv'', hCursor'⟩ := ih hDrv'
      exact ⟨drv'', hDrv'', by rw [hCursor', hCursor, received, List.foldl_append]⟩

/-- A run receives its packets one at a time. -/
theorem received_prefix {es : List Event} {pre : List MousePacket}
    (hPre : pre <+: received vbe s es) :
    ∃ before, before <+: es ∧ received vbe s before = pre := by
  induction es generalizing s pre with
  | nil => exact ⟨[], List.nil_prefix, (List.prefix_nil.mp hPre).symm⟩
  | cons e es ih =>
    cases e with
    | irq b =>
      obtain ⟨before, hBefore, hEq⟩ := ih (s := irqHandler s b) hPre
      exact ⟨.irq b :: before, List.cons_prefix_cons.mpr ⟨rfl, hBefore⟩, hEq⟩
    | round =>
      rw [received] at hPre
      cases hHead : (s.queue.getD []).head? with
      | none =>
        rw [hHead] at hPre
        obtain ⟨before, hBefore, hEq⟩ := ih (s := eventLoopRound vbe s) hPre
        exact ⟨.round :: before, List.cons_prefix_cons.mpr ⟨rfl, hBefore⟩,
          by rw [received, hHead, hEq]; rfl⟩
      | some pkt =>
        rw [hHead, Option.toList_some, List.singleton_append, List.prefix_cons_iff] at hPre
        rcases hPre with rfl | ⟨pre', rfl, hPre'⟩
        · exact ⟨[], List.nil_prefix, rfl⟩
        · obtain ⟨before, hBefore, hEq⟩ := ih (s := eventLoopRound vbe s) hPre'
          exact ⟨.round :: before, List.cons_prefix_cons.mpr ⟨rfl, hBefore⟩,
            by rw [received, hHead, hEq]; rfl⟩

end Cursor

-- ---------------------------------------------------------------------------
-- Streams of packets
-- ---------------------------------------------------------------------------

/-- What is expected after the events `es`: the driver is between packets when
whole packets have arrived, each of these was handed over once and in order, and
each packet that the loop received moved the cursor by its deltas. -/
structure Processed (vbe : Option VbeVga) (s : System) (c : Int × Int) (ps : List Packet)
    (es : List Event) : Prop where
  boundary : (fed es).length % 3 = 0 →
    (runEvents vbe s es).drv.map Ps2MouseDriver.pktState = some 0
  handed   : (runEvents vbe s es).queue.map (received vbe s es ++ ·) =
    some ((ps.take ((fed es).length / 3)).map Packet.read)
  moved    : (runEvents vbe s es).drv.map cursor =
    some ((ps.take (received vbe s es).length).foldl move c)

/-- The bytes of a system that is between packets, with an empty queue. -/
theorem framing_start {ps : List Packet} {s : System} {drv : Ps2MouseDriver}
    (hDrv : s.drv = some drv) (hState : drv.pktState = 0) (hQueue : s.queue = some []) :
    Framing ps s [] [] [] [] :=
  ⟨List.nil_prefix, rfl, ⟨drv, hDrv, .header hState⟩, [], hQueue, rfl⟩

theorem length_flatMap_bytes (ps : List Packet) :
    (ps.flatMap Packet.bytes).length = 3 * ps.length := by
  induction ps with
  | nil => rfl
  | cons p ps ih =>
    rw [List.flatMap_cons, List.length_append, ih, Packet.bytes, Report.bytes, List.length_cons]
    simp only [List.length_cons, List.length_nil]
    omega

/-- Framing in terms of the number of bytes. -/
theorem Framing.count {ps : List Packet} {s : System} {bytes : List UInt8}
    {seen : List MousePacket} {done : List Packet} {part : List UInt8}
    (h : Framing ps s bytes seen done part) :
    done = ps.take (bytes.length / 3) ∧ part.length = bytes.length % 3 := by
  have hPart : part.length < 3 := by
    obtain ⟨drv, -, hHolds⟩ := h.holds
    cases hHolds <;> simp
  have hLen : bytes.length = 3 * done.length + part.length := by
    rw [h.bytes, List.length_append, length_flatMap_bytes]
  have hDiv : bytes.length / 3 = done.length := by omega
  refine ⟨?_, by omega⟩
  rw [hDiv]
  exact List.prefix_iff_eq_take.mp h.complete

/-- What the loop received is the beginning of the stream. -/
theorem Framing.seen_eq_take {ps : List Packet} {s : System} {bytes : List UInt8}
    {seen : List MousePacket} {done : List Packet} {part : List UInt8}
    (h : Framing ps s bytes seen done part) : seen = (ps.take seen.length).map Packet.read := by
  obtain ⟨queue, -, hHanded⟩ := h.handed
  have hSeen : seen <+: done.map Packet.read := hHanded ▸ List.prefix_append seen queue
  rw [List.map_take]
  exact List.prefix_iff_eq_take.mp (hSeen.trans (h.complete.map _))

/-- With the whole stream fed and the queue empty, the loop received all packets. -/
theorem Framing.seen_all {ps : List Packet} {s : System} {seen : List MousePacket}
    {done : List Packet} {part : List UInt8}
    (h : Framing ps s (ps.flatMap Packet.bytes) seen done part) (hEmpty : s.queue = some []) :
    seen = ps.map Packet.read := by
  obtain ⟨queue, hQueue, hHanded⟩ := h.handed
  obtain rfl : queue = [] := Option.some.inj (hQueue.symm.trans hEmpty)
  rw [List.append_nil] at hHanded
  rw [hHanded, h.count.1, length_flatMap_bytes, Nat.mul_div_cancel_left _ (by decide),
    List.take_length]

/-- **From bytes to movements.** For every stream of packets and every interleaving
of its bytes with rounds of the event loop that leaves no packet behind and never
fills the queue: everything is as expected at all times exactly if every packet is
readable at the position where it arrives. -/
theorem packets_moved_iff {vbe : Option VbeVga} {s : System} {drv : Ps2MouseDriver}
    (hDrv : s.drv = some drv) (hState : drv.pktState = 0) (hC : InI32 (cursor drv))
    (hQueue : s.queue = some []) {ps : List Packet} {es : List Event}
    (hFed : fed es = ps.flatMap Packet.bytes) (hRoom : HasRoom vbe s es)
    (hAll : (runEvents vbe s es).queue = some []) :
    (∀ before, before <+: es → Processed vbe s (cursor drv) ps before) ↔
      ∀ before p, before ++ [p] <+: ps → Readable (before.foldl move (cursor drv)) p := by
  rw [← moves_iff hC]
  -- framing holds in any case
  have hFraming : ∀ before, before <+: es → ∃ done part,
      Framing ps (runEvents vbe s before) (fed before) (received vbe s before) done part := by
    intro before hPre
    have hBytes : [] ++ fed before <+: ps.flatMap Packet.bytes := hFed ▸ hPre.filterMap _
    exact framing_run (framing_start hDrv hState hQueue) hBytes
      fun before' hPre' => hRoom before' (hPre'.trans hPre)
  have hCursor : ∀ before, before <+: es → (runEvents vbe s before).drv.map cursor =
      some (((ps.take (received vbe s before).length).map Packet.read).foldl moveRead
        (cursor drv)) := by
    intro before hPre
    obtain ⟨drv', hDrv', hEq⟩ := cursor_run vbe hDrv before
    obtain ⟨done, part, h⟩ := hFraming before hPre
    rw [hDrv', Option.map_some, hEq, ← h.seen_eq_take]
  constructor
  · intro h pre hPre
    -- the events after which the loop has received just these packets
    obtain ⟨done, part, hEnd⟩ := hFraming es (List.prefix_refl _)
    rw [hFed] at hEnd
    have hDone : received vbe s es = ps.map Packet.read := hEnd.seen_all hAll
    obtain ⟨before, hBefore, hEq⟩ := received_prefix (hDone ▸ hPre.map _ :
      pre.map Packet.read <+: received vbe s es)
    have hTake : ps.take (received vbe s before).length = pre := by
      rw [hEq, List.length_map]
      exact (List.prefix_iff_eq_take.mp hPre).symm
    have hMoved := (h before hBefore).moved
    rw [hCursor before hBefore, hTake] at hMoved
    exact Option.some.inj hMoved
  · intro h before hPre
    obtain ⟨done, part, hF⟩ := hFraming before hPre
    obtain ⟨hDone, hPart⟩ := hF.count
    refine ⟨fun hBoundary => ?_, ?_, ?_⟩
    · obtain ⟨drv', hDrv', hHolds⟩ := hF.holds
      rw [hBoundary, List.length_eq_zero_iff] at hPart
      subst hPart
      cases hHolds with
      | header hState' => rw [hDrv', Option.map_some, hState']
    · obtain ⟨queue, hQ, hHanded⟩ := hF.handed
      rw [hQ, Option.map_some, hHanded, hDone]
    · rw [hCursor before hPre, h _ (List.take_prefix _ _)]

/-- No display, the cursor at (40, 40), nothing received yet. -/
def idle : System := ⟨some ⟨0, #v[0, 0, 0], Mouse.new⟩, some [], fun _ => 0⟩

/-- 100 to the right and 100 down. -/
def fastPacket : Packet := ⟨⟨0x28, 100, 156, by decide⟩, by decide⟩

theorem packets_moved_fastPacket :
    fed [.irq 0x28, .irq 100, .round, .irq 156, .round] = [fastPacket].flatMap Packet.bytes ∧
    ∀ before, before <+: [.irq 0x28, .irq 100, .round, .irq 156, .round] →
      Processed none idle (40, 40) [fastPacket] before := by
  have hDrv : idle.drv = some ⟨0, #v[0, 0, 0], Mouse.new⟩ := rfl
  have hC : InI32 (cursor ⟨0, #v[0, 0, 0], Mouse.new⟩) := ⟨by decide, by decide⟩
  have hRoom : HasRoom none idle [.irq 0x28, .irq 100, .round, .irq 156, .round] := by
    have hInits : ∀ before ∈ List.inits [.irq 0x28, .irq 100, .round, .irq 156, .round],
        ((runEvents none idle before).queue.getD []).length < 256 := by
      decide
    exact fun before hPre => hInits before ((List.mem_inits _ _).mpr hPre)
  refine ⟨rfl, (packets_moved_iff hDrv rfl hC rfl rfl hRoom rfl).mpr fun before p hPre => ?_⟩
  have hLen := hPre.length_le
  obtain rfl : before = [] := by
    rw [List.length_append] at hLen
    exact List.length_eq_zero_iff.mp (by simpa using hLen)
  obtain rfl : p = fastPacket := by simpa using hPre
  exact ⟨.inl (by decide), .inl (by decide)⟩

/-- 200 to the right. -/
def overrunPacket : Packet := ⟨⟨0x08, 200, 0, by decide⟩, by decide⟩

/-- **A fast movement goes the wrong way.** The mouse moved right, the cursor goes
from 40 to 24. -/
theorem overrun_moves_left :
    fed [.irq 0x08, .irq 200, .irq 0, .round] = overrunPacket.bytes ∧
    overrunPacket.xDelta = 200 ∧
    (runEvents none idle [.irq 0x08, .irq 200, .irq 0, .round]).drv.map cursor = some (24, 40) ∧
    move (40, 40) overrunPacket = (56, 40) := by
  decide

end Neutrix.Ps2Mouse
