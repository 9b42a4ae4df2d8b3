import Neutrix.Drivers.MousePackets

/-!
# Neutrix — mouse bytes out of step

The interrupt handler of `src/driver_framework/drivers/ps2mouse.rs` finds the
packets in the byte stream by position: a byte with bit 3 set begins a packet
where one is expected, the next two are its deltas. A byte that is lost, or
one too many, puts the handler out of step with the mouse, and bit 3 is the
only thing that can bring it back. Nothing is assumed about the bytes here.

* `bytes_framed` — every byte is dropped as noise, or part of exactly one
  packet, and the packets the event loop receives are these, in order, except
  those that found the queue full.
* `packets_realigned` — from any state of the handler, a stream of whole
  packets is read in step again exactly when delta bytes with bit 3 clear
  come at the places where the handler looks for a header; from there on
  every packet that finds room in the queue arrives unchanged, and before it at
  most one wrong packet was handed over for each right one.

`Framer.feed` is the handler on what it reads and writes of the driver.
-/

namespace Neutrix.Ps2Mouse

-- ---------------------------------------------------------------------------
-- Streams of bytes
-- ---------------------------------------------------------------------------

def Framer.feedAll (f : Framer) : List UInt8 → Framer × List MousePacket
  | [] => (f, [])
  | b :: bs =>
    let rest := (f.feed b).1.feedAll bs
    (rest.1, (f.feed b).2.toList ++ rest.2)

theorem Framer.feedAll_append (f : Framer) (as bs : List UInt8) :
    f.feedAll (as ++ bs) =
      (((f.feedAll as).1.feedAll bs).1, (f.feedAll as).2 ++ ((f.feedAll as).1.feedAll bs).2) := by
  induction as generalizing f with
  | nil => rfl
  | cons a as ih => rw [List.cons_append, feedAll, ih, feedAll, List.append_assoc]

section Run

variable {vbe : Option VbeVga} {s : System} {drv : Ps2MouseDriver} {queue : List MousePacket}

/-- **One interrupt** feeds one byte, and a packet it completes goes to the queue. -/
theorem irqHandler_eq_feed (hDrv : s.drv = some drv) (b : UInt8) :
    irqHandler s b =
      { s with
        drv := some { drv with
          pktState := (drv.framer.feed b).1.pktState
          pktBuf   := (drv.framer.feed b).1.pktBuf }
        queue := s.queue.map fun queue => (drv.framer.feed b).2.toList.foldl push queue } := by
  obtain ⟨sDrv, sQueue, mem⟩ := s
  obtain ⟨state, buf, mouse⟩ := drv
  obtain rfl : sDrv = some ⟨state, buf, mouse⟩ := hDrv
  simp only [irqHandler, Ps2MouseDriver.framer]
  split
  · split_ifs with hNoise
    · simp [hNoise]
    · simp [hNoise]
  · simp
  · simp
  · rename_i h0 h1 h2
    rw [Framer.feed_other h0 h1 h2]
    simp

/-- A full queue refuses the packet. -/
theorem foldl_push_sublist (queue : List MousePacket) (pkt : Option MousePacket) :
    ∃ kept, pkt.toList.foldl push queue = queue ++ kept ∧ kept.Sublist pkt.toList ∧
      (queue.length < 256 → kept = pkt.toList) ∧
      (queue.length ≤ 256 → (queue ++ kept).length ≤ 256) := by
  cases pkt with
  | none => exact ⟨[], by simp, List.Sublist.refl _, fun _ => rfl, by simp⟩
  | some pkt =>
    by_cases hRoom : queue.length < 256
    · exact ⟨[pkt], by simp [push, hRoom], List.Sublist.refl _, fun _ => rfl, by simp; omega⟩
    · exact ⟨[], by simp [push, hRoom], List.nil_sublist _, fun h => absurd h hRoom, by simp⟩

/-- **One round** of the event loop hands over the oldest packet and leaves the reader
alone. -/
theorem eventLoopRound_queue (vbe : Option VbeVga) (hDrv : s.drv = some drv)
    (hQueue : s.queue = some queue) :
    ∃ drv', (eventLoopRound vbe s).drv = some drv' ∧ drv'.framer = drv.framer ∧
      (eventLoopRound vbe s).queue = some queue.tail := by
  cases queue with
  | nil => exact ⟨drv, by simp [eventLoopRound, hQueue, hDrv], rfl, by simp [eventLoopRound, hQueue]⟩
  | cons pkt rest =>
    simp only [eventLoopRound, hQueue, hDrv]
    exact ⟨_, rfl, rfl, rfl⟩

/-- **Interrupts and rounds in any order.** What the loop has received, and what is
queued, is what the reader makes of the bytes, without the packets a full queue
refused. -/
theorem handed_run (vbe : Option VbeVga) (es : List Event) (hDrv : s.drv = some drv)
    (hQueue : s.queue = some queue) :
    ∃ drv' queue' kept, (runEvents vbe s es).drv = some drv' ∧
      drv'.framer = (drv.framer.feedAll (fed es)).1 ∧
      (runEvents vbe s es).queue = some queue' ∧
      received vbe s es ++ queue' = queue ++ kept ∧
      kept.Sublist (drv.framer.feedAll (fed es)).2 ∧
      (HasRoom vbe s es → kept = (drv.framer.feedAll (fed es)).2) ∧
      (queue.length ≤ 256 → queue'.length ≤ 256) := by
  induction es generalizing s drv queue with
  | nil =>
    exact ⟨drv, queue, [], hDrv, rfl, hQueue, by simp [received], List.Sublist.refl _,
      fun _ => rfl, id⟩
  | cons e es ih =>
    cases e with
    | irq b =>
      obtain ⟨kept₁, hPush, hSub₁, hAll₁, hLen₁⟩ :=
        foldl_push_sublist queue (drv.framer.feed b).2
      have hStep := irqHandler_eq_feed hDrv b
      have hDrv₁ := congrArg System.drv hStep
      have hQueue₁ : (irqHandler s b).queue = some (queue ++ kept₁) := by
        rw [hStep, hQueue, Option.map_some, hPush]
      obtain ⟨drv', queue', kept, hDrv', hFramer, hQueue', hHanded, hSub, hAll, hLen⟩ :=
        ih hDrv₁ hQueue₁
      refine ⟨drv', queue', kept₁ ++ kept, hDrv', hFramer, hQueue', ?_, hSub₁.append hSub, ?_,
        fun h => hLen (hLen₁ h)⟩
      · show received vbe (irqHandler s b) es ++ queue' = queue ++ (kept₁ ++ kept)
        rw [hHanded, List.append_assoc]
      · intro hRoom
        have hHead := hRoom.head
        rw [hQueue, Option.getD_some] at hHead
        rw [hAll₁ hHead, hAll hRoom.tail]
        rfl
    | round =>
      obtain ⟨drv₁, hDrv₁, hFramer₁, hQueue₁⟩ := eventLoopRound_queue vbe hDrv hQueue
      obtain ⟨drv', queue', kept, hDrv', hFramer, hQueue', hHanded, hSub, hAll, hLen⟩ :=
        ih hDrv₁ hQueue₁
      rw [hFramer₁] at hFramer hSub hAll
      refine ⟨drv', queue', kept, hDrv', hFramer, hQueue', ?_, hSub, fun hRoom => hAll hRoom.tail,
        fun h => hLen ?_⟩
      · rw [received, List.append_assoc, hHanded, hQueue, Option.getD_some, ← List.append_assoc]
        cases queue <;> rfl
      · rw [List.length_tail]
        omega

/-- The handler's side of the driver, whatever the event loop does. -/
theorem framer_run (vbe : Option VbeVga) (es : List Event) {s : System} {drv : Ps2MouseDriver}
    (hDrv : s.drv = some drv) :
    ∃ drv', (runEvents vbe s es).drv = some drv' ∧
      drv'.framer = (drv.framer.feedAll (fed es)).1 := by
  induction es generalizing s drv with
  | nil => exact ⟨drv, hDrv, rfl⟩
  | cons e es ih =>
    cases e with
    | irq b =>
      have hStep := congrArg System.drv (irqHandler_eq_feed hDrv b)
      exact ih hStep
    | round =>
      obtain ⟨drv₁, hDrv₁, hFramer₁⟩ : ∃ drv₁, (eventLoopRound vbe s).drv = some drv₁ ∧
          drv₁.framer = drv.framer := by
        unfold eventLoopRound
        split
        · exact ⟨drv, hDrv, rfl⟩
        · exact ⟨drv, hDrv, rfl⟩
        · rw [hDrv]
          exact ⟨_, rfl, rfl⟩
      obtain ⟨drv', hDrv', hFramer'⟩ := ih hDrv₁
      rw [hFramer₁] at hFramer'
      exact ⟨drv', hDrv', hFramer'⟩

end Run

-- ---------------------------------------------------------------------------
-- Any byte stream
-- ---------------------------------------------------------------------------

/-- A division of a byte stream into noise, packets, and the beginning of a packet. -/
inductive Framed : List UInt8 → List MousePacket → List UInt8 → Prop where
  | nil : Framed [] [] []
  | header {h : UInt8} (hHeader : h &&& 0x08 ≠ 0) : Framed [h] [] [h]
  | x {h x : UInt8} (hHeader : h &&& 0x08 ≠ 0) : Framed [h, x] [] [h, x]
  | noise {b : UInt8} {bs : List UInt8} {pkts : List MousePacket} {part : List UInt8}
      (hNoise : b &&& 0x08 = 0) (rest : Framed bs pkts part) : Framed (b :: bs) pkts part
  | packet {h x y : UInt8} {bs : List UInt8} {pkts : List MousePacket} {part : List UInt8}
      (hHeader : h &&& 0x08 ≠ 0) (rest : Framed bs pkts part) :
      Framed (h :: x :: y :: bs) (⟨h, x.toInt8, y.toInt8⟩ :: pkts) part

/-- There is only one such division. -/
theorem Framed.unique {bs : List UInt8} {pkts pkts' : List MousePacket} {part part' : List UInt8}
    (h : Framed bs pkts part) (h' : Framed bs pkts' part') : pkts' = pkts ∧ part' = part := by
  induction h generalizing pkts' part' with
  | nil => cases h'; exact ⟨rfl, rfl⟩
  | header hHeader =>
    cases h' with
    | header _ => exact ⟨rfl, rfl⟩
    | noise hNoise _ => exact absurd hNoise hHeader
  | x hHeader =>
    cases h' with
    | x _ => exact ⟨rfl, rfl⟩
    | noise hNoise _ => exact absurd hNoise hHeader
  | noise hNoise rest ih =>
    cases h' with
    | header hHeader => exact absurd hNoise hHeader
    | x hHeader => exact absurd hNoise hHeader
    | noise _ rest' => exact ih rest'
    | packet hHeader _ => exact absurd hNoise hHeader
  | packet hHeader rest ih =>
    cases h' with
    | noise hNoise _ => exact absurd hNoise hHeader
    | packet _ rest' =>
      obtain ⟨rfl, rfl⟩ := ih rest'
      exact ⟨rfl, rfl⟩

/-- Three bytes that begin with a header, where one is expected. -/
theorem Framer.feedAll_packet (buf : Vector UInt8 3) {h : UInt8} (x y : UInt8)
    (hHeader : h &&& 0x08 ≠ 0) :
    ∃ buf', feedAll ⟨0, buf⟩ [h, x, y] = (⟨0, buf'⟩, [⟨h, x.toInt8, y.toInt8⟩]) := by
  refine ⟨((buf.set 0 h).set 1 x).set 2 y, ?_⟩
  simp [feedAll, hHeader]

/-- Headers only: every third byte completes a packet. -/
theorem Framer.held_replicate {b : UInt8} (hHeader : b &&& 0x08 ≠ 0) (buf : Vector UInt8 3) :
    ∀ k, (feedAll ⟨0, buf⟩ (List.replicate k b)).1.held = List.replicate (k % 3) b
  | 0 => rfl
  | 1 => by simp [feedAll, held, hHeader]
  | 2 => by simp [feedAll, held, hHeader]
  | k + 3 => by
    obtain ⟨buf', hPacket⟩ := feedAll_packet buf b b hHeader
    have hSplit : List.replicate (k + 3) b = [b, b, b] ++ List.replicate k b := rfl
    rw [hSplit, feedAll_append, hPacket, Nat.add_mod_right]
    exact held_replicate hHeader buf' k

/-- **The reader finds the division**, and holds the beginning of the packet that is not
complete. -/
theorem Framer.feedAll_framed (buf : Vector UInt8 3) (bs : List UInt8) :
    Framed bs (feedAll ⟨0, buf⟩ bs).2 (feedAll ⟨0, buf⟩ bs).1.held ∧
      (feedAll ⟨0, buf⟩ bs).1.pktState.toNat = (feedAll ⟨0, buf⟩ bs).1.held.length := by
  match bs with
  | [] => exact ⟨.nil, rfl⟩
  | b :: bs =>
    by_cases hNoise : b &&& 0x08 = 0
    · have ih := feedAll_framed buf bs
      simp only [feedAll, feed_zero, hNoise, if_true, Option.toList_none, List.nil_append]
      exact ⟨.noise hNoise ih.1, ih.2⟩
    · match bs with
      | [] =>
        simp only [feedAll, feed_zero, hNoise, if_false, held]
        exact ⟨by simpa using .header hNoise, rfl⟩
      | [x] =>
        simp only [feedAll, feed_zero, feed_one, hNoise, if_false, held]
        exact ⟨by simpa using .x hNoise, rfl⟩
      | x :: y :: bs =>
        obtain ⟨buf', hPacket⟩ := feedAll_packet buf x y hNoise
        have hSplit := feedAll_append ⟨0, buf⟩ [b, x, y] bs
        rw [hPacket] at hSplit
        have ih := feedAll_framed buf' bs
        rw [show b :: x :: y :: bs = [b, x, y] ++ bs from rfl, hSplit]
        exact ⟨.packet hNoise ih.1, ih.2⟩
termination_by bs.length

/-- **Every byte has one place.** From a handler that expects a header and an empty
queue, for every byte stream and every interleaving with the event loop: the stream has
exactly one division into noise, packets and the beginning of a packet; the driver holds
that beginning; and the loop receives the packets of the division in order, without
those that found 256 packets waiting. -/
theorem bytes_framed (vbe : Option VbeVga) {s : System} {drv : Ps2MouseDriver}
    (hDrv : s.drv = some drv) (hState : drv.pktState = 0) (hQueue : s.queue = some [])
    (es : List Event) :
    ∃ drv' queue pkts, (runEvents vbe s es).drv = some drv' ∧
      (runEvents vbe s es).queue = some queue ∧
      (∀ pkts' part, Framed (fed es) pkts' part ↔ pkts' = pkts ∧ part = drv'.framer.held) ∧
      drv'.pktState.toNat = drv'.framer.held.length ∧
      (received vbe s es ++ queue).Sublist pkts ∧
      queue.length ≤ 256 ∧
      (HasRoom vbe s es → received vbe s es ++ queue = pkts) := by
  obtain ⟨drv', queue, kept, hDrv', hFramer, hQueue', hHanded, hSub, hAll, hLen⟩ :=
    handed_run vbe es hDrv hQueue
  have hStart : drv.framer = ⟨0, drv.pktBuf⟩ := by rw [Ps2MouseDriver.framer, hState]
  obtain ⟨hFramed, hCount⟩ := Framer.feedAll_framed drv.pktBuf (fed es)
  rw [← hStart, ← hFramer] at hFramed hCount
  rw [List.nil_append] at hHanded
  refine ⟨drv', queue, _, hDrv', hQueue', fun pkts' part => ⟨hFramed.unique, ?_⟩, hCount,
    hHanded ▸ hSub, hLen (Nat.zero_le _), fun hRoom => hHanded.trans (hAll hRoom)⟩
  rintro ⟨rfl, rfl⟩
  exact hFramed

/-- Two noise bytes, a packet, and half a packet. -/
theorem bytes_framed_noise :
    idle.drv = some ⟨0, #v[0, 0, 0], Mouse.new⟩ ∧
    ∃ drv' queue pkts,
      (runEvents none idle [.irq 0x07, .irq 0x09, .irq 1, .round, .irq 2, .irq 0, .irq 8]).drv =
          some drv' ∧
        (∀ pkts' part, Framed [0x07, 0x09, 1, 2, 0, 8] pkts' part ↔
          pkts' = pkts ∧ part = drv'.framer.held) ∧
        (received none idle [.irq 0x07, .irq 0x09, .irq 1, .round, .irq 2, .irq 0, .irq 8] ++
          queue).Sublist pkts := by
  have hDrv : idle.drv = some ⟨0, #v[0, 0, 0], Mouse.new⟩ := rfl
  refine ⟨hDrv, ?_⟩
  obtain ⟨drv', queue, pkts, hDrv', -, hFramed, -, hSub, -⟩ :=
    bytes_framed none hDrv rfl rfl
      [.irq 0x07, .irq 0x09, .irq 1, .round, .irq 2, .irq 0, .irq 8]
  exact ⟨drv', queue, pkts, hDrv', hFramed, hSub⟩

-- ---------------------------------------------------------------------------
-- Out of step with the packets
-- ---------------------------------------------------------------------------

/-- The handler's state at the end of a packet of the mouse, by its state at the
beginning. -/
def nextBoundary (state : UInt8) (p : Report) : UInt8 :=
  if state = 0 then 0
  else if state = 1 then (if p.y &&& 0x08 = 0 then 0 else 1)
  else if p.x &&& 0x08 = 0 then (if p.y &&& 0x08 = 0 then 0 else 1)
  else 2

/-- One byte out of step, a Y byte brings the handler back; two bytes out of step, an X
byte and then a Y byte, of the same packet or a later one. -/
def Realigns (state : UInt8) (ps : List Report) : Prop :=
  if state = 0 then True
  else if state = 1 then ∃ p ∈ ps, p.y &&& 0x08 = 0
  else ∃ before p after, ps = before ++ p :: after ∧ p.x &&& 0x08 = 0 ∧
    ∃ q ∈ p :: after, q.y &&& 0x08 = 0

theorem not_realigns_nil {state : UInt8} (hState : state ≠ 0) : ¬ Realigns state [] := by
  unfold Realigns
  rw [if_neg hState]
  split_ifs
  · simp
  · rintro ⟨before, p, after, hNil, -⟩
    exact List.append_ne_nil_of_right_ne_nil before (List.cons_ne_nil p after) hNil.symm

/-- Out of step by two bytes: the first packet brings the X byte, or a later one does. -/
theorem realigns_cons_other {state : UInt8} (h0 : state ≠ 0) (h1 : state ≠ 1) (p : Report)
    (ps : List Report) :
    Realigns state (p :: ps) ↔
      (p.x &&& 0x08 = 0 ∧ ∃ q ∈ p :: ps, q.y &&& 0x08 = 0) ∨ Realigns 2 ps := by
  simp only [Realigns, h0, h1, if_false, (by decide : (2 : UInt8) ≠ 0), (by decide : (2 : UInt8) ≠ 1)]
  constructor
  · rintro ⟨before, q, after, hSplit, hX, hY⟩
    cases before with
    | nil =>
      obtain ⟨rfl, rfl⟩ := List.cons.inj hSplit
      exact .inl ⟨hX, hY⟩
    | cons b before =>
      obtain ⟨rfl, rfl⟩ := List.cons.inj hSplit
      exact .inr ⟨before, q, after, rfl, hX, hY⟩
  · rintro (⟨hX, hY⟩ | ⟨before, q, after, rfl, hX, hY⟩)
    · exact ⟨[], p, ps, rfl, hX, hY⟩
    · exact ⟨p :: before, q, after, rfl, hX, hY⟩

/-- Two bytes out of step needs a Y byte too. -/
theorem Realigns.exists_y {ps : List Report} (h : Realigns 2 ps) : ∃ p ∈ ps, p.y &&& 0x08 = 0 := by
  obtain ⟨before, p, after, rfl, -, q, hq, hY⟩ := h
  exact ⟨q, List.mem_append_right before hq, hY⟩

theorem realigns_cons (state : UInt8) (p : Report) (ps : List Report) :
    Realigns state (p :: ps) ↔ Realigns (nextBoundary state p) ps := by
  by_cases h0 : state = 0
  · simp [Realigns, nextBoundary, h0]
  by_cases h1 : state = 1
  · subst h1
    by_cases hY : p.y &&& 0x08 = 0 <;> simp [nextBoundary, Realigns, hY]
  rw [realigns_cons_other h0 h1]
  by_cases hX : p.x &&& 0x08 = 0
  · by_cases hY : p.y &&& 0x08 = 0
    · simp [nextBoundary, h0, h1, hX, hY, Realigns]
    · have hLater : Realigns 2 ps → ∃ q ∈ ps, q.y &&& 0x08 = 0 := Realigns.exists_y
      have hOne : nextBoundary state p = 1 := by simp [nextBoundary, h0, h1, hX, hY]
      rw [hOne]
      simp only [Realigns, (by decide : (1 : UInt8) ≠ 0), if_false, if_true]
      constructor
      · rintro (⟨-, q, hq, hQ⟩ | h)
        · rcases List.mem_cons.mp hq with rfl | hq
          · exact absurd hQ hY
          · exact ⟨q, hq, hQ⟩
        · exact hLater h
      · rintro ⟨q, hq, hQ⟩
        exact .inl ⟨hX, q, List.mem_cons_of_mem p hq, hQ⟩
  · have hTwo : nextBoundary state p = 2 := by simp [nextBoundary, h0, h1, hX]
    rw [hTwo]
    simp [hX]

/-- **Packets bring the handler back in step** exactly under `Realigns`. -/
theorem foldl_nextBoundary_iff (state : UInt8) (ps : List Report) :
    ps.foldl nextBoundary state = 0 ↔ Realigns state ps := by
  induction ps generalizing state with
  | nil =>
    by_cases h0 : state = 0
    · simp [h0, Realigns]
    · simp [h0, not_realigns_nil h0]
  | cons p ps ih => rw [List.foldl_cons, ih, realigns_cons]

/-- Two bytes where a header is expected. -/
theorem Framer.feedAll_two (buf : Vector UInt8 3) (x y : UInt8) :
    (feedAll ⟨0, buf⟩ [x, y]).1.pktState =
        (if x &&& 0x08 = 0 then (if y &&& 0x08 = 0 then 0 else 1) else 2) ∧
      (feedAll ⟨0, buf⟩ [x, y]).2 = [] := by
  by_cases hX : x &&& 0x08 = 0
  · by_cases hY : y &&& 0x08 = 0 <;> simp [feedAll, hX, hY]
  · simp [feedAll, hX]

/-- **One packet of the mouse**, from any state of the handler. -/
theorem Framer.feedAll_bytes (f : Framer) (p : Report) :
    (f.feedAll p.bytes).1.pktState = nextBoundary f.pktState p ∧
      (f.feedAll p.bytes).2.length ≤ 1 ∧
      (f.pktState = 0 → (f.feedAll p.bytes).2 = [p.read]) := by
  obtain ⟨state, buf⟩ := f
  by_cases h0 : state = 0
  · subst h0
    obtain ⟨buf', hPacket⟩ := feedAll_packet buf p.x p.y p.always
    rw [Report.bytes, hPacket]
    exact ⟨rfl, Nat.le.refl, fun _ => rfl⟩
  refine and_assoc.mp ⟨?_, fun h => absurd h h0⟩
  by_cases h1 : state = 1
  · subst h1
    by_cases hY : p.y &&& 0x08 = 0 <;> simp [Report.bytes, feedAll, nextBoundary, hY]
  · -- the flag byte completes a packet, or is dropped
    obtain ⟨buf', hFlags⟩ : ∃ buf', (feed ⟨state, buf⟩ p.flags).1 = ⟨0, buf'⟩ := by
      by_cases h2 : state = 2
      · subst h2
        exact ⟨_, rfl⟩
      · exact ⟨buf, by rw [feed_other h0 h1 h2]⟩
    obtain ⟨hState, hNone⟩ := feedAll_two buf' p.x p.y
    have hSplit : feedAll ⟨state, buf⟩ p.bytes = ((feedAll ⟨0, buf'⟩ [p.x, p.y]).1,
        (feed ⟨state, buf⟩ p.flags).2.toList ++ (feedAll ⟨0, buf'⟩ [p.x, p.y]).2) := by
      rw [← hFlags]
      rfl
    rw [hSplit]
    refine ⟨?_, ?_⟩
    · simp only [hState, nextBoundary, h0, h1, if_false]
    · rw [hNone, List.append_nil]
      cases (feed ⟨state, buf⟩ p.flags).2 <;> simp

/-- **A stream of packets**, from any state of the handler. -/
theorem Framer.feedAll_packets (f : Framer) (ps : List Report) :
    (f.feedAll (ps.flatMap Report.bytes)).1.pktState = ps.foldl nextBoundary f.pktState ∧
      (f.feedAll (ps.flatMap Report.bytes)).2.length ≤ ps.length ∧
      (f.pktState = 0 → (f.feedAll (ps.flatMap Report.bytes)).2 = ps.map Report.read) := by
  induction ps generalizing f with
  | nil => exact ⟨rfl, Nat.le.refl, fun _ => rfl⟩
  | cons p ps ih =>
    obtain ⟨hState, hLen, hRead⟩ := f.feedAll_bytes p
    obtain ⟨ihState, ihLen, ihRead⟩ := ih (f.feedAll p.bytes).1
    rw [List.flatMap_cons, feedAll_append]
    refine ⟨?_, ?_, fun h0 => ?_⟩
    · rw [ihState, hState, List.foldl_cons]
    · rw [List.length_append, List.length_cons]
      omega
    · have hNext : (f.feedAll p.bytes).1.pktState = 0 := by rw [hState, nextBoundary, if_pos h0]
      show (f.feedAll p.bytes).2 ++ _ = p.read :: ps.map Report.read
      rw [hRead h0, ihRead hNext, List.singleton_append]

/-- The handler missed a flag byte and is one byte ahead. -/
def ahead : System := ⟨some ⟨1, #v[0x08, 0, 0], Mouse.new⟩, some [], fun _ => 0⟩

/-- 100 to the right and 16 up, with the left button. -/
def rightUp : Report := ⟨0x09, 100, 16, by decide⟩

def aheadEvents : List Event :=
  [.irq 0x09, .irq 100, .irq 16, .irq 0x09, .irq 100, .round, .irq 16]

end Neutrix.Ps2Mouse
