import Mathlib.Data.Finset.Insert
import Mathlib.Data.Finset.Erase
import Mathlib.Logic.Function.Basic
import Neutrix.Lib.Run

/-!
# Neutrix — the executor, its event streams and the interrupt handlers

Model of `src/arch/task.rs` together with the streams that feed it:
`ScancodeStream` and `MousePacketStream` (`ps2kbd.rs`, `ps2mouse.rs`) are
the same code over two statics each, a bounded queue and an `AtomicWaker`.

One CPU runs everything. `Cpu` is its program counter: a step of the
executor or of the polled task moves it, and an interrupt may come in
between any two steps unless interrupts are off. An interrupt handler runs
to completion. Queue and waker operations are atomic; tasks are what async
functions are that await one stream item after another, so a `poll_next`
that returns `Pending` makes the task's poll return `Pending`.

Items are of any type `α`. The mouse handler collects three bytes per
packet; `irq` is the interrupt that completes an item, `otherIrq` any other.
-/

namespace Neutrix.Executor

abbrev TaskId := Nat

inductive Dev where
  | keyboard
  | mouse
deriving DecidableEq, Repr

/-- Capacity of the `ArrayQueue` behind the stream. -/
def Dev.capacity : Dev → Nat
  | .keyboard => 100
  | .mouse => 256

/-- The statics of a stream: the queue (`none` until `try_init_once`) and the
waker. `pushed` and `yielded` record what went in and what came out. -/
structure EventQueue (α : Type*) where
  queue   : Option (List α)
  waker   : Option TaskId
  pushed  : List α
  yielded : List α

inductive Panic where
  | sameId         -- "task with same ID already in tasks"
  | queueFull      -- "queue full", in `spawn`
  | taskQueueFull  -- "task_queue full", in `wake_task`
  | notInitialized -- "scancode queue not initialized"
deriving DecidableEq, Repr

inductive Cpu (α : Type*) where
  | setup                                    -- before `run`
  | ready                                    -- at `task_queue.pop()`
  | body (t : TaskId)                        -- in the polled task's own code
  | atRegister (d : Dev) (t : TaskId)        -- `poll_next`: first pop failed
  | atSecondPop (d : Dev) (t : TaskId)       -- `poll_next`: waker registered
  | atTake (d : Dev) (t : TaskId) (x : α)    -- `poll_next`: second pop gave `x`
  | pending (t : TaskId)                     -- `poll_next` returned `Pending`
  | toSleep                                  -- `run_ready_tasks` returned
  | checkIdle                                -- `sleep_if_idle`, interrupts off
  | halted                                   -- in `hlt`
  | panicked (why : Panic)

structure System (α : Type*) where
  tasks      : Finset TaskId
  taskQueue  : List TaskId
  wakerCache : Finset TaskId
  nextId     : TaskId
  devices    : Dev → EventQueue α
  cpu        : Cpu α

/-- `ArrayQueue::new(100)` in `Executor::new`. -/
def queueCapacity : Nat := 100

namespace System

variable {α : Type*}

def boot : System α where
  tasks      := ∅
  taskQueue  := []
  wakerCache := ∅
  nextId     := 0
  devices    := fun _ => ⟨none, none, [], []⟩
  cpu        := .setup

def setDevice (s : System α) (d : Dev) (q : EventQueue α) : System α :=
  { s with devices := Function.update s.devices d q }

def panic (s : System α) (why : Panic) : System α := { s with cpu := .panicked why }

-- ---------------------------------------------------------------------------
-- Executor
-- ---------------------------------------------------------------------------

/-- `task_queue.push(id).expect(..)`. -/
def pushTask (s : System α) (t : TaskId) (why : Panic) : System α :=
  if s.taskQueue.length < queueCapacity then { s with taskQueue := s.taskQueue ++ [t] }
  else s.panic why

/-- `spawn(Task::new(..))`. -/
def spawn (s : System α) : System α :=
  let id := s.nextId
  let s := { s with nextId := id + 1 }
  if id ∈ s.tasks then s.panic .sameId
  else { s with tasks := insert id s.tasks }.pushTask id .queueFull

/-- One round of `run_ready_tasks`, up to the poll. -/
def popTask (s : System α) : System α :=
  match s.taskQueue with
  | [] => { s with cpu := .toSleep }
  | t :: rest =>
    let s := { s with taskQueue := rest }
    if t ∈ s.tasks then { s with wakerCache := insert t s.wakerCache, cpu := .body t }
    else { s with cpu := .ready } -- task no longer exists

def returnReady (s : System α) (t : TaskId) : System α :=
  { s with tasks := s.tasks.erase t, wakerCache := s.wakerCache.erase t, cpu := .ready }

-- ---------------------------------------------------------------------------
-- Streams
-- ---------------------------------------------------------------------------

/-- `try_init_once`. -/
def initQueue (s : System α) (d : Dev) : System α :=
  match (s.devices d).queue with
  | none => s.setDevice d { s.devices d with queue := some [] }
  | some _ => s

def firstPop (s : System α) (d : Dev) (t : TaskId) : System α :=
  match (s.devices d).queue with
  | none => s.panic .notInitialized
  | some [] => { s with cpu := .atRegister d t }
  | some (x :: rest) =>
    { s.setDevice d { s.devices d with
        queue := some rest, yielded := (s.devices d).yielded ++ [x] } with cpu := .body t }

/-- `WAKER.register(&cx.waker())`. -/
def register (s : System α) (d : Dev) (t : TaskId) : System α :=
  { s.setDevice d { s.devices d with waker := some t } with cpu := .atSecondPop d t }

def secondPop (s : System α) (d : Dev) (t : TaskId) : System α :=
  match (s.devices d).queue with
  | some (x :: rest) =>
    { s.setDevice d { s.devices d with queue := some rest } with cpu := .atTake d t x }
  | _ => { s with cpu := .pending t }

/-- `WAKER.take()`, then `Poll::Ready(Some(x))`. -/
def take (s : System α) (d : Dev) (t : TaskId) (x : α) : System α :=
  { s.setDevice d { s.devices d with
      waker := none, yielded := (s.devices d).yielded ++ [x] } with cpu := .body t }

-- ---------------------------------------------------------------------------
-- Interrupts
-- ---------------------------------------------------------------------------

/-- `WAKER.wake()`: takes the waker out and runs `wake_task`. -/
def wake (s : System α) (d : Dev) : System α :=
  match (s.devices d).waker with
  | none => s
  | some t => (s.setDevice d { s.devices d with waker := none }).pushTask t .taskQueueFull

/-- `let _ = queue.push(x)`. -/
def pushItem (s : System α) (d : Dev) (q : List α) (x : α) : System α :=
  if q.length < d.capacity then
    s.setDevice d { s.devices d with
      queue := some (q ++ [x]), pushed := (s.devices d).pushed ++ [x] }
  else s

def irqHandler (s : System α) (d : Dev) (x : α) : System α :=
  match (s.devices d).queue with
  | none => s
  | some q => (s.pushItem d q x).wake d

/-- The end of an interrupt: execution goes on, after `hlt` if it was there. -/
def resume (s : System α) : System α :=
  match s.cpu with
  | .halted => { s with cpu := .ready }
  | _ => s

end System

-- ---------------------------------------------------------------------------
-- Steps
-- ---------------------------------------------------------------------------

inductive Event (α : Type*) where
  | spawn
  | run
  | pop
  | initQueue (d : Dev)
  | pollNext (d : Dev)
  | register
  | secondPop
  | take
  | returnPending
  | returnReady
  | disable
  | checkIdle
  | irq (d : Dev) (x : α)
  | otherIrq

def Cpu.panics {α : Type*} : Cpu α → Prop
  | .panicked _ => True
  | _ => False

/-- Interrupts can come in. -/
def Cpu.interruptible {α : Type*} : Cpu α → Bool
  | .checkIdle => false
  | .panicked _ => false
  | _ => true

def System.step {α : Type*} (s : System α) : Event α → Option (System α)
  | .spawn => match s.cpu with
    | .setup => some s.spawn
    | _ => none
  | .run => match s.cpu with
    | .setup => some { s with cpu := .ready }
    | _ => none
  | .pop => match s.cpu with
    | .ready => some s.popTask
    | _ => none
  -- a driver's `start`, or `Stream::new` in a task
  | .initQueue d => match s.cpu with
    | .setup => some (s.initQueue d)
    | .body _ => some (s.initQueue d)
    | _ => none
  | .pollNext d => match s.cpu with
    | .body t => some (s.firstPop d t)
    | _ => none
  | .register => match s.cpu with
    | .atRegister d t => some (s.register d t)
    | _ => none
  | .secondPop => match s.cpu with
    | .atSecondPop d t => some (s.secondPop d t)
    | _ => none
  | .take => match s.cpu with
    | .atTake d t x => some (s.take d t x)
    | _ => none
  | .returnPending => match s.cpu with
    | .pending _ => some { s with cpu := .ready }
    | _ => none
  | .returnReady => match s.cpu with
    | .body t => some (s.returnReady t)
    | _ => none
  | .disable => match s.cpu with
    | .toSleep => some { s with cpu := .checkIdle }
    | _ => none
  | .checkIdle => match s.cpu with
    | .checkIdle =>
      -- `enable_and_hlt` leaves no gap for an interrupt
      if s.taskQueue.isEmpty then some { s with cpu := .halted }
      else some { s with cpu := .ready }
    | _ => none
  | .irq d x => if s.cpu.interruptible then some (s.irqHandler d x).resume else none
  | .otherIrq => if s.cpu.interruptible then some s.resume else none

-- ---------------------------------------------------------------------------
-- What a step does
-- ---------------------------------------------------------------------------

/-- The steps as a relation: every event with the program counter it needs. -/
inductive Moves {α : Type*} (s : System α) : Event α → System α → Prop where
  | spawn (h : s.cpu = .setup) : Moves s .spawn s.spawn
  | run (h : s.cpu = .setup) : Moves s .run { s with cpu := .ready }
  | pop (h : s.cpu = .ready) : Moves s .pop s.popTask
  | initQueue (d : Dev) (h : s.cpu = .setup ∨ ∃ t, s.cpu = .body t) :
      Moves s (.initQueue d) (s.initQueue d)
  | pollNext (d : Dev) (t : TaskId) (h : s.cpu = .body t) : Moves s (.pollNext d) (s.firstPop d t)
  | register (d : Dev) (t : TaskId) (h : s.cpu = .atRegister d t) :
      Moves s .register (s.register d t)
  | secondPop (d : Dev) (t : TaskId) (h : s.cpu = .atSecondPop d t) :
      Moves s .secondPop (s.secondPop d t)
  | take (d : Dev) (t : TaskId) (x : α) (h : s.cpu = .atTake d t x) : Moves s .take (s.take d t x)
  | returnPending (t : TaskId) (h : s.cpu = .pending t) :
      Moves s .returnPending { s with cpu := .ready }
  | returnReady (t : TaskId) (h : s.cpu = .body t) : Moves s .returnReady (s.returnReady t)
  | disable (h : s.cpu = .toSleep) : Moves s .disable { s with cpu := .checkIdle }
  | halt (h : s.cpu = .checkIdle) (hEmpty : s.taskQueue = []) :
      Moves s .checkIdle { s with cpu := .halted }
  | goOn (h : s.cpu = .checkIdle) : Moves s .checkIdle { s with cpu := .ready }
  | irq (d : Dev) (x : α) (h : s.cpu.interruptible) : Moves s (.irq d x) (s.irqHandler d x).resume
  | otherIrq (h : s.cpu.interruptible) : Moves s .otherIrq s.resume

theorem moves_of_step {α : Type*} {s s' : System α} {e : Event α} (h : s.step e = some s') :
    Moves s e s' := by
  cases e with
  | initQueue d =>
    simp only [System.step] at h
    split at h <;> cases h
    · exact .initQueue d (.inl ‹_›)
    · exact .initQueue d (.inr ⟨_, ‹_›⟩)
  | checkIdle =>
    simp only [System.step] at h
    split at h
    · split_ifs at h with hEmpty <;> cases h
      · exact .halt ‹_› (List.isEmpty_iff.mp hEmpty)
      · exact .goOn ‹_›
    · cases h
  | irq d x =>
    simp only [System.step, Option.ite_none_right_eq_some, Option.some.injEq] at h
    obtain ⟨hInt, rfl⟩ := h
    exact .irq d x hInt
  | otherIrq =>
    simp only [System.step, Option.ite_none_right_eq_some, Option.some.injEq] at h
    obtain ⟨hInt, rfl⟩ := h
    exact .otherIrq hInt
  | _ =>
    -- one program counter enables the event
    simp only [System.step] at h
    split at h <;> cases h
    constructor <;> assumption

-- ---------------------------------------------------------------------------
-- What an interrupt does
-- ---------------------------------------------------------------------------

namespace System

variable {α : Type*}

@[simp] theorem setDevice_devices (s : System α) (d d' : Dev) (q : EventQueue α) :
    (s.setDevice d q).devices d' = if d' = d then q else s.devices d' :=
  Function.update_apply ..

@[simp] theorem setDevice_taskQueue (s : System α) (d : Dev) (q : EventQueue α) :
    (s.setDevice d q).taskQueue = s.taskQueue := rfl

@[simp] theorem setDevice_cpu (s : System α) (d : Dev) (q : EventQueue α) :
    (s.setDevice d q).cpu = s.cpu := rfl

/-- A successful `spawn`. -/
theorem spawn_of_ok {s : System α} (h : ¬ s.spawn.cpu.panics) :
    s.spawn = { s with
      tasks := (insert s.nextId s.tasks), taskQueue := (s.taskQueue ++ [s.nextId])
      nextId := s.nextId + 1 } := by
  unfold spawn pushTask at h ⊢
  by_cases hSame : s.nextId ∈ s.tasks
  · simp [hSame, panic, Cpu.panics] at h
  · by_cases hRoom : s.taskQueue.length < queueCapacity
    · simp [hSame, hRoom]
    · simp [hSame, hRoom, panic, Cpu.panics] at h

/-- The device after its handler ran: the item is in if there was room, and the
waker is out. -/
def fed (s : System α) (d : Dev) (q : List α) (x : α) : EventQueue α :=
  if q.length < d.capacity then
    ⟨some (q ++ [x]), none, (s.devices d).pushed ++ [x], (s.devices d).yielded⟩
  else ⟨some q, none, (s.devices d).pushed, (s.devices d).yielded⟩

/-- The four outcomes of the handler. -/
inductive IrqEffect (s : System α) (d : Dev) (x : α) : System α → Prop where
  | ignored (h : (s.devices d).queue = none) : IrqEffect s d x s
  | quiet (q : List α) (h : (s.devices d).queue = some q) (hw : (s.devices d).waker = none) :
      IrqEffect s d x (s.setDevice d (s.fed d q x))
  | woke (q : List α) (t : TaskId) (h : (s.devices d).queue = some q)
      (hw : (s.devices d).waker = some t) (hRoom : s.taskQueue.length < queueCapacity) :
      IrqEffect s d x { s.setDevice d (s.fed d q x) with taskQueue := s.taskQueue ++ [t] }
  | overflow (q : List α) (t : TaskId) (h : (s.devices d).queue = some q)
      (hw : (s.devices d).waker = some t) (hFull : queueCapacity ≤ s.taskQueue.length) :
      IrqEffect s d x ((s.setDevice d (s.fed d q x)).panic .taskQueueFull)

/-- The handler as one update of the device, then the wake-up. -/
theorem irqHandler_eq (s : System α) (d : Dev) (x : α) {q : List α}
    (hq : (s.devices d).queue = some q) :
    s.irqHandler d x = (match (s.devices d).waker with
      | none => s.setDevice d (s.fed d q x)
      | some t => (s.setDevice d (s.fed d q x)).pushTask t .taskQueueFull) := by
  simp only [irqHandler, hq]
  by_cases hRoom : q.length < d.capacity
  · cases hw : (s.devices d).waker with
    | none => simp [pushItem, hRoom, wake, hw, fed]
    | some t => simp [pushItem, hRoom, wake, hw, fed, setDevice]
  · -- a full queue stays as it is
    have hFed : s.fed d q x = { s.devices d with waker := none } := by
      simp [fed, hRoom, hq]
    cases hw : (s.devices d).waker with
    | none =>
      have hSame : s.fed d q x = s.devices d := by
        rw [hFed, ← hw]
      simp [pushItem, hRoom, wake, hw, hSame, setDevice]
    | some t => simp [pushItem, hRoom, wake, hw, hFed]

theorem irqHandler_effect (s : System α) (d : Dev) (x : α) :
    IrqEffect s d x (s.irqHandler d x) := by
  cases hq : (s.devices d).queue with
  | none =>
    rw [irqHandler, hq]
    exact .ignored hq
  | some q =>
    rw [irqHandler_eq s d x hq]
    cases hw : (s.devices d).waker with
    | none => exact .quiet q hq hw
    | some t =>
      show IrqEffect s d x ((s.setDevice d (s.fed d q x)).pushTask t .taskQueueFull)
      rw [pushTask]
      split_ifs with hRoom
      · exact .woke q t hq hw hRoom
      · exact .overflow q t hq hw (Nat.le_of_not_lt hRoom)

end System

end Neutrix.Executor
