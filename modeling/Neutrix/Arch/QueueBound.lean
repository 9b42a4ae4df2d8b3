import Neutrix.Arch.Executor

/-!
# Neutrix — how full `task_queue` can get

A task id enters `task_queue` by `spawn` or by a wake-up, and a wake-up
uses up a registered waker. So ids, registered wakers and the poll that is
under way are tokens of which there is one per task (`load`) — except that a
`poll_next` whose waker was used up by an interrupt before its end goes on
polling with the id queued again. Each such interrupt (`requeues`) makes one
token more, and nothing else does. A token is given back (`refund`) when a task
finishes, when the id of a finished task is popped, and when a poll registers
its waker over one that is still there, as the poll of a doubled id does
(`load_step`).

As long as these tokens are at most 100 at every moment (`peak`), `wake_task`
never finds the queue full (`wake_never_full`). One task and 101 such interrupts
in one poll are enough for the panic (`one_task_overflows`).
-/

namespace Neutrix.Executor

open Neutrix.Lib

variable {α : Type*}

-- ---------------------------------------------------------------------------
-- Tokens
-- ---------------------------------------------------------------------------

def System.registered (s : System α) (d : Dev) : Nat := (s.devices d).waker.toList.length

/-- The poll under way counts while its task has no waker registered by it. -/
def System.credit (s : System α) : Nat :=
  match s.cpu with
  | .body _ => 1
  | .atRegister _ _ => 1
  | .atSecondPop d _ => 1 - s.registered d
  | .atTake d _ _ => 1 - s.registered d
  | _ => 0

def System.load (s : System α) : Nat :=
  s.taskQueue.length + (s.registered .keyboard + s.registered .mouse) + s.credit

/-- The interrupt takes the waker of the `poll_next` it interrupts, after the
registration and before the end of that `poll_next`. -/
def requeues (s : System α) : Event α → Bool
  | .irq d _ =>
    match s.cpu with
    | .atSecondPop d' _ => d' = d && (s.devices d).waker.isSome
    | .atTake d' _ _ => d' = d && (s.devices d).waker.isSome
    | _ => false
  | _ => false

/-- The tokens an event brings in. -/
def cost (s : System α) : Event α → Nat
  | .spawn => 1
  | e => if requeues s e then 1 else 0

/-- The tokens an event gives back. -/
def refund (s : System α) : Event α → Nat
  | .pop =>
    match s.taskQueue with
    | [] => 0
    | t :: _ => if t ∈ s.tasks then 0 else 1
  | .register =>
    match s.cpu with
    | .atRegister d _ => s.registered d
    | _ => 0
  | .returnReady => 1
  | _ => 0

theorem registered_le (s : System α) (d : Dev) : s.registered d ≤ 1 := by
  unfold System.registered
  cases (s.devices d).waker <;> simp

/-- The sum over the two devices, seen from one of them. -/
theorem registered_split (s : System α) (d : Dev) :
    ∃ rest, s.registered .keyboard + s.registered .mouse = s.registered d + rest ∧
      ∀ s' : System α, (∀ d', d' ≠ d → s'.devices d' = s.devices d') →
        s'.registered .keyboard + s'.registered .mouse = s'.registered d + rest := by
  cases d with
  | keyboard =>
    refine ⟨s.registered .mouse, rfl, fun s' h => ?_⟩
    rw [System.registered, System.registered, System.registered, h .mouse (by decide)]
  | mouse =>
    refine ⟨s.registered .keyboard, Nat.add_comm _ _, fun s' h => ?_⟩
    rw [Nat.add_comm, System.registered, System.registered, System.registered,
      h .keyboard (by decide)]

/-- A step on one device, in terms of its own waker. -/
theorem load_le_of_device {s s' : System α} {d : Dev} {k n : Nat}
    (hDev : ∀ d', d' ≠ d → s'.devices d' = s.devices d')
    (h : s'.taskQueue.length + s'.registered d + s'.credit + k ≤
      s.taskQueue.length + s.registered d + s.credit + n) :
    s'.load + k ≤ s.load + n := by
  obtain ⟨rest, hBefore, hAfter⟩ := registered_split s d
  unfold System.load
  rw [hBefore, hAfter s' hDev]
  omega

-- ---------------------------------------------------------------------------
-- Steps
-- ---------------------------------------------------------------------------

theorem load_resume (s : System α) : s.resume.load = s.load := by
  unfold System.resume
  split
  · rename_i hCpu
    simp [System.load, System.registered, System.credit, hCpu]
  · rfl

theorem fed_waker (s : System α) (d : Dev) (q : List α) (x : α) : (s.fed d q x).waker = none := by
  unfold System.fed
  split_ifs <;> rfl

/-- An interrupt turns a registered waker into a queued id. -/
theorem load_irq {s s' : System α} {d : Dev} {x : α} (hEff : System.IrqEffect s d x s') :
    s'.load + refund s (.irq d x) ≤ s.load + cost s (.irq d x) := by
  cases hEff with
  | ignored => exact Nat.le_add_right _ _
  | quiet q hq hw =>
    have hSame : ∀ d', (s.setDevice d (s.fed d q x)).registered d' = s.registered d' := by
      intro d'
      by_cases hd : d' = d
      · subst hd
        simp [System.registered, fed_waker, hw]
      · simp [System.registered, hd]
    have hCredit : (s.setDevice d (s.fed d q x)).credit = s.credit := by
      simp only [System.credit, System.setDevice_cpu, hSame]
    simp [System.load, hSame, hCredit, refund]
  | woke q t hq hw hRoom =>
    refine load_le_of_device (d := d) (fun d' hd' => by simp [hd']) ?_
    have hOut : (System.registered { s.setDevice d (s.fed d q x) with
        taskQueue := (s.taskQueue ++ [t]) } d) = 0 := by
      simp [System.registered, fed_waker]
    have hIn : s.registered d = 1 := by simp [System.registered, hw]
    -- only the interrupted `poll_next` of this device gets its token back
    have hCredit : System.credit { s.setDevice d (s.fed d q x) with
        taskQueue := (s.taskQueue ++ [t]) } ≤ s.credit + cost s (.irq d x) := by
      cases hCpu : s.cpu with
      | atSecondPop d' t' =>
        by_cases hd : d' = d
        · simp [System.credit, hCpu, cost, requeues, hd, hw]
          omega
        · simp [System.credit, hCpu, System.registered, hd]
      | atTake d' t' y =>
        by_cases hd : d' = d
        · simp [System.credit, hCpu, cost, requeues, hd, hw]
          omega
        · simp [System.credit, hCpu, System.registered, hd]
      | _ => simp [System.credit, hCpu]
    have hNone : refund s (.irq d x) = 0 := rfl
    rw [hOut, hIn, hNone, List.length_append, List.length_singleton]
    omega
  | overflow q t hq hw hFull =>
    refine load_le_of_device (d := d) (fun d' hd' => by simp [System.panic, hd']) ?_
    simp [System.panic, System.credit, System.registered, fed_waker, refund]
    omega

/-- **One step** brings in at most the tokens of its event, and gives back those of its
refund. -/
theorem load_step {s s' : System α} {e : Event α} (hMove : Moves s e s') :
    s'.load + refund s e ≤ s.load + cost s e := by
  cases hMove with
  | spawn hCpu =>
    unfold System.spawn System.pushTask
    by_cases hSame : s.nextId ∈ s.tasks
    · simp [hSame, System.load, System.registered, System.credit, System.panic, hCpu, refund]
    · by_cases hRoom : s.taskQueue.length < queueCapacity
      · simp [hSame, hRoom, System.load, System.registered, System.credit, hCpu, cost, refund]
        omega
      · simp [hSame, hRoom, System.load, System.registered, System.credit, System.panic, hCpu,
          refund]
  | run hCpu => simp [System.load, System.registered, System.credit, hCpu, refund]
  | pop hCpu =>
    unfold System.popTask
    split
    · rename_i hQ
      simp [System.load, System.registered, System.credit, hCpu, refund, hQ]
    · rename_i t rest hQ
      dsimp only
      split_ifs with hTask <;>
        simp [System.load, System.registered, System.credit, hCpu, refund, hQ, hTask] <;> omega
  | initQueue d hCpu =>
    unfold System.initQueue
    split
    · refine load_le_of_device (d := d) (fun d' hd' => by simp [hd']) ?_
      rcases hCpu with hCpu | ⟨t, hCpu⟩ <;> simp [System.registered, System.credit, hCpu, refund]
    · exact Nat.le_add_right _ _
  | pollNext d t hCpu =>
    unfold System.firstPop
    split
    · simp [System.load, System.registered, System.credit, System.panic, hCpu, refund]
      omega
    · simp [System.load, System.registered, System.credit, hCpu, refund]
    · refine load_le_of_device (d := d) (fun d' hd' => by simp [hd']) ?_
      simp [System.registered, System.credit, hCpu, refund]
  | register d t hCpu =>
    refine load_le_of_device (d := d) (fun d' hd' => by simp [System.register, hd']) ?_
    simp [System.register, System.registered, System.credit, hCpu, refund]
    omega
  | secondPop d t hCpu =>
    unfold System.secondPop
    split
    · refine load_le_of_device (d := d) (fun d' hd' => by simp [hd']) ?_
      simp [System.registered, System.credit, hCpu, refund]
    · simp [System.load, System.registered, System.credit, hCpu, refund]
      omega
  | take d t x hCpu =>
    have hLe := registered_le s d
    refine load_le_of_device (d := d) (fun d' hd' => by simp [System.take, hd']) ?_
    have hOut : (s.take d t x).registered d = 0 := by simp [System.take, System.registered]
    have hQueue : (s.take d t x).taskQueue = s.taskQueue := rfl
    have hAfter : (s.take d t x).credit = 1 := rfl
    have hBefore : s.credit = 1 - s.registered d := by rw [System.credit, hCpu]
    have hNone : refund s .take = 0 := rfl
    rw [hOut, hQueue, hAfter, hBefore, hNone]
    omega
  | returnPending t hCpu => simp [System.load, System.registered, System.credit, hCpu, refund]
  | returnReady t hCpu =>
    simp [System.returnReady, System.load, System.registered, System.credit, hCpu, refund]
  | disable hCpu => simp [System.load, System.registered, System.credit, hCpu, refund]
  | halt hCpu => simp [System.load, System.registered, System.credit, hCpu, refund]
  | goOn hCpu => simp [System.load, System.registered, System.credit, hCpu, refund]
  | irq d x =>
    rw [load_resume]
    exact load_irq (s.irqHandler_effect d x)
  | otherIrq =>
    rw [load_resume]
    exact Nat.le_add_right _ _

/-- `wake_task` fails only on a full queue, with a waker on top. -/
theorem load_of_taskQueueFull {s s' : System α} {e : Event α} (hMove : Moves s e s')
    (hFull : s'.cpu = .panicked .taskQueueFull) : queueCapacity < s.load := by
  cases hMove with
  | spawn hCpu =>
    unfold System.spawn System.pushTask at hFull
    by_cases hSame : s.nextId ∈ s.tasks
    · simp [hSame, System.panic] at hFull
    · by_cases hRoom : s.taskQueue.length < queueCapacity <;>
        simp [hSame, hRoom, System.panic, hCpu] at hFull
  | pop =>
    unfold System.popTask at hFull
    split at hFull
    · simp at hFull
    · dsimp only at hFull
      split_ifs at hFull
  | initQueue d hCpu =>
    unfold System.initQueue at hFull
    rcases hCpu with hCpu | ⟨t, hCpu⟩ <;> split at hFull <;> simp [hCpu] at hFull
  | pollNext d t =>
    unfold System.firstPop at hFull
    split at hFull <;> simp [System.panic] at hFull
  | secondPop d t =>
    unfold System.secondPop at hFull
    split at hFull <;> simp at hFull
  | irq d x hInt =>
    have hPanic : (s.irqHandler d x).cpu = .panicked .taskQueueFull := by
      unfold System.resume at hFull
      split at hFull
      · simp at hFull
      · exact hFull
    have hNot : s.cpu ≠ .panicked .taskQueueFull := by
      intro h
      simp [h, Cpu.interruptible] at hInt
    have hEff := s.irqHandler_effect d x
    generalize s.irqHandler d x = s₁ at hEff hPanic
    cases hEff with
    | ignored => exact absurd hPanic hNot
    | quiet => exact absurd hPanic hNot
    | woke => exact absurd hPanic hNot
    | overflow q t hq hw hLen =>
      obtain ⟨rest, hSum, -⟩ := registered_split s d
      have hIn : s.registered d = 1 := by simp [System.registered, hw]
      unfold System.load
      omega
  | otherIrq hInt =>
    unfold System.resume at hFull
    split at hFull
    · simp at hFull
    · simp [hFull, Cpu.interruptible] at hInt
  | _ => simp [System.register, System.take, System.returnReady] at hFull

-- ---------------------------------------------------------------------------
-- Runs
-- ---------------------------------------------------------------------------

/-- The most tokens on the way, when there are `n` of them at the start: tasks spawned and
interrupts that re-queue the task being polled, less what was given back. -/
def peak : System α → Nat → List (Event α) → Nat
  | _, n, [] => n
  | s, n, e :: rest => max (n + cost s e) <| match s.step e with
    | some s' => peak s' (n + cost s e - refund s e) rest
    | none => 0

/-- **The queue never overflows on a wake-up** in a run that never has more than 100
tokens. -/
theorem wake_never_full (ops : List (Event α)) (s : System α)
    (hRun : Lib.run System.step System.boot ops = some s)
    (hPeak : peak System.boot 0 ops ≤ 100) : s.cpu ≠ .panicked .taskQueueFull := by
  -- `n` is an upper bound of the load all along
  suffices hGen : ∀ (ops : List (Event α)) (s₀ : System α) (n : Nat),
      s₀.load ≤ n → peak s₀ n ops ≤ 100 → s₀.cpu ≠ .panicked .taskQueueFull →
      Lib.run System.step s₀ ops = some s → s.cpu ≠ .panicked .taskQueueFull by
    exact hGen ops System.boot 0 (by simp [System.load, System.registered, System.credit,
      System.boot]) hPeak (by simp [System.boot]) hRun
  intro ops
  induction ops with
  | nil =>
    intro s₀ n _ _ hNot hRun
    rw [run_nil, Option.some.injEq] at hRun
    exact hRun ▸ hNot
  | cons e rest ih =>
    intro s₀ n hLoad hPeak _ hRun
    obtain ⟨s₁, hStep, hRest⟩ := (run_cons System.step).mp hRun
    have hMove := moves_of_step hStep
    have hMore := load_step hMove
    simp only [peak, hStep, max_le_iff] at hPeak
    refine ih s₁ (n + cost s₀ e - refund s₀ e) (by omega) hPeak.2 (fun hFull => ?_) hRest
    have hOver := load_of_taskQueueFull hMove hFull
    have hNow := hPeak.1
    unfold queueCapacity at hOver
    omega

/-- A key in the window of a poll. The id it queued is popped again, and the second poll
registers over the waker of the first. -/
theorem wake_never_full_key : ∃ s : System UInt8,
    Lib.run System.step System.boot
      [.spawn, .run, .pop, .initQueue .keyboard, .pollNext .keyboard, .register,
        .irq .keyboard 0x1E, .secondPop, .take, .pollNext .keyboard, .register, .secondPop,
        .returnPending, .pop, .pollNext .keyboard, .register] = some s ∧
    s.load = 1 ∧ s.cpu ≠ .panicked .taskQueueFull := by
  obtain ⟨s, hRun, hLoad⟩ : ∃ s : System UInt8, Lib.run System.step System.boot
      [.spawn, .run, .pop, .initQueue .keyboard, .pollNext .keyboard, .register,
        .irq .keyboard 0x1E, .secondPop, .take, .pollNext .keyboard, .register, .secondPop,
        .returnPending, .pop, .pollNext .keyboard, .register] = some s ∧ s.load = 1 :=
    ⟨_, rfl, rfl⟩
  exact ⟨s, hRun, hLoad, wake_never_full _ s hRun (by decide)⟩

-- ---------------------------------------------------------------------------
-- The overflow
-- ---------------------------------------------------------------------------

/-- A scancode arrives between registration and second pop; the task takes it and
polls again. -/
def window : List (Event UInt8) :=
  [.pollNext .keyboard, .register, .irq .keyboard 0, .secondPop, .take]

/-- The single task in its poll, after `n` such windows. -/
def afterWindows (n : Nat) : System UInt8 where
  tasks      := {0}
  taskQueue  := List.replicate n 0
  wakerCache := {0}
  nextId     := 1
  devices    := Function.update (fun _ => ⟨none, none, [], []⟩) .keyboard
    ⟨some [], none, List.replicate n 0, List.replicate n 0⟩
  cpu        := .body 0

theorem run_window {n : Nat} (hn : n < 100) :
    Lib.run System.step (afterWindows n) window = some (afterWindows (n + 1)) := by
  simp [window, run, System.step, afterWindows, System.firstPop, System.register,
    System.irqHandler, System.pushItem, System.wake, System.pushTask, System.resume,
    System.secondPop, System.take, System.setDevice, Cpu.interruptible, queueCapacity,
    Dev.capacity, hn, List.replicate_succ']

theorem run_windows {n : Nat} (hn : n ≤ 100) :
    Lib.run System.step (afterWindows 0) (List.replicate n window).flatten =
      some (afterWindows n) := by
  induction n with
  | zero => rfl
  | succ n ih =>
    rw [List.replicate_succ', List.flatten_append, run_append, ih (by omega)]
    simpa using run_window (by omega)

/-- **One task overflows the queue.** It is spawned, starts to poll, and 101
scancodes arrive, each in a window of that one poll. -/
theorem one_task_overflows :
    ∃ s : System UInt8, Lib.run System.step System.boot
      ([.spawn, .run, .pop, .initQueue .keyboard] ++ (List.replicate 100 window).flatten ++
        [.pollNext .keyboard, .register, .irq .keyboard 0]) = some s ∧
    s.cpu = .panicked .taskQueueFull := by
  have hStart : Lib.run System.step (System.boot : System UInt8)
      [.spawn, .run, .pop, .initQueue .keyboard] = some (afterWindows 0) := rfl
  have hLast : ∃ s : System UInt8, Lib.run System.step (afterWindows 100)
      [.pollNext .keyboard, .register, .irq .keyboard 0] = some s ∧
      s.cpu = .panicked .taskQueueFull := ⟨_, rfl, rfl⟩
  obtain ⟨s, hRun, hPanic⟩ := hLast
  refine ⟨s, (run_append System.step).mpr ⟨afterWindows 100, ?_, hRun⟩, hPanic⟩
  exact (run_append System.step).mpr ⟨afterWindows 0, hStart, run_windows le_rfl⟩

end Neutrix.Executor
