import Neutrix.Arch.WakeUps
import Neutrix.Lib.Trace

/-!
# Neutrix — every run of the executor

`src/arch/task.rs` by itself: an `Executor` with any tasks, any poll
outcomes and any wake-ups. A wake-up may come at any time, from an interrupt
or from the polled task, and for any id, also one whose task is gone. The
head of a round of `run_ready_tasks` (pop, look-up, cached waker) is one
step, with which the poll begins. A push to a full queue panics and ends the
run.

`Run.history` records what happened. The results are about every state of
every run (`executor_history`): no poll after `Ready`; outside polls the
waker cache holds wakers of known tasks only; a spawned task is known until
it is done; and a task that was spawned or woken since its last poll began
is in the queue.

The whole system of `Neutrix.Executor` moves the executor in just these
steps (`system_runs_executor`), so all of this holds of it too.
-/

namespace Neutrix.Task

open Neutrix.Lib
open Neutrix.Executor (TaskId queueCapacity)

-- ---------------------------------------------------------------------------
-- Executor
-- ---------------------------------------------------------------------------

/-- The maps are the sets of their keys: futures and wakers are opaque. -/
structure Executor where
  tasks      : Finset TaskId
  taskQueue  : List TaskId
  wakerCache : Finset TaskId
deriving DecidableEq

namespace Executor

def new : Executor := ⟨∅, [], ∅⟩

/-- `task_queue.push(id).expect(..)`. -/
def push (e : Executor) (t : TaskId) : Option Executor :=
  if e.taskQueue.length < queueCapacity then some { e with taskQueue := e.taskQueue ++ [t] }
  else none

def spawn (e : Executor) (t : TaskId) : Option Executor :=
  if t ∈ e.tasks then none -- "task with same ID already in tasks"
  else { e with tasks := insert t e.tasks }.push t

def wakeTask (e : Executor) (t : TaskId) : Option Executor := e.push t

/-- `while let Some(task_id) = task_queue.pop()`, up to the poll. Returns the task to
poll, if the id is that of a task. -/
def popTask (e : Executor) : Executor × Option TaskId :=
  match e.taskQueue with
  | [] => (e, none)
  | t :: rest =>
    if t ∈ e.tasks then ({ e with taskQueue := rest, wakerCache := insert t e.wakerCache }, some t)
    else ({ e with taskQueue := rest }, none) -- task no longer exists

/-- `Poll::Ready`: the task and its cached waker are removed. -/
def finish (e : Executor) (t : TaskId) : Executor :=
  { e with tasks := e.tasks.erase t, wakerCache := e.wakerCache.erase t }

end Executor

-- ---------------------------------------------------------------------------
-- Runs
-- ---------------------------------------------------------------------------

inductive Occurrence where
  | spawned (t : TaskId)
  | woken (t : TaskId)
  | polled (t : TaskId)
  | ready (t : TaskId)
deriving DecidableEq

/-- The executor, the task being polled, and the history. -/
structure Run where
  executor : Executor
  polling  : Option TaskId
  history  : List Occurrence
deriving DecidableEq

def Run.start : Run := ⟨Executor.new, none, []⟩

inductive Event where
  | spawn (t : TaskId)
  | wake (t : TaskId)
  | pop
  | returnReady
  | returnPending
deriving DecidableEq

/-- Tasks are distinct: an id is spawned once. `spawn` borrows the executor, so it is
not called during a poll. -/
def Run.step (r : Run) : Event → Option Run
  | .spawn t =>
    if r.polling = none ∧ .spawned t ∉ r.history then
      (r.executor.spawn t).map fun e => ⟨e, none, r.history ++ [.spawned t]⟩
    else none
  | .wake t => (r.executor.wakeTask t).map fun e => ⟨e, r.polling, r.history ++ [.woken t]⟩
  | .pop =>
    if r.polling = none then
      match r.executor.popTask with
      | (e, some t) => some ⟨e, some t, r.history ++ [.polled t]⟩
      | (e, none) => some ⟨e, none, r.history⟩
    else none
  | .returnReady => r.polling.map fun t => ⟨r.executor.finish t, none, r.history ++ [.ready t]⟩
  | .returnPending => r.polling.map fun _ => ⟨r.executor, none, r.history⟩

-- ---------------------------------------------------------------------------
-- What a step does
-- ---------------------------------------------------------------------------

/-- The steps as a relation. -/
inductive Moves (r : Run) : Event → Run → Prop where
  | spawn (t : TaskId) (hIdle : r.polling = none) (hNew : .spawned t ∉ r.history)
      (hFresh : t ∉ r.executor.tasks) :
      Moves r (.spawn t) ⟨⟨insert t r.executor.tasks, r.executor.taskQueue ++ [t],
        r.executor.wakerCache⟩, none, r.history ++ [.spawned t]⟩
  | wake (t : TaskId) :
      Moves r (.wake t) ⟨{ r.executor with taskQueue := r.executor.taskQueue ++ [t] }, r.polling,
        r.history ++ [.woken t]⟩
  | idle (hIdle : r.polling = none) (hQueue : r.executor.taskQueue = []) : Moves r .pop r
  | stale (t : TaskId) (rest : List TaskId) (hIdle : r.polling = none)
      (hQueue : r.executor.taskQueue = t :: rest) (hGone : t ∉ r.executor.tasks) :
      Moves r .pop ⟨{ r.executor with taskQueue := rest }, none, r.history⟩
  | poll (t : TaskId) (rest : List TaskId) (hIdle : r.polling = none)
      (hQueue : r.executor.taskQueue = t :: rest) (hTask : t ∈ r.executor.tasks) :
      Moves r .pop ⟨⟨r.executor.tasks, rest, insert t r.executor.wakerCache⟩, some t,
        r.history ++ [.polled t]⟩
  | returnReady (t : TaskId) (hPoll : r.polling = some t) :
      Moves r .returnReady ⟨r.executor.finish t, none, r.history ++ [.ready t]⟩
  | returnPending (t : TaskId) (hPoll : r.polling = some t) :
      Moves r .returnPending ⟨r.executor, none, r.history⟩

theorem push_eq_some {e e' : Executor} {t : TaskId} (h : e.push t = some e') :
    e' = { e with taskQueue := e.taskQueue ++ [t] } := by
  rw [Executor.push, Option.ite_none_right_eq_some] at h
  exact (Option.some.inj h.2).symm

theorem moves_of_step {r r' : Run} {ev : Event} (h : r.step ev = some r') : Moves r ev r' := by
  cases ev with
  | spawn t =>
    simp only [Run.step, Option.ite_none_right_eq_some, Option.map_eq_some_iff] at h
    obtain ⟨⟨hIdle, hNew⟩, e, hSpawn, rfl⟩ := h
    rw [Executor.spawn, Option.ite_none_left_eq_some] at hSpawn
    rw [push_eq_some hSpawn.2]
    exact .spawn t hIdle hNew hSpawn.1
  | wake t =>
    simp only [Run.step, Option.map_eq_some_iff] at h
    obtain ⟨e, hWake, rfl⟩ := h
    rw [push_eq_some hWake]
    exact .wake t
  | pop =>
    simp only [Run.step, Option.ite_none_right_eq_some] at h
    obtain ⟨hIdle, h⟩ := h
    rcases hQueue : r.executor.taskQueue with _ | ⟨t, rest⟩
    · simp only [Executor.popTask, hQueue, Option.some.injEq] at h
      have hSame : r' = r := by rw [← h, ← hIdle]
      rw [hSame]
      exact .idle hIdle hQueue
    · by_cases hTask : t ∈ r.executor.tasks
      · simp only [Executor.popTask, hQueue, if_pos hTask, Option.some.injEq] at h
        subst h
        exact .poll t rest hIdle hQueue hTask
      · simp only [Executor.popTask, hQueue, if_neg hTask, Option.some.injEq] at h
        subst h
        exact .stale t rest hIdle hQueue hTask
  | returnReady =>
    simp only [Run.step, Option.map_eq_some_iff] at h
    obtain ⟨t, hPoll, rfl⟩ := h
    exact .returnReady t hPoll
  | returnPending =>
    simp only [Run.step, Option.map_eq_some_iff] at h
    obtain ⟨t, hPoll, rfl⟩ := h
    exact .returnPending t hPoll

-- ---------------------------------------------------------------------------
-- The invariant
-- ---------------------------------------------------------------------------

/-- Task `t` was spawned or woken, and no poll of it began after that. -/
def Due (t : TaskId) (history : List Occurrence) : Prop :=
  OpenSince (fun o => o = .spawned t ∨ o = .woken t) (fun o => o = .polled t) history

/-- The executor against its history. -/
structure Inv (r : Run) : Prop where
  known    : ∀ t, t ∈ r.executor.tasks ↔ .spawned t ∈ r.history ∧ .ready t ∉ r.history
  born     : ∀ t, .ready t ∈ r.history → .spawned t ∈ r.history
  polled   : ∀ t, r.polling = some t → t ∈ r.executor.tasks
  cache    : r.executor.wakerCache ⊆ r.executor.tasks
  finished : ∀ t, NeverBefore (.ready t) (.polled t) r.history
  queued   : ∀ t ∈ r.executor.tasks, Due t r.history → t ∈ r.executor.taskQueue

theorem inv_start : Inv Run.start where
  known := by simp [Run.start, Executor.new]
  born := by simp [Run.start]
  polled := by simp [Run.start]
  cache := Finset.Subset.refl _
  finished := fun _ => neverBefore_nil
  queued := fun _ _ hDue => absurd hDue not_openSince_nil

theorem Inv.spawn {r : Run} (h : Inv r) {t : TaskId} (hNew : .spawned t ∉ r.history) :
    Inv ⟨⟨insert t r.executor.tasks, r.executor.taskQueue ++ [t], r.executor.wakerCache⟩, none,
      r.history ++ [.spawned t]⟩ where
  known u := by
    by_cases hu : u = t
    · have hReady : .ready t ∉ r.history := fun hReady => hNew (h.born t hReady)
      simp [hu, hReady]
    · simp [hu, h.known u]
  born u hu := by simpa using .inl (h.born u (by simpa using hu))
  polled u hu := nomatch hu
  cache := h.cache.trans (Finset.subset_insert _ _)
  finished u := neverBefore_concat (h.finished u) (fun hEq => nomatch hEq)
  queued u hu hDue := by
    by_cases hut : u = t
    · simp [hut]
    · rcases openSince_concat.mp hDue with hNow | ⟨hBefore, -⟩
      · simp [Ne.symm hut] at hNow
      · exact List.mem_append_left _ (h.queued u (Finset.mem_of_mem_insert_of_ne hu hut) hBefore)

theorem Inv.wake {r : Run} (h : Inv r) (t : TaskId) :
    Inv ⟨{ r.executor with taskQueue := r.executor.taskQueue ++ [t] }, r.polling,
      r.history ++ [.woken t]⟩ where
  known u := by simp [h.known u]
  born u hu := by simpa using h.born u (by simpa using hu)
  polled := h.polled
  cache := h.cache
  finished u := neverBefore_concat (h.finished u) (fun hEq => nomatch hEq)
  queued u hu hDue := by
    rcases openSince_concat.mp hDue with hNow | ⟨hBefore, -⟩
    · have hut : t = u := by simpa using hNow
      simp [hut]
    · exact List.mem_append_left _ (h.queued u hu hBefore)

/-- A stale id leaves the queue: it is no task's. -/
theorem Inv.stale {r : Run} (h : Inv r) {t : TaskId} {rest : List TaskId}
    (hQueue : r.executor.taskQueue = t :: rest) (hGone : t ∉ r.executor.tasks) :
    Inv ⟨{ r.executor with taskQueue := rest }, none, r.history⟩ where
  known := h.known
  born := h.born
  polled u hu := nomatch hu
  cache := h.cache
  finished := h.finished
  queued u hu hDue := by
    have hIn := h.queued u hu hDue
    rw [hQueue] at hIn
    exact (List.mem_cons.mp hIn).resolve_left fun hut => hGone (hut ▸ hu)

/-- A popped task is not due any more: its poll begins. -/
theorem Inv.poll {r : Run} (h : Inv r) {t : TaskId} {rest : List TaskId}
    (hQueue : r.executor.taskQueue = t :: rest) (hTask : t ∈ r.executor.tasks) :
    Inv ⟨⟨r.executor.tasks, rest, insert t r.executor.wakerCache⟩, some t,
      r.history ++ [.polled t]⟩ where
  known u := by simp [h.known u]
  born u hu := by simpa using h.born u (by simpa using hu)
  polled u hu := Option.some.inj hu ▸ hTask
  cache := Finset.insert_subset hTask h.cache
  finished u := by
    refine neverBefore_concat (h.finished u) fun hEq => ?_
    cases hEq
    exact ((h.known t).mp hTask).2
  queued u hu hDue := by
    rcases openSince_concat.mp hDue with hNow | ⟨hBefore, hOther⟩
    · simp at hNow
    · have hIn := h.queued u hu hBefore
      rw [hQueue] at hIn
      exact (List.mem_cons.mp hIn).resolve_left fun hut => hOther (by rw [hut])

theorem Inv.returnReady {r : Run} (h : Inv r) {t : TaskId} (hPoll : r.polling = some t) :
    Inv ⟨r.executor.finish t, none, r.history ++ [.ready t]⟩ where
  known u := by
    by_cases hu : u = t
    · simp [Executor.finish, hu]
    · simp [Executor.finish, hu, h.known u]
  born u hu := by
    by_cases hut : u = t
    · simp [hut, ((h.known t).mp (h.polled t hPoll)).1]
    · simpa using h.born u (by simpa [hut] using hu)
  polled u hu := nomatch hu
  cache := Finset.erase_subset_erase t h.cache
  finished u := neverBefore_concat (h.finished u) (fun hEq => nomatch hEq)
  queued u hu hDue := by
    rcases openSince_concat.mp hDue with hNow | ⟨hBefore, -⟩
    · simp at hNow
    · exact h.queued u (Finset.mem_of_mem_erase hu) hBefore

theorem Inv.step {r r' : Run} {ev : Event} (h : Inv r) (hMove : Moves r ev r') : Inv r' := by
  cases hMove with
  | spawn t _ hNew _ => exact h.spawn hNew
  | wake t => exact h.wake t
  | idle => exact h
  | stale t rest _ hQueue hGone => exact h.stale hQueue hGone
  | poll t rest _ hQueue hTask => exact h.poll hQueue hTask
  | returnReady t hPoll => exact h.returnReady hPoll
  | returnPending t hPoll =>
    exact ⟨h.known, h.born, fun _ hu => (nomatch hu), h.cache, h.finished, h.queued⟩

/-- **Every run of the executor.** No task is polled after it returned `Ready`; outside
polls every cached waker belongs to a task; a spawned task that has not returned
`Ready` is in `tasks`; and a task spawned or woken since its last poll began is in
the queue: no wake-up is lost. -/
theorem executor_history {events : List Event} {r : Run}
    (hRun : run Run.step Run.start events = some r) :
    (∀ t, NeverBefore (.ready t) (.polled t) r.history) ∧
    (r.polling = none → r.executor.wakerCache ⊆ r.executor.tasks) ∧
    (∀ t, .spawned t ∈ r.history → .ready t ∉ r.history → t ∈ r.executor.tasks) ∧
    (∀ t ∈ r.executor.tasks, Due t r.history → t ∈ r.executor.taskQueue) := by
  have h : Inv r := run_invariant Run.step (fun _ _ _ hInv hStep => hInv.step (moves_of_step hStep))
    inv_start hRun
  exact ⟨h.finished, fun _ => h.cache, fun t hSpawned hNot => (h.known t).mpr ⟨hSpawned, hNot⟩,
    h.queued⟩

/-- A task that woke itself while it was polled, was woken again, and finished: one
stale id stays behind. -/
def selfWaking : Run :=
  ⟨⟨∅, [7], ∅⟩, none, [.spawned 7, .polled 7, .woken 7, .polled 7, .woken 7, .ready 7]⟩

theorem executor_history_selfWaking :
    run Run.step Run.start [.spawn 7, .pop, .wake 7, .returnPending, .pop, .wake 7, .returnReady] =
      some selfWaking ∧
    ∀ t, NeverBefore (.ready t) (.polled t) selfWaking.history := by
  have hRun : run Run.step Run.start
      [.spawn 7, .pop, .wake 7, .returnPending, .pop, .wake 7, .returnReady] =
      some selfWaking := by
    decide
  exact ⟨hRun, (executor_history hRun).1⟩

-- ---------------------------------------------------------------------------
-- The executor inside the system
-- ---------------------------------------------------------------------------

end Neutrix.Task

namespace Neutrix.Executor

open Neutrix.Lib

variable {α : Type*}

/-- The task a program counter is in the poll of. -/
def Cpu.task : Cpu α → Option TaskId
  | .body t => some t
  | .atRegister _ t => some t
  | .atSecondPop _ t => some t
  | .atTake _ t _ => some t
  | .pending t => some t
  | _ => none

/-- `r` is the executor of `s`; ids come from the counter. -/
structure Projects (s : System α) (r : Task.Run) : Prop where
  executor : r.executor = ⟨s.tasks, s.taskQueue, s.wakerCache⟩
  polling  : r.polling = s.cpu.task
  ids      : ∀ t, .spawned t ∈ r.history → t < s.nextId

/-- The executor of `s'` is reached from `r`. -/
def Follows (r : Task.Run) (s' : System α) : Prop :=
  ∃ es r', run Task.Run.step r es = some r' ∧ Projects s' r'

/-- A step that keeps the executor and the polled task. -/
theorem Projects.keep {s s' : System α} {r : Task.Run} (h : Projects s r)
    (hTasks : s'.tasks = s.tasks) (hQueue : s'.taskQueue = s.taskQueue)
    (hCache : s'.wakerCache = s.wakerCache) (hId : s'.nextId = s.nextId)
    (hCpu : s'.cpu.task = s.cpu.task) : Follows r s' :=
  ⟨[], r, rfl, by rw [h.executor, hTasks, hQueue, hCache], by rw [h.polling, hCpu], hId ▸ h.ids⟩

/-- A step that is one step of the executor. -/
theorem Projects.follow {s' : System α} {r : Task.Run} (e : Task.Event) (r' : Task.Run)
    (hStep : r.step e = some r') (h : Projects s' r') : Follows r s' :=
  ⟨[e], r', by rw [run_singleton, hStep], h⟩

theorem resume_task (s : System α) : s.resume.cpu.task = s.cpu.task := by
  unfold System.resume
  cases h : s.cpu <;> simp [Cpu.task, h]

theorem Follows.resume {r : Task.Run} {s : System α} (h : Follows r s) : Follows r s.resume := by
  obtain ⟨es, r', hRun, hProj⟩ := h
  obtain ⟨c, hc⟩ := resume_eq s
  refine ⟨es, r', hRun, ?_, by rw [hProj.polling, resume_task], ?_⟩
  · rw [hc]
    exact hProj.executor
  · rw [hc]
    exact hProj.ids

theorem Projects.irq {s s' : System α} {r : Task.Run} {d : Dev} {x : α} (h : Projects s r)
    (hEff : System.IrqEffect s d x s') (hOk : ¬ s'.cpu.panics) : Follows r s' := by
  cases hEff with
  | ignored => exact h.keep rfl rfl rfl rfl rfl
  | quiet => exact h.keep rfl rfl rfl rfl rfl
  | woke q t hq hw hRoom =>
    refine Projects.follow (.wake t) (⟨⟨s.tasks, s.taskQueue ++ [t], s.wakerCache⟩,
      r.polling, r.history ++ [.woken t]⟩) ?_ ⟨rfl, h.polling, ?_⟩
    · simp [Task.Run.step, Task.Executor.wakeTask, Task.Executor.push, h.executor, hRoom]
    · exact fun u hu => h.ids u (by simpa using hu)
  | overflow => exact absurd trivial hOk

theorem Projects.popTask {s : System α} {r : Task.Run} (h : Projects s r) (hCpu : s.cpu = .ready) :
    Follows r s.popTask := by
  have hIdle : r.polling = none := by rw [h.polling, hCpu]; rfl
  rcases hQueue : s.taskQueue with _ | ⟨t, rest⟩
  · have hEq : s.popTask = { s with cpu := .toSleep } := by simp only [System.popTask, hQueue]
    rw [hEq]
    exact h.keep rfl rfl rfl rfl (by rw [hCpu]; rfl)
  by_cases hTask : t ∈ s.tasks
  · have hEq : s.popTask = { s with
        taskQueue := rest, wakerCache := (insert t s.wakerCache), cpu := .body t } := by
      simp [System.popTask, hQueue, hTask]
    rw [hEq]
    refine Projects.follow .pop (⟨⟨s.tasks, rest, insert t s.wakerCache⟩, some t,
      r.history ++ [.polled t]⟩) ?_ ⟨rfl, rfl, by simpa using h.ids⟩
    simp [Task.Run.step, hIdle, Task.Executor.popTask, h.executor, hQueue, hTask]
  · have hEq : s.popTask = { s with taskQueue := rest, cpu := .ready } := by
      simp [System.popTask, hQueue, hTask]
    rw [hEq]
    refine Projects.follow .pop (⟨⟨s.tasks, rest, s.wakerCache⟩, none, r.history⟩) ?_
      ⟨rfl, rfl, h.ids⟩
    simp [Task.Run.step, hIdle, Task.Executor.popTask, h.executor, hQueue, hTask]

theorem Projects.spawn {s : System α} {r : Task.Run} (h : Projects s r) (hCpu : s.cpu = .setup)
    (hOk : ¬ s.spawn.cpu.panics) : Follows r s.spawn := by
  have hIdle : r.polling = none := by rw [h.polling, hCpu]; rfl
  have hNew : Task.Occurrence.spawned s.nextId ∉ r.history := fun hIn =>
    Nat.lt_irrefl _ (h.ids _ hIn)
  have hEq := System.spawn_of_ok hOk
  have hGuards : s.nextId ∉ s.tasks ∧ s.taskQueue.length < queueCapacity := by
    by_contra hNot
    apply hOk
    unfold System.spawn System.pushTask
    by_cases hSame : s.nextId ∈ s.tasks
    · simp [hSame, System.panic, Cpu.panics]
    · have hFull : ¬ s.taskQueue.length < queueCapacity := fun hRoom => hNot ⟨hSame, hRoom⟩
      simp [hSame, hFull, System.panic, Cpu.panics]
  rw [hEq]
  refine Projects.follow (.spawn s.nextId) (⟨⟨insert s.nextId s.tasks,
    s.taskQueue ++ [s.nextId], s.wakerCache⟩, none, r.history ++ [.spawned s.nextId]⟩) ?_
    ⟨rfl, by simp [hCpu, Cpu.task], fun t ht => ?_⟩
  · simp [Task.Run.step, hIdle, hNew, Task.Executor.spawn, Task.Executor.push, h.executor, hGuards]
  · rcases List.mem_append.mp ht with hOld | hLast
    · exact Nat.lt_succ_of_lt (h.ids t hOld)
    · cases List.mem_singleton.mp hLast
      exact Nat.lt_succ_self _

/-- **A step of the system moves its executor by steps of the executor.** -/
theorem Projects.step {s s' : System α} {r : Task.Run} {e : Event α} (h : Projects s r)
    (hMove : Moves s e s') (hOk : ¬ s'.cpu.panics) : Follows r s' := by
  cases hMove with
  | spawn hCpu => exact h.spawn hCpu hOk
  | run hCpu => exact h.keep rfl rfl rfl rfl (by rw [hCpu]; rfl)
  | pop hCpu => exact h.popTask hCpu
  | initQueue d =>
    unfold System.initQueue
    split <;> exact h.keep rfl rfl rfl rfl rfl
  | pollNext d t hCpu =>
    unfold System.firstPop at hOk ⊢
    split at hOk
    · exact absurd trivial hOk
    · exact h.keep rfl rfl rfl rfl (by rw [hCpu]; rfl)
    · exact h.keep rfl rfl rfl rfl (by rw [hCpu])
  | register d t hCpu => exact h.keep rfl rfl rfl rfl (by rw [hCpu]; rfl)
  | secondPop d t hCpu =>
    unfold System.secondPop
    split <;> exact h.keep rfl rfl rfl rfl (by rw [hCpu]; rfl)
  | take d t x hCpu => exact h.keep rfl rfl rfl rfl (by rw [hCpu]; rfl)
  | returnPending t hCpu =>
    refine Projects.follow .returnPending (⟨r.executor, none, r.history⟩) ?_
      ⟨h.executor, rfl, h.ids⟩
    simp [Task.Run.step, h.polling, hCpu, Cpu.task]
  | returnReady t hCpu =>
    refine Projects.follow .returnReady (⟨r.executor.finish t, none,
      r.history ++ [.ready t]⟩) ?_ ⟨?_, rfl, fun u hu => h.ids u (by simpa using hu)⟩
    · simp [Task.Run.step, h.polling, hCpu, Cpu.task]
    · simp [Task.Executor.finish, h.executor, System.returnReady]
  | disable hCpu => exact h.keep rfl rfl rfl rfl (by rw [hCpu]; rfl)
  | halt hCpu => exact h.keep rfl rfl rfl rfl (by rw [hCpu]; rfl)
  | goOn hCpu => exact h.keep rfl rfl rfl rfl (by rw [hCpu]; rfl)
  | irq d x hInt =>
    have hEff := System.irqHandler_effect s d x
    have hOk' : ¬ (s.irqHandler d x).cpu.panics := fun hp => hOk (panics_resume hp)
    exact (h.irq hEff hOk').resume
  | otherIrq hInt => exact (h.keep rfl rfl rfl rfl rfl).resume

/-- Every run of the system that has not panicked runs its executor as `Task.Run` does. -/
theorem system_runs_executor {ops : List (Event α)} {s : System α}
    (hRun : run System.step System.boot ops = some s) (hOk : ¬ s.cpu.panics) :
    Follows Task.Run.start s := by
  refine run_invariant System.step (P := fun s => ¬ s.cpu.panics → Follows Task.Run.start s)
    (fun s e s' hs hStep hOk' => ?_) (fun _ => ?_) hRun hOk
  · have hMove := moves_of_step hStep
    obtain ⟨es, r, hEs, hProj⟩ := hs (not_panics_of_step hMove)
    obtain ⟨es', r', hEs', hProj'⟩ := hProj.step hMove hOk'
    exact ⟨es ++ es', r', by rw [run_append_eq, hEs, Option.bind_some, hEs'], hProj'⟩
  · exact ⟨[], Task.Run.start, rfl, rfl, rfl, by simp [Task.Run.start]⟩

end Neutrix.Executor
