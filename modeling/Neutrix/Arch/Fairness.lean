import Neutrix.Arch.TaskHistory

/-!
# Neutrix — the executor serves in turn

The ready queue of `src/arch/task.rs` is the only thing that decides which
task is polled next. Spawns and wake-ups join it at the back, `pop` takes
the front, and nothing else moves an entry. So an entry with `n` entries
ahead of it is popped by the `n + 1`-st pop from now, and until then only
entries that were already ahead of it are polled: a task that wakes itself
during every poll, or an interrupt that wakes another task again and again,
cannot keep it waiting. The queue holds 100 entries, so at most 99 polls
come first (`served_in_turn`).

An entry whose task is done by then is dropped without a poll. Both happen:
a task may be queued twice, and finish at the first of its two polls.
-/

namespace Neutrix.Task

open Neutrix.Lib
open Neutrix.Executor (TaskId queueCapacity)

-- ---------------------------------------------------------------------------
-- Polls
-- ---------------------------------------------------------------------------

/-- The task whose poll an occurrence begins. -/
def Occurrence.poll : Occurrence → Option TaskId
  | .polled t => some t
  | _ => none

/-- The polled tasks, in the order of their polls. -/
def polls (history : List Occurrence) : List TaskId := history.filterMap Occurrence.poll

theorem polls_append (history more : List Occurrence) :
    polls (history ++ more) = polls history ++ polls more :=
  List.filterMap_append

-- ---------------------------------------------------------------------------
-- The queue over one step
-- ---------------------------------------------------------------------------

/-- A step that is no pop keeps the entries in their places, and polls nobody. -/
theorem Moves.keeps_turns {r r' : Run} {ev : Event} (h : Moves r ev r') (hPop : ev ≠ .pop) :
    r.executor.taskQueue <+: r'.executor.taskQueue ∧ polls r'.history = polls r.history := by
  cases h with
  | spawn t => exact ⟨List.prefix_append _ _, by simp [polls, Occurrence.poll]⟩
  | wake t => exact ⟨List.prefix_append _ _, by simp [polls, Occurrence.poll]⟩
  | idle => exact absurd rfl hPop
  | stale => exact absurd rfl hPop
  | poll => exact absurd rfl hPop
  | returnReady t => exact ⟨List.prefix_rfl, by simp [polls, Occurrence.poll]⟩
  | returnPending t => exact ⟨List.prefix_rfl, rfl⟩

/-- A pop takes the front entry, and polls its task if there is one. -/
theorem Moves.takes_front {r r' : Run} (h : Moves r .pop r') {t : TaskId} {rest : List TaskId}
    (hFront : r.executor.taskQueue = t :: rest) :
    r'.executor.taskQueue = rest ∧
      polls r'.history = polls r.history ++ (if t ∈ r.executor.tasks then [t] else []) := by
  cases h with
  | idle _ hQueue =>
    rw [hQueue] at hFront
    cases hFront
  | stale u rest' _ hQueue hGone =>
    rw [hQueue] at hFront
    cases hFront
    exact ⟨rfl, by rw [if_neg hGone, List.append_nil]⟩
  | poll u rest' _ hQueue hTask =>
    rw [hQueue] at hFront
    cases hFront
    exact ⟨rfl, by rw [if_pos hTask, polls_append]; rfl⟩

theorem Moves.keeps_history {r r' : Run} {ev : Event} (h : Moves r ev r') :
    r.history <+: r'.history := by
  cases h <;> first | exact List.prefix_append _ _ | exact List.prefix_rfl

theorem push_length {e e' : Executor} {t : TaskId} (h : e.push t = some e') :
    e'.taskQueue.length ≤ queueCapacity := by
  rw [Executor.push, Option.ite_none_right_eq_some] at h
  obtain ⟨hRoom, hEq⟩ := h
  cases hEq
  rw [List.length_append, List.length_singleton]
  exact hRoom

/-- No step overfills the queue. -/
theorem step_length {r r' : Run} {ev : Event} (h : r.step ev = some r')
    (hLen : r.executor.taskQueue.length ≤ queueCapacity) :
    r'.executor.taskQueue.length ≤ queueCapacity := by
  cases ev with
  | spawn t =>
    simp only [Run.step, Option.ite_none_right_eq_some, Option.map_eq_some_iff] at h
    obtain ⟨-, e, hSpawn, rfl⟩ := h
    rw [Executor.spawn, Option.ite_none_left_eq_some] at hSpawn
    exact push_length hSpawn.2
  | wake t =>
    simp only [Run.step, Option.map_eq_some_iff] at h
    obtain ⟨e, hWake, rfl⟩ := h
    exact push_length hWake
  | pop =>
    cases moves_of_step h with
    | idle => exact hLen
    | stale t rest _ hQueue =>
      rw [hQueue] at hLen
      exact (Nat.le_succ _).trans hLen
    | poll t rest _ hQueue =>
      rw [hQueue] at hLen
      exact (Nat.le_succ _).trans hLen
  | returnReady =>
    cases moves_of_step h with
    | returnReady => exact hLen
  | returnPending =>
    cases moves_of_step h with
    | returnPending => exact hLen

-- ---------------------------------------------------------------------------
-- The queue over a run
-- ---------------------------------------------------------------------------

theorem run_keeps_history {events : List Event} {r r' : Run}
    (h : run Run.step r events = some r') : r.history <+: r'.history :=
  run_invariant Run.step (P := fun s => r.history <+: s.history)
    (fun _ _ _ hs hStep => hs.trans (moves_of_step hStep).keeps_history) List.prefix_rfl h

/-- The pop that takes a given entry: the run up to it pops the entries ahead, polls
some of them and nobody else, and leaves the entry at the front. -/
theorem run_reaches_turn {t : TaskId} : ∀ {later : List Event} {r r' : Run}
    {ahead behind : List TaskId}, run Run.step r later = some r' →
    r.executor.taskQueue = ahead ++ t :: behind → ahead.length < later.count .pop →
    ∃ upto rest turn behind', later = upto ++ .pop :: rest ∧
      run Run.step r upto = some turn ∧ upto.count .pop = ahead.length ∧
      (∃ served, served.Sublist ahead ∧ polls turn.history = polls r.history ++ served) ∧
      turn.executor.taskQueue = t :: behind' ∧ ∃ next, turn.step .pop = some next := by
  intro later
  -- along the events: a pop moves the entry one place on, any other event leaves it
  induction later with
  | nil =>
    intro r r' ahead behind _ _ hPops
    exact absurd hPops (Nat.not_lt_zero _)
  | cons ev later ih =>
    intro r r' ahead behind hRun hQueue hPops
    obtain ⟨s, hStep, hRest⟩ := (run_cons Run.step).mp hRun
    have hMove := moves_of_step hStep
    by_cases hPop : ev = .pop
    · subst hPop
      cases ahead with
      | nil =>
        exact ⟨[], later, r, behind, rfl, rfl, rfl, ⟨[], List.Sublist.refl _, by simp⟩, hQueue,
          s, hStep⟩
      | cons a ahead =>
        obtain ⟨hTail, hPolls⟩ := hMove.takes_front hQueue
        rw [List.count_cons_self, List.length_cons, Nat.succ_lt_succ_iff] at hPops
        obtain ⟨upto, rest, turn, behind', rfl, hUpto, hCount, ⟨served, hSub, hServed⟩, hTurn⟩ :=
          ih hRest hTail hPops
        refine ⟨.pop :: upto, rest, turn, behind', rfl, ?_, ?_, ?_, hTurn⟩
        · exact (run_cons Run.step).mpr ⟨s, hStep, hUpto⟩
        · rw [List.count_cons_self, hCount, List.length_cons]
        · refine ⟨(if a ∈ r.executor.tasks then [a] else []) ++ served, ?_, ?_⟩
          · split
            · exact hSub.cons_cons a
            · exact hSub.cons a
          · rw [hServed, hPolls, List.append_assoc]
    · obtain ⟨⟨new, hNew⟩, hPolls⟩ := hMove.keeps_turns hPop
      have hQueue' : s.executor.taskQueue = ahead ++ t :: (behind ++ new) := by
        rw [← hNew, hQueue, List.append_assoc, List.cons_append]
      rw [List.count_cons_of_ne hPop] at hPops
      obtain ⟨upto, rest, turn, behind', rfl, hUpto, hCount, hServed, hTurn⟩ :=
        ih hRest hQueue' hPops
      refine ⟨ev :: upto, rest, turn, behind', rfl, ?_, ?_, ?_, hTurn⟩
      · exact (run_cons Run.step).mpr ⟨s, hStep, hUpto⟩
      · rw [List.count_cons_of_ne hPop, hCount]
      · rwa [hPolls] at hServed

/-- **First come, first served.** In a reachable executor, let a task's id be queued
behind the entries `ahead`, and let the run go on with at least one more pop than
there are such entries. At most 99 entries are ahead. The pop after them takes the
id; every task polled before that, since now, was ahead in the queue, once for each
of its entries there and in their order. If the task has not returned `Ready` by
then, that pop begins its poll; if it has, the id is dropped. -/
theorem served_in_turn {events later : List Event} {r r' : Run} {t : TaskId}
    {ahead behind : List TaskId}
    (hRun : run Run.step Run.start events = some r) (hTask : t ∈ r.executor.tasks)
    (hQueue : r.executor.taskQueue = ahead ++ t :: behind)
    (hLater : run Run.step r later = some r') (hPops : ahead.length < later.count .pop) :
    ahead.length ≤ 99 ∧
    ∃ upto rest turn next, later = upto ++ .pop :: rest ∧
      run Run.step r upto = some turn ∧ turn.step .pop = some next ∧
      upto.count .pop = ahead.length ∧
      (∃ served, served.Sublist ahead ∧ polls turn.history = polls r.history ++ served) ∧
      next.executor.taskQueue = turn.executor.taskQueue.tail ∧
      (.ready t ∉ turn.history →
        next.polling = some t ∧ polls next.history = polls turn.history ++ [t]) ∧
      (.ready t ∈ turn.history → next.polling = none ∧ next.history = turn.history) := by
  have hLen : r.executor.taskQueue.length ≤ queueCapacity :=
    run_invariant Run.step (P := fun s => s.executor.taskQueue.length ≤ queueCapacity)
      (fun _ _ _ hs hStep => step_length hStep hs) (Nat.zero_le _) hRun
  have hInv : Inv r :=
    run_invariant Run.step (fun _ _ _ hs hStep => hs.step (moves_of_step hStep)) inv_start hRun
  refine ⟨?_, ?_⟩
  · rw [hQueue, List.length_append, List.length_cons] at hLen
    unfold queueCapacity at hLen
    omega
  obtain ⟨upto, rest, turn, behind', hEq, hUpto, hCount, hServed, hFront, next, hNext⟩ :=
    run_reaches_turn hLater hQueue hPops
  -- at its turn the task is known exactly if it has not returned `Ready`
  have hTurn : Inv turn :=
    run_invariant Run.step (fun _ _ _ hs hStep => hs.step (moves_of_step hStep)) hInv hUpto
  have hSpawned : .spawned t ∈ turn.history :=
    (run_keeps_history hUpto).subset ((hInv.known t).mp hTask).1
  have hPops' := (moves_of_step hNext).takes_front hFront
  refine ⟨upto, rest, turn, next, hEq, hUpto, hNext, hCount, hServed, ?_, ?_, ?_⟩
  · rw [hPops'.1, hFront, List.tail_cons]
  · intro hNot
    have hKnown : t ∈ turn.executor.tasks := (hTurn.known t).mpr ⟨hSpawned, hNot⟩
    rw [if_pos hKnown] at hPops'
    refine ⟨?_, hPops'.2⟩
    cases moves_of_step hNext with
    | idle _ hNone => cases hFront.symm.trans hNone
    | stale u rest' _ hHead hGone =>
      cases hFront.symm.trans hHead
      exact absurd hKnown hGone
    | poll u rest' _ hHead _ =>
      cases hFront.symm.trans hHead
      rfl
  · intro hReady
    have hGone : t ∉ turn.executor.tasks := fun hKnown => ((hTurn.known t).mp hKnown).2 hReady
    cases moves_of_step hNext with
    | idle _ hNone => cases hFront.symm.trans hNone
    | stale => exact ⟨rfl, rfl⟩
    | poll u rest' _ hHead hKnown =>
      cases hFront.symm.trans hHead
      exact absurd hKnown hGone

/-- Tasks 0 and 1, both spawned. -/
def twoSpawned : Run := ⟨⟨{1, 0}, [0, 1], ∅⟩, none, [.spawned 0, .spawned 1]⟩

/-- Task 0 wakes itself at its poll: task 1 is next nevertheless. -/
theorem served_in_turn_twoSpawned :
    ∃ upto rest turn next,
      [.pop, .wake 0, .returnPending, .pop] = upto ++ .pop :: rest ∧
      run Run.step twoSpawned upto = some turn ∧
      turn.step .pop = some next ∧ upto.count .pop = 1 ∧
      (.ready 1 ∉ turn.history → next.polling = some 1) := by
  have hRun : run Run.step Run.start [.spawn 0, .spawn 1] = some twoSpawned := rfl
  have hQueue : twoSpawned.executor.taskQueue = [0] ++ 1 :: [] := rfl
  have hLater : run Run.step twoSpawned [.pop, .wake 0, .returnPending, .pop] =
      some ⟨⟨{1, 0}, [0], {1, 0}⟩, some 1,
        [.spawned 0, .spawned 1, .polled 0, .woken 0, .polled 1]⟩ := by decide
  obtain ⟨-, upto, rest, turn, next, hEq, hUpto, hNext, hCount, -, -, hPoll, -⟩ :=
    served_in_turn hRun (by decide) hQueue hLater (by decide)
  exact ⟨upto, rest, turn, next, hEq, hUpto, hNext, hCount, fun hNot => (hPoll hNot).1⟩

end Neutrix.Task
