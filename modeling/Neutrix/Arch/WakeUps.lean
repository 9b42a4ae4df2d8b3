import Neutrix.Arch.Executor

/-!
# Neutrix — no lost wake-ups, no lost items

For a stream with a single consumer task: whatever the interleaving of
interrupts with the steps of executor and task, an item in the queue of a
consumer that is not being polled has its task id in `task_queue`
(`no_lost_wakeup`). The argument is an invariant over queue, waker slot, run
queue and program counter (`WakeInv`): outside its own poll the consumer is
either registered or queued, and once it is between registration and the
second pop it is registered or queued as well, which is what makes the
failing second pop safe. Items come out in the order in which they went in
(`FifoInv`).
-/

namespace Neutrix.Executor

open Neutrix.Lib

variable {α : Type*}

-- ---------------------------------------------------------------------------
-- Program counters
-- ---------------------------------------------------------------------------

namespace Cpu

/-- In a `poll_next` of task `t` on stream `d`. -/
def streams : Cpu α → Dev → TaskId → Prop
  | .atRegister d t, d', t' => d = d' ∧ t = t'
  | .atSecondPop d t, d', t' => d = d' ∧ t = t'
  | .atTake d t _, d', t' => d = d' ∧ t = t'
  | _, _, _ => False

/-- Being polled, and not between registration and second pop. -/
def running : Cpu α → TaskId → Prop
  | .body t, t' => t = t'
  | .atRegister _ t, t' => t = t'
  | .atTake _ t _, t' => t = t'
  | _, _ => False

/-- Being polled, before `poll_next` has returned `Pending`. -/
def polling : Cpu α → TaskId → Prop
  | .body t, t' => t = t'
  | .atRegister _ t, t' => t = t'
  | .atSecondPop _ t, t' => t = t'
  | .atTake _ t _, t' => t = t'
  | _, _ => False

theorem polling_of_running {c : Cpu α} {t : TaskId} (h : c.running t) : c.polling t := by
  cases c <;> simp_all [running, polling]

end Cpu

/-- The items waiting in the queue. -/
def EventQueue.items (q : EventQueue α) : List α := q.queue.getD []

/-- The item that `poll_next` on `d` has popped and not yet returned. -/
def System.inflight (s : System α) (d : Dev) : List α :=
  match s.cpu with
  | .atTake d' _ x => if d' = d then [x] else []
  | _ => []

-- ---------------------------------------------------------------------------
-- Runs with a single consumer
-- ---------------------------------------------------------------------------

/-- Task `t` polls stream `d` and nothing else, and nobody else polls `d`. -/
def soleConsumer (d : Dev) (t : TaskId) (s : System α) : Event α → Bool
  | .pollNext d' =>
    match s.cpu with
    | .body t' => decide (t' = t ↔ d' = d)
    | _ => true
  | _ => true

/-- The steps of the system in which `t` is the single consumer of `d`. -/
def consumerStep (d : Dev) (t : TaskId) (s : System α) (e : Event α) : Option (System α) :=
  if soleConsumer d t s e then s.step e else none

structure WakeInv (d : Dev) (t : TaskId) (s : System α) : Prop where
  owner : ∀ d' t', s.cpu.streams d' t' → (t' = t ↔ d' = d)
  awake : t ∈ s.tasks → ¬ s.cpu.running t →
    (s.devices d).waker = some t ∨ t ∈ s.taskQueue
  woken : t ∈ s.tasks → ¬ s.cpu.polling t → (s.devices d).items ≠ [] → t ∈ s.taskQueue

/-- Steps that do not touch the stream and keep the consumer queued. -/
theorem WakeInv.frame {d : Dev} {t : TaskId} {s s' : System α} (h : WakeInv d t s)
    (hTasks : t ∈ s'.tasks → t ∈ s.tasks) (hQueue : t ∈ s.taskQueue → t ∈ s'.taskQueue)
    (hWaker : (s'.devices d).waker = (s.devices d).waker)
    (hItems : (s'.devices d).items = (s.devices d).items)
    (hOwner : ∀ d' t', s'.cpu.streams d' t' → (t' = t ↔ d' = d))
    (hRun : s.cpu.running t → s'.cpu.running t)
    (hPoll : s.cpu.polling t → s'.cpu.polling t) : WakeInv d t s' := by
  refine ⟨hOwner, fun hLive hNot => ?_, fun hLive hNot hSome => ?_⟩
  · rw [hWaker]
    exact (h.awake (hTasks hLive) fun hr => hNot (hRun hr)).imp_right hQueue
  · rw [hItems] at hSome
    exact hQueue (h.woken (hTasks hLive) (fun hp => hNot (hPoll hp)) hSome)

theorem resume_running (s : System α) (t : TaskId) :
    s.resume.cpu.running t ↔ s.cpu.running t := by
  unfold System.resume
  split <;> simp_all [Cpu.running]

theorem resume_polling (s : System α) (t : TaskId) :
    s.resume.cpu.polling t ↔ s.cpu.polling t := by
  unfold System.resume
  split <;> simp_all [Cpu.polling]

theorem resume_streams (s : System α) (d : Dev) (t : TaskId) :
    s.resume.cpu.streams d t ↔ s.cpu.streams d t := by
  unfold System.resume
  split <;> simp_all [Cpu.streams]

theorem panics_resume {s : System α} (h : s.cpu.panics) : s.resume.cpu.panics := by
  unfold System.resume
  split <;> simp_all [Cpu.panics]

theorem resume_not_halted (s : System α) : s.resume.cpu ≠ .halted := by
  unfold System.resume
  split
  · simp
  · assumption

/-- The end of an interrupt changes at most the program counter. -/
theorem resume_eq (s : System α) : ∃ c, s.resume = { s with cpu := c } := by
  unfold System.resume
  split
  · exact ⟨_, rfl⟩
  · exact ⟨s.cpu, rfl⟩

theorem WakeInv.resume {d : Dev} {t : TaskId} {s : System α} (h : WakeInv d t s) :
    WakeInv d t s.resume := by
  obtain ⟨c, hc⟩ := resume_eq s
  refine h.frame (by rw [hc]; exact id) (by rw [hc]; exact id) (by rw [hc]) (by rw [hc])
    (fun d' t' hs => h.owner d' t' ((resume_streams s d' t').mp hs))
    (resume_running s t).mpr (resume_polling s t).mpr

/-- An interrupt of the consumer's own device queues a registered consumer. -/
theorem WakeInv.irq {d d' : Dev} {t : TaskId} {s s' : System α} {x : α} (h : WakeInv d t s)
    (hEff : System.IrqEffect s d' x s') (hOk : ¬ s'.cpu.panics) : WakeInv d t s' := by
  -- an interrupt of another device leaves the stream alone
  by_cases hd : d = d'
  · subst hd
    cases hEff with
    | ignored => exact h
    | quiet q hq hw =>
      -- nobody registered: outside its poll the consumer is queued
      refine ⟨h.owner, fun hLive hNot => .inr ?_, fun hLive hNot _ => ?_⟩
      · exact (h.awake hLive hNot).resolve_left (by simp [hw])
      · exact (h.awake hLive fun hr => hNot (Cpu.polling_of_running hr)).resolve_left (by simp [hw])
    | woke q t' hq hw hRoom =>
      have hQueued : t ∈ s.tasks → ¬ s.cpu.running t → t ∈ s.taskQueue ++ [t'] := by
        intro hLive hNot
        rcases h.awake hLive hNot with hReg | hIn
        · rw [hw, Option.some.injEq] at hReg
          exact List.mem_append_right _ (List.mem_singleton.mpr hReg.symm)
        · exact List.mem_append_left _ hIn
      exact ⟨h.owner, fun hLive hNot => .inr (hQueued hLive hNot), fun hLive hNot _ =>
        hQueued hLive fun hr => hNot (Cpu.polling_of_running hr)⟩
    | overflow => exact absurd trivial hOk
  · cases hEff with
    | ignored => exact h
    | quiet => exact h.frame id id (by simp [hd]) (by simp [hd]) h.owner id id
    | woke => exact h.frame id (List.mem_append_left _) (by simp [hd]) (by simp [hd]) h.owner id id
    | overflow => exact absurd trivial hOk

/-- A spawned task starts out queued. -/
theorem WakeInv.spawn {d : Dev} {t : TaskId} {s : System α} (h : WakeInv d t s)
    (hOk : ¬ s.spawn.cpu.panics) : WakeInv d t s.spawn := by
  rw [System.spawn_of_ok hOk]
  by_cases ht : t = s.nextId
  · have hIn : t ∈ s.taskQueue ++ [s.nextId] := List.mem_append_right _ (List.mem_singleton.mpr ht)
    exact ⟨h.owner, fun _ _ => .inr hIn, fun _ _ _ => hIn⟩
  · exact h.frame (fun hLive => (Finset.mem_insert.mp hLive).resolve_left ht)
      (List.mem_append_left _) rfl rfl h.owner id id

/-- Popping another task keeps the consumer queued, popping the consumer starts
its poll. -/
theorem WakeInv.popTask {d : Dev} {t : TaskId} {s : System α} (h : WakeInv d t s)
    (hCpu : s.cpu = .ready) : WakeInv d t s.popTask := by
  have hNotRun : ¬ s.cpu.running t := by simp [hCpu, Cpu.running]
  have hNotPoll : ¬ s.cpu.polling t := by simp [hCpu, Cpu.polling]
  unfold System.popTask
  cases hQ : s.taskQueue with
  | nil =>
    have hNone : t ∉ s.taskQueue := by simp [hQ]
    exact h.frame id (absurd · hNone) rfl rfl (by simp [Cpu.streams]) (absurd · hNotRun)
      (absurd · hNotPoll)
  | cons t' rest =>
    by_cases ht : t' = t
    · subst ht
      by_cases hLive : t' ∈ s.tasks
      · simp only [hLive, if_true]
        exact ⟨by simp [Cpu.streams], fun _ hNot => absurd rfl hNot, fun _ hNot => absurd rfl hNot⟩
      · simp only [hLive, if_false]
        exact ⟨by simp [Cpu.streams], fun h => absurd h hLive, fun h => absurd h hLive⟩
    · have hRest : t ∈ s.taskQueue → t ∈ rest := by
        rw [hQ, List.mem_cons]
        exact fun hIn => hIn.resolve_left fun hEq => ht hEq.symm
      by_cases hLive : t' ∈ s.tasks
      · simp only [hLive, if_true]
        exact h.frame id hRest rfl rfl (by simp [Cpu.streams]) (absurd · hNotRun)
          (absurd · hNotPoll)
      · simp only [hLive, if_false]
        exact h.frame id hRest rfl rfl (by simp [Cpu.streams]) (absurd · hNotRun)
          (absurd · hNotPoll)

theorem initQueue_items (s : System α) (d d' : Dev) :
    ((s.initQueue d').devices d).items = (s.devices d).items ∧
    ((s.initQueue d').devices d).waker = (s.devices d).waker := by
  unfold System.initQueue
  cases hq : (s.devices d').queue with
  | none =>
    by_cases hd : d = d'
    · subst hd
      simp [EventQueue.items, hq]
    · simp [hd]
  | some q => exact ⟨rfl, rfl⟩

theorem initQueue_frame (s : System α) (d : Dev) :
    (s.initQueue d).tasks = s.tasks ∧ (s.initQueue d).taskQueue = s.taskQueue ∧
    (s.initQueue d).cpu = s.cpu := by
  unfold System.initQueue
  split <;> exact ⟨rfl, rfl, rfl⟩

/-- Inside its own `poll_next`, and for every other task elsewhere. -/
theorem WakeInv.poll {d d' : Dev} {t t' : TaskId} {s s' : System α} (h : WakeInv d t s)
    (hOwn : t' = t ↔ d' = d) (hTasks : s'.tasks = s.tasks) (hQueue : s'.taskQueue = s.taskQueue)
    (hDev : ∀ d₁, d₁ ≠ d' → s'.devices d₁ = s.devices d₁)
    (hStreams : ∀ d₁ t₁, s'.cpu.streams d₁ t₁ → d' = d₁ ∧ t' = t₁)
    (hRunBefore : s.cpu.running t → t' = t) (hPollBefore : s.cpu.polling t → t' = t)
    (hAfter : t' = t → s'.cpu.running t) : WakeInv d t s' := by
  have hOwner : ∀ d₁ t₁, s'.cpu.streams d₁ t₁ → (t₁ = t ↔ d₁ = d) := by
    intro d₁ t₁ hs
    obtain ⟨rfl, rfl⟩ := hStreams d₁ t₁ hs
    exact hOwn
  by_cases ht : t' = t
  · have hRun := hAfter ht
    exact ⟨hOwner, fun _ hNot => absurd hRun hNot,
      fun _ hNot => absurd (Cpu.polling_of_running hRun) hNot⟩
  · have hd : d ≠ d' := fun hEq => ht (hOwn.mpr hEq.symm)
    exact h.frame (by rw [hTasks]; exact id) (by rw [hQueue]; exact id) (by rw [hDev d hd])
      (by rw [hDev d hd]) hOwner (fun hr => absurd (hRunBefore hr) ht)
      (fun hp => absurd (hPollBefore hp) ht)

theorem WakeInv.firstPop {d d' : Dev} {t t' : TaskId} {s : System α} (h : WakeInv d t s)
    (hCpu : s.cpu = .body t') (hOwn : t' = t ↔ d' = d) (hOk : ¬ (s.firstPop d' t').cpu.panics) :
    WakeInv d t (s.firstPop d' t') := by
  have hRun : s.cpu.running t → t' = t := by simp [hCpu, Cpu.running]
  have hPoll : s.cpu.polling t → t' = t := by simp [hCpu, Cpu.polling]
  unfold System.firstPop at hOk ⊢
  split
  · rename_i hNone
    simp [hNone, System.panic, Cpu.panics] at hOk
  · exact h.poll hOwn rfl rfl (fun _ _ => rfl) (fun _ _ hs => hs) hRun hPoll id
  · exact h.poll hOwn rfl rfl (fun d₁ hd₁ => by simp [hd₁]) (fun _ _ hs => hs.elim) hRun hPoll id

theorem WakeInv.register {d d' : Dev} {t t' : TaskId} {s : System α} (h : WakeInv d t s)
    (hCpu : s.cpu = .atRegister d' t') : WakeInv d t (s.register d' t') := by
  have hOwn : t' = t ↔ d' = d := h.owner d' t' (by simp [hCpu, Cpu.streams])
  have hOwner : ∀ d₁ t₁, (s.register d' t').cpu.streams d₁ t₁ → (t₁ = t ↔ d₁ = d) := by
    rintro d₁ t₁ ⟨rfl, rfl⟩
    exact hOwn
  by_cases ht : t' = t
  · -- the consumer is registered, and still inside its poll
    have hd : d' = d := hOwn.mp ht
    subst ht hd
    exact ⟨hOwner, fun _ _ => .inl (by simp [System.register]), fun _ hNot => absurd rfl hNot⟩
  · have hd : d ≠ d' := fun hEq => ht (hOwn.mpr hEq.symm)
    refine h.frame id id (by simp [System.register, hd]) (by simp [System.register, hd]) hOwner
      (fun hr => ?_) (fun hp => ?_)
    · simp [hCpu, Cpu.running, ht] at hr
    · simp [hCpu, Cpu.polling, ht] at hp

/-- The second pop is where the wake-up could get lost: it fails only on an empty
queue, with the consumer registered or queued. -/
theorem WakeInv.secondPop {d d' : Dev} {t t' : TaskId} {s : System α} (h : WakeInv d t s)
    (hCpu : s.cpu = .atSecondPop d' t') : WakeInv d t (s.secondPop d' t') := by
  have hOwn : t' = t ↔ d' = d := h.owner d' t' (by simp [hCpu, Cpu.streams])
  have hPoll : s.cpu.polling t → t' = t := by simp [hCpu, Cpu.polling]
  unfold System.secondPop
  split
  · exact h.poll hOwn rfl rfl (fun d₁ hd₁ => by simp [hd₁]) (fun _ _ hs => hs)
      (by simp [hCpu, Cpu.running]) hPoll id
  · rename_i hEmpty
    by_cases ht : t' = t
    · have hd : d' = d := hOwn.mp ht
      subst ht hd
      have hItems : (s.devices d').items = [] := by
        cases hq : (s.devices d').queue with
        | none => simp [EventQueue.items, hq]
        | some q =>
          cases q with
          | nil => simp [EventQueue.items, hq]
          | cons x rest => exact absurd hq (hEmpty x rest)
      exact ⟨fun _ _ hs => hs.elim, fun hLive _ => h.awake hLive (by simp [hCpu, Cpu.running]),
        fun _ _ hSome => absurd hItems hSome⟩
    · exact h.frame id id rfl rfl (fun _ _ hs => hs.elim) (by simp [hCpu, Cpu.running])
        (fun hp => absurd (hPoll hp) ht)

theorem WakeInv.take {d d' : Dev} {t t' : TaskId} {s : System α} {x : α} (h : WakeInv d t s)
    (hCpu : s.cpu = .atTake d' t' x) : WakeInv d t (s.take d' t' x) :=
  h.poll (h.owner d' t' (by simp [hCpu, Cpu.streams])) rfl rfl
    (fun d₁ hd₁ => by simp [System.take, hd₁]) (fun _ _ hs => hs.elim)
    (by simp [hCpu, Cpu.running]) (by simp [hCpu, Cpu.polling]) id

theorem WakeInv.returnReady {d : Dev} {t t' : TaskId} {s : System α} (h : WakeInv d t s)
    (hCpu : s.cpu = .body t') : WakeInv d t (s.returnReady t') := by
  by_cases ht : t' = t
  · subst ht
    have hGone : t' ∉ (s.returnReady t').tasks := Finset.notMem_erase _ _
    exact ⟨fun _ _ hs => hs.elim, fun hLive => absurd hLive hGone, fun hLive => absurd hLive hGone⟩
  · refine h.frame (fun hLive => Finset.mem_of_mem_erase hLive) id rfl rfl (fun _ _ hs => hs.elim)
      (fun hr => ?_) (fun hp => ?_)
    · simp [hCpu, Cpu.running, ht] at hr
    · simp [hCpu, Cpu.polling, ht] at hp

/-- Steps that only move the program counter between places outside any poll. -/
theorem WakeInv.setCpu {d : Dev} {t : TaskId} {s : System α} (h : WakeInv d t s) {c : Cpu α}
    (hStreams : ∀ d' t', ¬ c.streams d' t') (hPoll : ¬ s.cpu.polling t) :
    WakeInv d t { s with cpu := c } :=
  h.frame id id rfl rfl (fun d' t' hs => absurd hs (hStreams d' t'))
    (fun hr => absurd (Cpu.polling_of_running hr) hPoll) (fun hp => absurd hp hPoll)

/-- **One step.** -/
theorem WakeInv.step {d : Dev} {t : TaskId} {s s' : System α} {e : Event α} (h : WakeInv d t s)
    (hMove : Moves s e s') (hSole : soleConsumer d t s e) (hOk : ¬ s'.cpu.panics) :
    WakeInv d t s' := by
  cases hMove with
  | spawn => exact h.spawn hOk
  | run hCpu => exact h.setCpu (fun _ _ hs => hs) (by simp [hCpu, Cpu.polling])
  | pop hCpu => exact h.popTask hCpu
  | initQueue d' =>
    obtain ⟨hTasks, hQueue, hCpu⟩ := initQueue_frame s d'
    refine h.frame (by rw [hTasks]; exact id) (by rw [hQueue]; exact id)
      (initQueue_items s d d').2 (initQueue_items s d d').1 ?_ ?_ ?_ <;> rw [hCpu]
    · exact h.owner
    · exact id
    · exact id
  | pollNext d' t' hCpu =>
    have hOwn : t' = t ↔ d' = d := by simpa [soleConsumer, hCpu] using hSole
    exact h.firstPop hCpu hOwn hOk
  | register d' t' hCpu => exact h.register hCpu
  | secondPop d' t' hCpu => exact h.secondPop hCpu
  | take d' t' x hCpu => exact h.take hCpu
  | returnPending t' hCpu => exact h.setCpu (fun _ _ hs => hs) (by simp [hCpu, Cpu.polling])
  | returnReady t' hCpu => exact h.returnReady hCpu
  | disable hCpu => exact h.setCpu (fun _ _ hs => hs) (by simp [hCpu, Cpu.polling])
  | halt hCpu => exact h.setCpu (fun _ _ hs => hs) (by simp [hCpu, Cpu.polling])
  | goOn hCpu => exact h.setCpu (fun _ _ hs => hs) (by simp [hCpu, Cpu.polling])
  | irq d' x =>
    exact (h.irq (s.irqHandler_effect d' x) fun hp => hOk (panics_resume hp)).resume
  | otherIrq => exact h.resume

-- ---------------------------------------------------------------------------
-- First in, first out
-- ---------------------------------------------------------------------------

/-- What went in is what came out, what is on its way out, and what is left. -/
def FifoInv (d : Dev) (s : System α) : Prop :=
  (s.devices d).pushed = (s.devices d).yielded ++ s.inflight d ++ (s.devices d).items

theorem inflight_of_not_take {s : System α} (d : Dev) (h : ∀ d' t x, s.cpu ≠ .atTake d' t x) :
    s.inflight d = [] := by
  unfold System.inflight
  split
  · exact absurd ‹_› (h _ _ _)
  · rfl

/-- Steps that leave the stream's items and histories alone. -/
theorem FifoInv.frame {d : Dev} {s s' : System α} (h : FifoInv d s)
    (hPushed : (s'.devices d).pushed = (s.devices d).pushed)
    (hYielded : (s'.devices d).yielded = (s.devices d).yielded)
    (hItems : (s'.devices d).items = (s.devices d).items)
    (hFlight : s'.inflight d = s.inflight d) : FifoInv d s' := by
  unfold FifoInv
  rw [hPushed, hYielded, hItems, hFlight]
  exact h

/-- Moving the program counter between places without an item in flight. -/
theorem FifoInv.setCpu {d : Dev} {s s' : System α} (h : FifoInv d s)
    (hDev : s'.devices d = s.devices d) (hBefore : ∀ d' t x, s.cpu ≠ .atTake d' t x)
    (hAfter : ∀ d' t x, s'.cpu ≠ .atTake d' t x) : FifoInv d s' :=
  h.frame (by rw [hDev]) (by rw [hDev]) (by rw [hDev])
    (by rw [inflight_of_not_take d hBefore, inflight_of_not_take d hAfter])

theorem FifoInv.irq {d d' : Dev} {s s' : System α} {x : α} (h : FifoInv d s)
    (hEff : System.IrqEffect s d' x s') (hOk : ¬ s'.cpu.panics) : FifoInv d s' := by
  have hFed : ∀ q, (s.devices d).queue = some q →
      (s.fed d q x).pushed = (s.fed d q x).yielded ++ s.inflight d ++ (s.fed d q x).items := by
    intro q hq
    have hOld : (s.devices d).pushed = (s.devices d).yielded ++ s.inflight d ++ q := by
      have := h
      rw [FifoInv, EventQueue.items, hq] at this
      exact this
    unfold System.fed
    split_ifs
    · simp [EventQueue.items, hOld]
    · simp [EventQueue.items, hOld]
  by_cases hd : d = d'
  · subst hd
    cases hEff with
    | ignored => exact h
    | quiet q hq =>
      have := hFed q hq
      simpa [FifoInv, System.inflight] using this
    | woke q t hq =>
      have := hFed q hq
      simpa [FifoInv, System.inflight] using this
    | overflow => exact absurd trivial hOk
  · cases hEff with
    | ignored => exact h
    | quiet => exact h.frame (by simp [hd]) (by simp [hd]) (by simp [hd]) rfl
    | woke => exact h.frame (by simp [hd]) (by simp [hd]) (by simp [hd]) rfl
    | overflow => exact absurd trivial hOk

theorem FifoInv.resume {d : Dev} {s : System α} (h : FifoInv d s) : FifoInv d s.resume := by
  obtain ⟨c, hc⟩ := resume_eq s
  refine h.frame (by rw [hc]) (by rw [hc]) (by rw [hc]) ?_
  unfold System.resume
  split
  · rename_i hCpu
    simp [System.inflight, hCpu]
  · rfl

theorem FifoInv.firstPop {d d' : Dev} {t : TaskId} {s : System α} (h : FifoInv d s)
    (hCpu : s.cpu = .body t) : FifoInv d (s.firstPop d' t) := by
  have hBefore : ∀ d' t x, s.cpu ≠ .atTake d' t x := by simp [hCpu]
  unfold System.firstPop
  split
  · exact h.setCpu rfl hBefore (by simp [System.panic])
  · exact h.setCpu rfl hBefore (by simp)
  · rename_i x rest hq
    by_cases hd : d = d'
    · subst hd
      have hOld := h
      rw [FifoInv, inflight_of_not_take d hBefore, EventQueue.items, hq] at hOld
      simp [FifoInv, System.inflight, EventQueue.items, hOld]
    · exact h.setCpu (by simp [hd]) hBefore (by simp)

theorem FifoInv.secondPop {d d' : Dev} {t : TaskId} {s : System α} (h : FifoInv d s)
    (hCpu : s.cpu = .atSecondPop d' t) : FifoInv d (s.secondPop d' t) := by
  have hBefore : ∀ d' t x, s.cpu ≠ .atTake d' t x := by simp [hCpu]
  unfold System.secondPop
  split
  · rename_i x rest hq
    by_cases hd : d = d'
    · -- the popped item is in flight
      subst hd
      have hOld := h
      rw [FifoInv, inflight_of_not_take d hBefore, EventQueue.items, hq] at hOld
      simp [FifoInv, System.inflight, EventQueue.items, hOld]
    · refine h.frame (by simp [hd]) (by simp [hd]) (by simp [hd]) ?_
      rw [inflight_of_not_take d hBefore]
      simp [System.inflight, Ne.symm hd]
  · exact h.setCpu rfl hBefore (by simp)

theorem FifoInv.take {d d' : Dev} {t : TaskId} {s : System α} {x : α} (h : FifoInv d s)
    (hCpu : s.cpu = .atTake d' t x) : FifoInv d (s.take d' t x) := by
  by_cases hd : d = d'
  · subst hd
    have hOld := h
    simp only [FifoInv, System.inflight, hCpu, if_true, EventQueue.items] at hOld
    simp [FifoInv, System.inflight, System.take, EventQueue.items, hOld]
  · refine h.frame (by simp [System.take, hd]) (by simp [System.take, hd])
      (by simp [System.take, hd]) ?_
    simp [System.inflight, System.take, hCpu, Ne.symm hd]

theorem FifoInv.step {d : Dev} {s s' : System α} {e : Event α} (h : FifoInv d s)
    (hMove : Moves s e s') (hOk : ¬ s'.cpu.panics) : FifoInv d s' := by
  cases hMove with
  | spawn hCpu =>
    rw [System.spawn_of_ok hOk]
    exact h.setCpu rfl (by simp [hCpu]) (by simp [hCpu])
  | run hCpu => exact h.setCpu rfl (by simp [hCpu]) (by simp)
  | pop hCpu =>
    unfold System.popTask
    split
    · exact h.setCpu rfl (by simp [hCpu]) (by simp)
    · dsimp only
      split_ifs
      · exact h.setCpu rfl (by simp [hCpu]) (by simp)
      · exact h.setCpu rfl (by simp [hCpu]) (by simp)
  | initQueue d' hCpu =>
    have hHist : ((s.initQueue d').devices d).pushed = (s.devices d).pushed ∧
        ((s.initQueue d').devices d).yielded = (s.devices d).yielded := by
      unfold System.initQueue
      split
      · by_cases hd : d = d'
        · subst hd
          simp
        · simp [hd]
      · exact ⟨rfl, rfl⟩
    refine h.frame hHist.1 hHist.2 (initQueue_items s d d').1 ?_
    rw [System.inflight, (initQueue_frame s d').2.2]
    rfl
  | pollNext d' t hCpu => exact h.firstPop hCpu
  | register d' t hCpu =>
    refine h.frame ?_ ?_ ?_ ?_
    · by_cases hd : d = d' <;> simp [System.register, hd]
    · by_cases hd : d = d' <;> simp [System.register, hd]
    · by_cases hd : d = d' <;> simp [System.register, hd, EventQueue.items]
    · simp [System.inflight, System.register, hCpu]
  | secondPop d' t hCpu => exact h.secondPop hCpu
  | take d' t x hCpu => exact h.take hCpu
  | returnPending t hCpu => exact h.setCpu rfl (by simp [hCpu]) (by simp)
  | returnReady t hCpu => exact h.setCpu rfl (by simp [hCpu]) (by simp [System.returnReady])
  | disable hCpu => exact h.setCpu rfl (by simp [hCpu]) (by simp)
  | halt hCpu => exact h.setCpu rfl (by simp [hCpu]) (by simp)
  | goOn hCpu => exact h.setCpu rfl (by simp [hCpu]) (by simp)
  | irq d' x =>
    exact (h.irq (s.irqHandler_effect d' x) fun hp => hOk (panics_resume hp)).resume
  | otherIrq => exact h.resume

-- ---------------------------------------------------------------------------
-- Runs
-- ---------------------------------------------------------------------------

/-- `hlt` is entered with nothing to do, and left with the first interrupt. -/
def HaltInv (s : System α) : Prop := s.cpu = .halted → s.taskQueue = []

theorem HaltInv.step {s s' : System α} {e : Event α} (hMove : Moves s e s')
    (hOk : ¬ s'.cpu.panics) : HaltInv s' := by
  intro hHalted
  cases hMove with
  | spawn hCpu =>
    rw [System.spawn_of_ok hOk] at hHalted
    simp [hCpu] at hHalted
  | pop =>
    unfold System.popTask at hHalted
    split at hHalted
    · simp at hHalted
    · dsimp only at hHalted
      split_ifs at hHalted
  | initQueue d hCpu =>
    rw [(initQueue_frame s d).2.2] at hHalted
    rcases hCpu with hCpu | ⟨t, hCpu⟩ <;> simp [hCpu] at hHalted
  | pollNext d t =>
    unfold System.firstPop at hHalted
    split at hHalted <;> simp [System.panic] at hHalted
  | secondPop d t =>
    unfold System.secondPop at hHalted
    split at hHalted <;> simp at hHalted
  | halt _ hEmpty => exact hEmpty
  | irq => exact absurd hHalted (resume_not_halted _)
  | otherIrq => exact absurd hHalted (resume_not_halted _)
  | _ => simp [System.register, System.take, System.returnReady] at hHalted

/-- What holds of the single consumer `t` of `d` in every state of a run. -/
structure ConsumerInv (d : Dev) (t : TaskId) (s : System α) : Prop where
  wake : WakeInv d t s
  fifo : FifoInv d s
  halt : HaltInv s

theorem consumerInv_boot (d : Dev) (t : TaskId) : ConsumerInv d t (System.boot : System α) where
  wake := ⟨fun _ _ hs => hs.elim, fun hLive => absurd hLive (Finset.notMem_empty _),
    fun hLive => absurd hLive (Finset.notMem_empty _)⟩
  fifo := rfl
  halt := fun h => by simp [System.boot] at h

theorem not_panics_of_step {s s' : System α} {e : Event α} (hMove : Moves s e s') :
    ¬ s.cpu.panics := by
  intro hp
  cases hc : s.cpu with
  | panicked why => cases hMove <;> simp_all [Cpu.interruptible]
  | _ => simp [hc, Cpu.panics] at hp

theorem consumerInv_run {d : Dev} {t : TaskId} {s : System α} {ops : List (Event α)}
    (hRun : Lib.run (consumerStep d t) System.boot ops = some s) :
    ¬ s.cpu.panics → ConsumerInv d t s := by
  refine run_invariant (consumerStep d t) (P := fun s => ¬ s.cpu.panics → ConsumerInv d t s)
    (fun s e s' hs hStep => ?_) (fun _ => consumerInv_boot d t) hRun
  unfold consumerStep at hStep
  split_ifs at hStep with hSole
  have hMove := moves_of_step hStep
  have h := hs (not_panics_of_step hMove)
  intro hOk
  exact ⟨h.wake.step hMove hSole hOk, h.fifo.step hMove hOk, HaltInv.step hMove hOk⟩

/-- **No lost wake-up, no lost item.** In every run with a single consumer `t` of
stream `d` that has not panicked: when the consumer lives and is not being
polled, a waiting item has its id in `task_queue`; the executor never halts on
a waiting item; and the items yielded are those pushed, in order, up to the
one that is being returned and those that wait. -/
theorem no_lost_wakeup (d : Dev) (t : TaskId) (ops : List (Event α)) (s : System α)
    (hRun : Lib.run (consumerStep d t) System.boot ops = some s) (hOk : ¬ s.cpu.panics) :
    (t ∈ s.tasks → ¬ s.cpu.polling t → (s.devices d).items ≠ [] → t ∈ s.taskQueue) ∧
    (t ∈ s.tasks → s.cpu = .halted → (s.devices d).items = []) ∧
    (s.devices d).pushed = (s.devices d).yielded ++ s.inflight d ++ (s.devices d).items := by
  have h := consumerInv_run hRun hOk
  refine ⟨h.wake.woken, fun hLive hHalted => ?_, h.fifo⟩
  by_contra hSome
  have hIn := h.wake.woken hLive (by simp [hHalted, Cpu.polling]) hSome
  rw [h.halt hHalted] at hIn
  exact List.not_mem_nil hIn

/-- The keyboard task waits, the executor sleeps, and a key comes in. -/
def keyRun : List (Event UInt8) :=
  [.spawn, .run, .pop, .initQueue .keyboard, .pollNext .keyboard, .register, .secondPop,
    .returnPending, .pop, .disable, .checkIdle, .irq .keyboard 0x1E]

theorem no_lost_wakeup_key : ∃ s : System UInt8,
    Lib.run (consumerStep .keyboard 0) System.boot keyRun = some s ∧
    (s.devices .keyboard).items = [0x1E] ∧ 0 ∈ s.taskQueue := by
  have hSome : (Lib.run (consumerStep .keyboard 0) System.boot keyRun).isSome := rfl
  obtain ⟨s, hRun⟩ := Option.isSome_iff_exists.mp hSome
  have hEnd : s.cpu = .ready ∧ s.tasks = {0} ∧ (s.devices .keyboard).items = [0x1E] := by
    have : some s = Lib.run (consumerStep .keyboard 0) System.boot keyRun := hRun.symm
    cases this
    exact ⟨rfl, rfl, rfl⟩
  obtain ⟨hCpu, hTasks, hItems⟩ := hEnd
  have h := no_lost_wakeup .keyboard 0 keyRun s hRun (by simp [hCpu, Cpu.panics])
  exact ⟨s, hRun, hItems, h.1 (by simp [hTasks]) (by simp [hCpu, Cpu.polling]) (by simp [hItems])⟩

end Neutrix.Executor
