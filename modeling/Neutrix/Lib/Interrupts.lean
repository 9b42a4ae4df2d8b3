import Mathlib.Data.Finset.Card
import Mathlib.Data.Finset.Max

/-!
# Interrupts one at a time

An interrupt controller remembers which vectors are pending and which are in
service. It presents the highest pending vector, and only if its priority
level is above that of everything in service; an end-of-interrupt takes the
vector out that came into service last. A processor that runs its handlers
with interrupts off and ends each of them with one end-of-interrupt never has
more than the running handler's vector in service (`Orderly`), so nothing that
is pending is ever held back for good (`Orderly.exists_accept`).

`work` bounds what is left to do when no more interrupts come, and `due` counts
how often the handler of one vector has yet to do its work.
-/

namespace Neutrix.Lib

/-- How far a handler has got. -/
inductive Phase where
  | entered
  | handled
  | acknowledged
deriving DecidableEq

/-- The steps it still takes. -/
def Phase.left : Phase → Nat
  | .entered => 3
  | .handled => 2
  | .acknowledged => 1

structure Interrupts (V : Type*) where
  pending   : Finset V
  inService : List V
  -- the handler that runs, by its vector
  running   : Option (V × Phase)

namespace Interrupts

variable {V : Type*} {c c' : Interrupts V} {v : V}

-- ---------------------------------------------------------------------------
-- A running handler
-- ---------------------------------------------------------------------------

/-- The handler's own work, by its vector. -/
def handle (c : Interrupts V) : Option (V × Interrupts V) :=
  match c.running with
  | some (v, .entered) => some (v, { c with running := some (v, .handled) })
  | _ => none

/-- The handler's end-of-interrupt, if it sends one to this controller. -/
def acknowledge (eoi : V → Bool) (c : Interrupts V) : Option (Interrupts V) :=
  match c.running with
  | some (v, .handled) =>
    some { c with
      inService := if eoi v then c.inService.tail else c.inService
      running := some (v, .acknowledged) }
  | _ => none

def iret (c : Interrupts V) : Option (Interrupts V) :=
  match c.running with
  | some (_, .acknowledged) => some { c with running := none }
  | _ => none

theorem handle_some (h : c.handle = some (v, c')) :
    c.running = some (v, .entered) ∧ c' = { c with running := some (v, .handled) } := by
  unfold handle at h
  split at h
  · rename_i u hRun
    cases h
    exact ⟨hRun, rfl⟩
  · cases h

theorem acknowledge_some {eoi : V → Bool} (h : c.acknowledge eoi = some c') :
    ∃ v, c.running = some (v, .handled) ∧
      c' = { c with
        inService := if eoi v then c.inService.tail else c.inService
        running := some (v, .acknowledged) } := by
  unfold acknowledge at h
  split at h
  · rename_i v hRun
    exact ⟨v, hRun, (Option.some.inj h).symm⟩
  · cases h

theorem iret_some (h : c.iret = some c') :
    ∃ v, c.running = some (v, .acknowledged) ∧ c' = { c with running := none } := by
  unfold iret at h
  split at h
  · rename_i v hRun
    exact ⟨v, hRun, (Option.some.inj h).symm⟩
  · cases h

/-- A handler can always go on. -/
theorem exists_progress (eoi : V → Bool) (hRun : c.running ≠ none) :
    c.handle.isSome ∨ (c.acknowledge eoi).isSome ∨ c.iret.isSome := by
  obtain ⟨pending, inService, running⟩ := c
  rcases running with _ | ⟨v, _ | _ | _⟩
  · exact absurd rfl hRun
  · exact .inl rfl
  · exact .inr (.inl rfl)
  · exact .inr (.inr rfl)

/-- The vectors whose handlers still owe an end-of-interrupt. -/
def owed (c : Interrupts V) : List V :=
  match c.running with
  | some (_, .acknowledged) | none => []
  | some (v, _) => [v]

/-- Exactly the running handler's vector is in service, until it is acknowledged. -/
def Orderly (c : Interrupts V) : Prop := c.inService = c.owed

theorem Orderly.handle (h : c.Orderly) (hHandle : c.handle = some (v, c')) : c'.Orderly := by
  obtain ⟨hRun, rfl⟩ := handle_some hHandle
  have hOne : c.inService = [v] := by
    rw [h, owed, hRun]
  exact hOne

theorem Orderly.acknowledge {eoi : V → Bool} (h : c.Orderly)
    (hEoi : ∀ v p, c.running = some (v, p) → eoi v = true)
    (hAck : c.acknowledge eoi = some c') : c'.Orderly := by
  obtain ⟨v, hRun, rfl⟩ := acknowledge_some hAck
  have hOne : c.inService = [v] := by
    rw [h, owed, hRun]
  show (if eoi v then c.inService.tail else c.inService) = []
  rw [if_pos (hEoi v _ hRun), hOne, List.tail_cons]

theorem Orderly.iret (h : c.Orderly) (hIret : c.iret = some c') : c'.Orderly := by
  obtain ⟨v, hRun, rfl⟩ := iret_some hIret
  have hNone : c.inService = [] := by
    rw [h, owed, hRun]
  exact hNone

/-- The steps that the pending and running handlers take. -/
def work (c : Interrupts V) : Nat := 4 * c.pending.card + c.running.elim 0 fun r => r.2.left

theorem work_handle (h : c.handle = some (v, c')) : c'.work < c.work := by
  obtain ⟨hRun, rfl⟩ := handle_some h
  simp only [work, hRun, Option.elim_some, Phase.left]
  omega

theorem work_acknowledge {eoi : V → Bool} (h : c.acknowledge eoi = some c') : c'.work < c.work := by
  obtain ⟨v, hRun, rfl⟩ := acknowledge_some h
  simp only [work, hRun, Option.elim_some, Phase.left]
  omega

theorem work_iret (h : c.iret = some c') : c'.work < c.work := by
  obtain ⟨v, hRun, rfl⟩ := iret_some h
  simp only [work, hRun, Option.elim_some, Option.elim_none, Phase.left]
  omega

-- ---------------------------------------------------------------------------
-- Pending vectors
-- ---------------------------------------------------------------------------

variable [DecidableEq V] {rank level : V → Nat}

def raise (c : Interrupts V) (v : V) : Interrupts V := { c with pending := insert v c.pending }

/-- The processor takes vector `v`: the highest by `rank`, above those in service by `level`. -/
def accept (rank level : V → Nat) (c : Interrupts V) (v : V) : Option (Interrupts V) :=
  if c.running = none ∧ v ∈ c.pending ∧ (∀ u ∈ c.pending, rank u ≤ rank v) ∧
      ∀ u ∈ c.inService, level u < level v then
    some ⟨c.pending.erase v, v :: c.inService, some (v, .entered)⟩
  else none

theorem accept_some (h : c.accept rank level v = some c') :
    c.running = none ∧ v ∈ c.pending ∧
      c' = ⟨c.pending.erase v, v :: c.inService, some (v, .entered)⟩ := by
  obtain ⟨⟨hFree, hPending, -⟩, hEq⟩ := Option.ite_none_right_eq_some.mp h
  exact ⟨hFree, hPending, (Option.some.inj hEq).symm⟩

theorem Orderly.raise (h : c.Orderly) (v : V) : (c.raise v).Orderly := h

theorem Orderly.accept (h : c.Orderly) (hAccept : c.accept rank level v = some c') :
    c'.Orderly := by
  obtain ⟨hFree, -, rfl⟩ := accept_some hAccept
  have hNone : c.inService = [] := by
    rw [h, owed, hFree]
  show v :: c.inService = [v]
  rw [hNone]

/-- **Nothing is held back.** Between two handlers the highest pending vector is taken. -/
theorem Orderly.exists_accept (h : c.Orderly) (rank level : V → Nat) (hFree : c.running = none)
    (hSome : c.pending.Nonempty) : ∃ v, (c.accept rank level v).isSome := by
  have hNone : c.inService = [] := by
    rw [h, owed, hFree]
  obtain ⟨v, hPending, hMax⟩ := c.pending.exists_max_image rank hSome
  have hTakes : c.running = none ∧ v ∈ c.pending ∧ (∀ u ∈ c.pending, rank u ≤ rank v) ∧
      ∀ u ∈ c.inService, level u < level v := by
    refine ⟨hFree, hPending, hMax, ?_⟩
    rw [hNone]
    exact fun u hu => absurd hu List.not_mem_nil
  refine ⟨v, ?_⟩
  rw [Interrupts.accept, if_pos hTakes]
  rfl

theorem work_raise_le (c : Interrupts V) (v : V) : (c.raise v).work ≤ c.work + 4 := by
  have hCard := Finset.card_insert_le v c.pending
  simp only [work, raise]
  omega

theorem work_accept (h : c.accept rank level v = some c') : c'.work < c.work := by
  obtain ⟨hFree, hPending, rfl⟩ := accept_some h
  have hCard := Finset.card_erase_add_one hPending
  simp only [work, hFree, Option.elim_some, Option.elim_none, Phase.left]
  omega

-- ---------------------------------------------------------------------------
-- The handler of one vector
-- ---------------------------------------------------------------------------

/-- How often the handler of `v` has yet to do its work. -/
def due (c : Interrupts V) (v : V) : Nat :=
  (if v ∈ c.pending then 1 else 0) + (if c.running = some (v, .entered) then 1 else 0)

theorem due_raise_self (c : Interrupts V) (v : V) :
    1 ≤ (c.raise v).due v ∧ (c.raise v).due v ≤ c.due v + 1 := by
  have hIn : v ∈ (c.raise v).pending := Finset.mem_insert_self v c.pending
  rw [due, if_pos hIn, due]
  exact ⟨Nat.le_add_right 1 _, by rw [raise]; split_ifs <;> omega⟩

theorem due_raise_of_ne {u : V} (c : Interrupts V) (h : v ≠ u) : (c.raise u).due v = c.due v := by
  have hIff : v ∈ (c.raise u).pending ↔ v ∈ c.pending := by simp [raise, h]
  exact congrArg (· + _) (if_congr hIff rfl rfl)

theorem due_accept {u : V} (h : c.accept rank level u = some c') (v : V) : c'.due v = c.due v := by
  obtain ⟨hFree, hPending, rfl⟩ := accept_some h
  by_cases hEq : u = v
  · subst hEq
    simp [due, hFree, hPending]
  · simp [due, hFree, hEq, Ne.symm hEq]

theorem due_handle_self (h : c.handle = some (v, c')) : c'.due v + 1 = c.due v := by
  obtain ⟨hRun, rfl⟩ := handle_some h
  simp [due, hRun]

theorem due_handle_of_ne {u : V} (h : c.handle = some (u, c')) (hNe : v ≠ u) :
    c'.due v = c.due v := by
  obtain ⟨hRun, rfl⟩ := handle_some h
  simp [due, hRun, Ne.symm hNe]

theorem due_acknowledge {eoi : V → Bool} (h : c.acknowledge eoi = some c') (v : V) :
    c'.due v = c.due v := by
  obtain ⟨u, hRun, rfl⟩ := acknowledge_some h
  simp [due, hRun]

theorem due_iret (h : c.iret = some c') (v : V) : c'.due v = c.due v := by
  obtain ⟨u, hRun, rfl⟩ := iret_some h
  simp [due, hRun]

/-- Without a pending vector and outside of handlers nothing is due. -/
theorem due_eq_zero (hPending : c.pending = ∅) (hFree : c.running = none) (v : V) :
    c.due v = 0 := by
  simp [due, hPending, hFree]

end Interrupts

end Neutrix.Lib
