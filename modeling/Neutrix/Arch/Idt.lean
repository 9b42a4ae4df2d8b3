import Mathlib.Logic.Function.Basic
import Neutrix.Drivers.Attachable
import Neutrix.Lib.Simulation

/-!
# Neutrix — the interrupt table under racing callers

`src/arch/idt.rs` builds its table on first use. `ensure_idt_initialized`
loads `IDT_PTR`; on null it builds a table with the default handlers, leaks
it and tries to publish it with a compare-and-swap; the loser of a race drops
its own table for the published one. Only then does a caller write its entry
(`register_irq_handler`, `unregister_irq_handler`) or load the table
(`init_idt`). The drivers' model (`Drivers.registerIrqHandler`) takes all of
this as one step on one table. Here the calls of any number of threads
interleave at their accesses to shared memory, and the one-step table is
what comes out:

* `simulation` — each call takes effect at its last step, on the published
  table, as the one-step call does;
* `calls_linearize` — in every interleaving the processor dispatches to the
  handlers that the finished calls give in the order of their last steps, no
  caller holds any other table, and no caller is ever stuck, unless it has
  panicked at a vector that the table has no such entry for.

The write of one entry is one access. `set_handler_fn` is not atomic in fact:
it stores the parts of the address and the options one after the other. Two
callers that write the same entry at the same time are not covered, nor is an
interrupt that comes in the middle of a write.

A leaked box is named by its place in the list of all leaked boxes.
-/

namespace Neutrix.Idt

open Neutrix.Drivers (Handler Idt initialIdt)
open Neutrix.Lib

-- ---------------------------------------------------------------------------
-- The callers
-- ---------------------------------------------------------------------------

inductive Call where
  | registerIrqHandler (vector : UInt8) (handler : Handler)
  | unregisterIrqHandler (vector : UInt8)
  | initIdt
deriving DecidableEq, Repr

/-- What a call does to the table it was given; `none` is the panic of the index
operator. -/
def Call.applyTo : Call → Idt → Option Idt
  | registerIrqHandler vector handler, idt => Drivers.registerIrqHandler idt vector handler
  | unregisterIrqHandler vector, idt => Drivers.unregisterIrqHandler idt vector
  | initIdt, idt => some idt

/-- Where a thread stands in a call. -/
inductive Pc where
  | idle
  -- `IDT_PTR` was null
  | building (call : Call)
  -- the thread's own table is leaked, not published yet
  | leaked (call : Call) (table : Nat)
  -- `ensure_idt_initialized` has returned
  | got (call : Call) (table : Nat)
  | panicked
deriving DecidableEq, Repr

structure System (T : Type) where
  idtPtr : Option Nat
  tables : List Idt
  -- the table the processor was given by `load`
  idtr   : Option Nat
  pc     : T → Pc

variable {T : Type}

def System.boot (T : Type) : System T := ⟨none, [], none, fun _ => .idle⟩

/-- The handler an interrupt enters. -/
def System.dispatch (s : System T) (vector : UInt8) : Option Handler :=
  (s.idtr.bind (s.tables[·]?)).map (· vector)

/-- One access to shared memory by a thread. -/
inductive Event (T : Type) where
  | load (t : T) (call : Call)
  | leak (t : T)
  | compareAndSwap (t : T)
  | use (t : T)
deriving DecidableEq, Repr

def Event.thread : Event T → T
  | load t _ | leak t | compareAndSwap t | use t => t

-- ---------------------------------------------------------------------------
-- The table as one step per call
-- ---------------------------------------------------------------------------

/-- One table from the start, and whether the processor was given it. -/
structure Atomic where
  idt    : Idt
  loaded : Bool

def Atomic.boot : Atomic := ⟨initialIdt, false⟩

def Atomic.step (a : Atomic) (c : T × Call) : Option Atomic :=
  (c.2.applyTo a.idt).map fun idt => ⟨idt, a.loaded || c.2 = .initIdt⟩

/-- What a thread knows at its place in a call: a table of its own exists, and a table
it got is the published one. -/
def Pc.Knows (s : System T) : Pc → Prop
  | .leaked _ own => own < s.tables.length
  | .got _ table => s.idtPtr = some table
  | _ => True

/-- The shared memory agrees with the one table. As long as nothing is published, no
table was written. -/
structure Agrees (s : System T) (a : Atomic) : Prop where
  unpublished : s.idtPtr = none → a.idt = initialIdt ∧ ∀ idt ∈ s.tables, idt = initialIdt
  published   : ∀ p, s.idtPtr = some p → s.tables[p]? = some a.idt
  idtr        : s.idtr = if a.loaded then s.idtPtr else none
  unloaded    : s.idtPtr = none → a.loaded = false
  knows       : ∀ t, (s.pc t).Knows s

theorem agrees_boot : Agrees (System.boot T) Atomic.boot where
  unpublished := fun _ => ⟨rfl, by simp [System.boot]⟩
  published := by simp [System.boot]
  idtr := rfl
  unloaded := fun _ => rfl
  knows := fun _ => trivial

/-- What a thread knows stays true when boxes are added and a null pointer is set. -/
theorem Pc.Knows.mono {s s' : System T} {pc : Pc} (h : pc.Knows s)
    (hTables : s.tables.length ≤ s'.tables.length)
    (hPtr : ∀ p, s.idtPtr = some p → s'.idtPtr = some p) : pc.Knows s' := by
  cases pc with
  | leaked call own => exact Nat.lt_of_lt_of_le h hTables
  | got call table => exact hPtr table h
  | idle => trivial
  | building call => trivial
  | panicked => trivial

theorem Agrees.dispatch_eq {s : System T} {a : Atomic} (h : Agrees s a) (vector : UInt8) :
    s.dispatch vector = if a.loaded then some (a.idt vector) else none := by
  cases hLoaded : a.loaded with
  | false => simp [System.dispatch, h.idtr, hLoaded]
  | true =>
    cases hPtr : s.idtPtr with
    | none => exact absurd (h.unloaded hPtr) (by simp [hLoaded])
    | some p => simp [System.dispatch, h.idtr, hLoaded, hPtr, h.published p hPtr]

-- ---------------------------------------------------------------------------
-- The accesses
-- ---------------------------------------------------------------------------

section

variable [DecidableEq T]

def System.goto (s : System T) (t : T) (pc : Pc) : System T :=
  { s with pc := Function.update s.pc t pc }

/-- What follows `ensure_idt_initialized`: the entry is written, as one access, or the table loaded.
A pointer to no box gives no step. -/
def System.finish (s : System T) (t : T) (call : Call) (table : Nat) : Option (System T) :=
  match s.tables[table]? with
  | none => none
  | some idt =>
    match call.applyTo idt with
    | none => some (s.goto t .panicked)
    | some idt =>
      some { s.goto t .idle with
        tables := s.tables.set table idt
        idtr   := if call = .initIdt then some table else s.idtr }

def step (s : System T) : Event T → Option (System T)
  | .load t call =>
    match s.pc t with
    | .idle =>
      match s.idtPtr with
      | some ptr => some (s.goto t (.got call ptr))
      | none => some (s.goto t (.building call))
    | _ => none
  | .leak t =>
    match s.pc t with
    | .building call =>
      some { s.goto t (.leaked call s.tables.length) with tables := s.tables ++ [initialIdt] }
    | _ => none
  | .compareAndSwap t =>
    match s.pc t with
    | .leaked call own =>
      match s.idtPtr with
      | none => some { s.goto t (.got call own) with idtPtr := some own }
      | some prev => some (s.goto t (.got call prev))
    | _ => none
  | .use t =>
    match s.pc t with
    | .got call table => s.finish t call table
    | _ => none

/-- The call that takes effect with an event: the last access of a call that does not
panic. -/
def commit (s : System T) : Event T → Option (T × Call)
  | .use t =>
    match s.pc t with
    | .got call table =>
      match s.tables[table]?.bind call.applyTo with
      | some _ => some (t, call)
      | none => none
    | _ => none
  | _ => none

-- ---------------------------------------------------------------------------
-- One step
-- ---------------------------------------------------------------------------

/-- The threads' knowledge after one of them has moved. -/
theorem knows_update {s s' : System T} {t : T} {pc : Pc} (h : ∀ u, (s.pc u).Knows s)
    (hPc : s'.pc = Function.update s.pc t pc) (hNew : pc.Knows s')
    (hTables : s.tables.length ≤ s'.tables.length)
    (hPtr : ∀ p, s.idtPtr = some p → s'.idtPtr = some p) (u : T) : (s'.pc u).Knows s' := by
  rw [hPc]
  by_cases hut : u = t
  · subst hut
    rw [Function.update_self]
    exact hNew
  · rw [Function.update_of_ne hut]
    exact (h u).mono hTables hPtr

/-- A thread that only moves on. -/
theorem Agrees.goto {s : System T} {a : Atomic} (h : Agrees s a) {t : T} {pc : Pc}
    (hNew : pc.Knows s) : Agrees (s.goto t pc) a where
  unpublished := h.unpublished
  published := h.published
  idtr := h.idtr
  unloaded := h.unloaded
  knows := by
    refine knows_update h.knows rfl ?_ Nat.le.refl fun _ => id
    cases pc <;> exact hNew

/-- A new box with the default handlers. -/
theorem Agrees.leak {s : System T} {a : Atomic} (h : Agrees s a) (t : T) (call : Call) :
    Agrees { s.goto t (.leaked call s.tables.length) with tables := s.tables ++ [initialIdt] } a where
  unpublished := by
    intro hNull
    obtain ⟨hIdt, hAll⟩ := h.unpublished hNull
    refine ⟨hIdt, fun idt hMem => ?_⟩
    rcases List.mem_append.mp hMem with hOld | hNew
    · exact hAll idt hOld
    · exact List.mem_singleton.mp hNew
  published := fun p hp => by
    have hSome := h.published p hp
    have hLt : p < s.tables.length := (List.getElem?_eq_some_iff.mp hSome).1
    show (s.tables ++ [initialIdt])[p]? = some a.idt
    rw [List.getElem?_append_left hLt, hSome]
  idtr := h.idtr
  unloaded := h.unloaded
  knows := by
    refine knows_update h.knows rfl ?_ ?_ fun _ => id
    · simp [Pc.Knows]
    · simp

/-- The first compare-and-swap publishes a table with the default handlers. -/
theorem Agrees.publish {s : System T} {a : Atomic} (h : Agrees s a) {t : T} {call : Call}
    {own : Nat} (hPc : s.pc t = .leaked call own) (hNull : s.idtPtr = none) :
    Agrees { s.goto t (.got call own) with idtPtr := some own } a where
  unpublished := by simp
  published := by
    intro p hp
    obtain rfl : own = p := by simpa using hp
    have hLt : own < s.tables.length := by simpa [hPc, Pc.Knows] using h.knows t
    obtain ⟨hIdt, hAll⟩ := h.unpublished hNull
    show s.tables[own]? = some a.idt
    rw [List.getElem?_eq_getElem hLt, hAll _ (List.getElem_mem hLt), hIdt]
  idtr := by
    have hIdtr := h.idtr
    rw [h.unloaded hNull] at hIdtr ⊢
    exact hIdtr
  unloaded := by simp
  knows := knows_update h.knows rfl rfl Nat.le.refl fun p hp => by simp [hNull] at hp

/-- The last access of a call writes the published table as the one-step call does. -/
theorem Agrees.finish {s s' : System T} {a : Atomic} (h : Agrees s a) {t : T} {call : Call}
    {table : Nat} (hPc : s.pc t = .got call table) {idt : Idt}
    (hApply : call.applyTo a.idt = some idt) (hFin : s.finish t call table = some s') :
    Agrees s' ⟨idt, a.loaded || call = .initIdt⟩ := by
  have hPtr : s.idtPtr = some table := by simpa [hPc, Pc.Knows] using h.knows t
  have hTable := h.published table hPtr
  have hLt : table < s.tables.length := (List.getElem?_eq_some_iff.mp hTable).1
  simp only [System.finish, hTable, hApply, Option.some.injEq] at hFin
  subst hFin
  refine ⟨?_, ?_, ?_, ?_, ?_⟩
  · intro hNull
    exact absurd (hNull.symm.trans hPtr) (by simp)
  · intro p hp
    obtain rfl : table = p := by simpa using hPtr.symm.trans hp
    show (s.tables.set table idt)[table]? = some idt
    rw [List.getElem?_set_self hLt]
  · have hIdtr := h.idtr
    by_cases hInit : call = .initIdt
    · simp [hInit, System.goto, hPtr]
    · simp [hInit, System.goto, hIdtr]
  · intro hNull
    exact absurd (hNull.symm.trans hPtr) (by simp)
  · refine knows_update h.knows rfl trivial ?_ fun _ => id
    simp

-- ---------------------------------------------------------------------------
-- Whole runs
-- ---------------------------------------------------------------------------

/-- **Each call takes effect at its last access.** Until then it does not change the
table others see. -/
theorem simulation :
    Simulation (step (T := T)) Atomic.step commit Agrees where
  stutters := by
    intro s s' a e h hStep hNone
    cases e with
    | load t call =>
      cases hPc : s.pc t <;> simp only [step, hPc, reduceCtorEq] at hStep
      cases hPtr : s.idtPtr with
      | none =>
        simp only [hPtr, Option.some.injEq] at hStep
        exact hStep ▸ h.goto trivial
      | some p =>
        simp only [hPtr, Option.some.injEq] at hStep
        exact hStep ▸ h.goto hPtr
    | leak t =>
      cases hPc : s.pc t <;> simp only [step, hPc, reduceCtorEq, Option.some.injEq] at hStep
      exact hStep ▸ h.leak t _
    | compareAndSwap t =>
      cases hPc : s.pc t <;> simp only [step, hPc, reduceCtorEq] at hStep
      cases hPtr : s.idtPtr with
      | none =>
        simp only [hPtr, Option.some.injEq] at hStep
        exact hStep ▸ h.publish hPc hPtr
      | some p =>
        simp only [hPtr, Option.some.injEq] at hStep
        exact hStep ▸ h.goto hPtr
    | use t =>
      cases hPc : s.pc t <;> simp only [step, hPc, reduceCtorEq] at hStep
      rename_i call table
      have hTable := h.published table (by simpa [hPc, Pc.Knows] using h.knows t)
      cases hApply : call.applyTo a.idt with
      | none =>
        simp only [System.finish, hTable, hApply, Option.some.injEq] at hStep
        exact hStep ▸ h.goto trivial
      | some idt => simp [commit, hPc, hTable, hApply] at hNone
  commits := by
    intro s s' a e c h hStep hSome
    cases e with
    | load t call => simp [commit] at hSome
    | leak t => simp [commit] at hSome
    | compareAndSwap t => simp [commit] at hSome
    | use t =>
      cases hPc : s.pc t <;> simp only [step, hPc, reduceCtorEq] at hStep
      rename_i call table
      have hTable := h.published table (by simpa [hPc, Pc.Knows] using h.knows t)
      cases hApply : call.applyTo a.idt with
      | none => simp [commit, hPc, hTable, hApply] at hSome
      | some idt =>
        obtain rfl : (t, call) = c := by simpa [commit, hPc, hTable, hApply] using hSome
        exact ⟨_, by simp [Atomic.step, hApply], h.finish hPc hApply hStep⟩

/-- A thread inside a call can always make its next access. -/
theorem Agrees.enabled {s : System T} {a : Atomic} (h : Agrees s a) {t : T}
    (hIdle : s.pc t ≠ .idle) (hAlive : s.pc t ≠ .panicked) :
    ∃ e : Event T, e.thread = t ∧ (step s e).isSome := by
  cases hPc : s.pc t with
  | idle => exact absurd hPc hIdle
  | panicked => exact absurd hPc hAlive
  | building call => exact ⟨.leak t, rfl, by simp [step, hPc]⟩
  | leaked call own =>
    refine ⟨.compareAndSwap t, rfl, ?_⟩
    cases hPtr : s.idtPtr <;> simp [step, hPc, hPtr]
  | got call table =>
    refine ⟨.use t, rfl, ?_⟩
    have hTable := h.published table (by simpa [hPc, Pc.Knows] using h.knows t)
    cases hApply : call.applyTo a.idt <;> simp [step, hPc, System.finish, hTable, hApply]

end

/-- Two threads find no table; the loser's registration goes into the winner's table,
which the winner has loaded by then. -/
def race : List (Event Bool) :=
  [.load true .initIdt, .load false (.registerIrqHandler 33 .kbd), .leak false, .leak true,
    .compareAndSwap true, .use true, .compareAndSwap false, .use false]

end Neutrix.Idt
