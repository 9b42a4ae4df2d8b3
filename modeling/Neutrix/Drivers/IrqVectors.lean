import Neutrix.Drivers.GlobalPointers

/-!
# Neutrix — interrupt handlers of the PS/2 drivers

The interrupt table is shared, but a PS/2 driver only remembers its own
vectors: `start` puts its handler into the table and `stop` and `release`
put the default handler back, whoever registered last. `Served` is what the
devices rely on: every interrupt vector of a device with an attached PS/2
driver has the handler of a driver attached to some device with that vector.

Attaching always keeps this. Detaching keeps it exactly when no other
attached PS/2 device shares a vector with the detached one
(`step_served_iff`), so in a run it holds after every operation exactly when
no operation detaches a shared vector (`irqHandlers_served_iff`).
-/

namespace Neutrix.Drivers

open Neutrix.Lib
open Neutrix.DeviceManager

-- ---------------------------------------------------------------------------
-- The property
-- ---------------------------------------------------------------------------

/-- The interrupt handler of a PS/2 driver. -/
def Kind.irqHandler : Kind → Option Handler
  | .ps2kbd => some .kbd
  | .ps2mouse => some .mouse
  | .vbeVga => none

/-- The entry has a PS/2 driver, whose handler is `handler`, and interrupt `v`. -/
def Listens (e : RegistryEntry Instance) (v : UInt8) (handler : Handler) : Prop :=
  (∃ d, e.driver = some d ∧ d.kind.irqHandler = some handler) ∧ v ∈ interrupts e.device.info

/-- Every vector of a device with an attached PS/2 driver has the handler of such a
driver on a device with that vector. -/
def Served (s : Sys Instance World) : Prop :=
  ∀ e ∈ s.mgr.devices, ∀ v handler, Listens e v handler →
    ∃ e' ∈ s.mgr.devices, Listens e' v (s.world.idt v)

/-- The operation detaches a PS/2 driver from a device that shares a vector with
another device with an attached PS/2 driver. -/
def DetachesShared (s : Sys Instance World) (op : Op Instance) : Prop :=
  ∃ id v handler handler', op = .detach id ∧
    (∃ e ∈ s.mgr.devices, e.device.id = id ∧ Listens e v handler) ∧
    ∃ e ∈ s.mgr.devices, e.device.id ≠ id ∧ Listens e v handler'

theorem not_detachesShared_register (s : Sys Instance World) (info : DeviceInfo) :
    ¬ DetachesShared s (.register info) := by
  rintro ⟨id, v, handler, handler', hOp, -⟩
  cases hOp

theorem not_detachesShared_attach (s : Sys Instance World) (id : Nat) (d : Instance) :
    ¬ DetachesShared s (.attach id d) := by
  rintro ⟨id', v, handler, handler', hOp, -⟩
  cases hOp

/-- The calls are `register_device`, `attach_driver` and `detach_driver`. -/
def callStep (s : Sys Instance World) : Op Instance → Option (Sys Instance World)
  | .merge _ => none
  | op => s.step driver op

theorem callStep_eq {s s' : Sys Instance World} {op : Op Instance} (h : callStep s op = some s') :
    s.step driver op = some s' ∧ ∀ info, op ≠ .merge info := by
  cases op with
  | merge info => cases h
  | _ => exact ⟨h, fun _ hEq => nomatch hEq⟩

theorem irqHandler_ne_default {k : Kind} {handler : Handler} (h : k.irqHandler = some handler) :
    handler ≠ .defaultIrq := by
  cases k <;> simp [Kind.irqHandler] at h <;> subst h <;> decide

-- ---------------------------------------------------------------------------
-- What the callbacks do to the table
-- ---------------------------------------------------------------------------

/-- The vectors `vs` were registered for `d`. -/
structure Registered (d : Instance) (handler : Handler) (vs : List UInt8) (w w' : World) : Prop where
  idt       : ∀ v, w'.idt v = if v ∈ vs then handler else w.idt v
  own       : ∀ v, v ∈ w'.registeredVectors d ↔ v ∈ w.registeredVectors d ∨ v ∈ vs
  others    : ∀ d', d' ≠ d → w'.registeredVectors d' = w.registeredVectors d'
  indexable : ∀ v ∈ vs, indexable v = true

theorem Registered.nil (d : Instance) (handler : Handler) (w : World) :
    Registered d handler [] w w :=
  ⟨by simp, by simp, fun _ _ => rfl, by simp⟩

theorem registerVector_registered {d : Instance} {handler : Handler} {w w' : World} {v : UInt8}
    (h : registerVector d handler w v = some w') : Registered d handler [v] w w' := by
  simp only [registerVector, registerIrqHandler, setHandler, Option.map_eq_some_iff,
    Option.ite_none_right_eq_some] at h
  obtain ⟨idt, ⟨hIdx, hIdt⟩, rfl⟩ := h
  cases hIdt
  refine ⟨fun u => ?_, fun u => ?_, fun d' hd' => ?_, by simpa using hIdx⟩
  · simp [Function.update_apply]
  · simp only [Function.update_self, List.mem_singleton]
    split_ifs with hIn
    · exact ⟨.inl, fun hu => hu.elim id fun hEq => hEq ▸ hIn⟩
    · simp
  · exact Function.update_of_ne hd' _ _

/-- One vector after another. -/
theorem Registered.cons {d : Instance} {handler : Handler} {v : UInt8} {vs : List UInt8}
    {w w' w'' : World} (h : Registered d handler [v] w w') (h' : Registered d handler vs w' w'') :
    Registered d handler (v :: vs) w w'' where
  idt u := by
    rw [h'.idt, h.idt]
    by_cases hIn : u ∈ vs <;> by_cases hEq : u = v <;> simp [hIn, hEq]
  own u := by rw [h'.own, h.own, List.mem_singleton, List.mem_cons, or_assoc]
  others d' hd' := (h'.others d' hd').trans (h.others d' hd')
  indexable u hu := by
    rcases List.mem_cons.mp hu with rfl | hIn
    · exact h.indexable u (List.mem_singleton_self _)
    · exact h'.indexable u hIn

theorem foldlM_registered {d : Instance} {handler : Handler} {f : World → UInt8 → Option World}
    (hf : ∀ w v w', f w v = some w' → Registered d handler [v] w w') {vs : List UInt8}
    {w w' : World} (h : vs.foldlM f w = some w') : Registered d handler vs w w' := by
  induction vs generalizing w with
  | nil =>
    cases h
    exact Registered.nil d handler _
  | cons v vs ih =>
    obtain ⟨w₁, hFirst, hRest⟩ := Option.bind_eq_some_iff.mp h
    exact (hf _ v w₁ hFirst).cons (ih hRest)

/-- `start` of a PS/2 driver registers the device's vectors. -/
theorem start_registered {d : Instance} {dev : Device} {handler : Handler} {w w' : World}
    {r : Except String Unit} (hKind : d.kind.irqHandler = some handler)
    (h : readOnly.start d dev w = some (r, w')) :
    Registered d handler (interrupts dev.info) w w' := by
  cases start_of_eq h with
  | ps2kbd _ hk hKbd =>
    simp only [hk, Kind.irqHandler, Option.some.injEq] at hKind
    subst hKind
    exact foldlM_registered (fun _ _ _ => registerVector_registered) hKbd
  | ps2mouse _ hk hMouse =>
    simp only [hk, Kind.irqHandler, Option.some.injEq] at hKind
    subst hKind
    obtain ⟨u, hLoop, rfl⟩ := Option.map_eq_some_iff.mp hMouse
    have hReg : Registered d .mouse (interrupts dev.info) w u := by
      refine foldlM_registered (fun w v w' hw => ?_) hLoop
      obtain ⟨w₁, hFirst, rfl⟩ := Option.map_eq_some_iff.mp hw
      have hOne := registerVector_registered hFirst
      exact ⟨hOne.idt, hOne.own, hOne.others, hOne.indexable⟩
    exact ⟨hReg.idt, hReg.own, hReg.others, hReg.indexable⟩
  | vbeVga _ _ hk => simp [hk, Kind.irqHandler] at hKind

/-- The table and the vector lists are as they were. -/
structure SameVectors (w w' : World) : Prop where
  idt     : w'.idt = w.idt
  vectors : w'.registeredVectors = w.registeredVectors

/-- Drivers without an interrupt handler leave the table alone. -/
theorem start_sameVectors {d : Instance} {dev : Device} {w w' : World} {r : Except String Unit}
    (hKind : d.kind.irqHandler = none) (h : readOnly.start d dev w = some (r, w')) :
    SameVectors w w' := by
  cases start_of_eq h with
  | ps2kbd _ hk => simp [hk, Kind.irqHandler] at hKind
  | ps2mouse _ hk => simp [hk, Kind.irqHandler] at hKind
  | vbeVga _ _ _ hStart => cases vbeStart_cases hStart <;> exact ⟨rfl, rfl⟩

/-- The PS/2 drivers' `start` does not fail. -/
theorem irqHandler_none_of_start_error {d : Instance} {dev : Device} {w w' : World} {msg : String}
    (h : readOnly.start d dev w = some (.error msg, w')) : d.kind.irqHandler = none := by
  cases start_of_eq h with
  | vbeVga _ _ hk =>
    rw [hk]
    rfl

/-- The vectors of `d` got the default handler back, and its list is empty. -/
structure Unregistered (d : Instance) (w w' : World) : Prop where
  idt    : ∀ v, w'.idt v = if v ∈ w.registeredVectors d then .defaultIrq else w.idt v
  own    : w'.registeredVectors d = []
  others : ∀ d', d' ≠ d → w'.registeredVectors d' = w.registeredVectors d'

/-- The unregistering loop. -/
theorem foldlM_unregister {vs : List UInt8} {idt idt' : Idt}
    (h : vs.foldlM unregisterIrqHandler idt = some idt') (v : UInt8) :
    idt' v = if v ∈ vs then .defaultIrq else idt v := by
  induction vs generalizing idt with
  | nil =>
    cases h
    simp
  | cons u vs ih =>
    obtain ⟨idt₁, hFirst, hRest⟩ := Option.bind_eq_some_iff.mp h
    simp only [unregisterIrqHandler, setHandler, Option.ite_none_right_eq_some] at hFirst
    obtain ⟨-, hEq⟩ := hFirst
    cases hEq
    rw [ih hRest, Function.update_apply]
    by_cases hIn : v ∈ vs <;> by_cases hEq : v = u <;> simp [hIn, hEq]

theorem foldlM_unregister_isSome {vs : List UInt8} (h : ∀ v ∈ vs, indexable v = true) (idt : Idt) :
    ∃ idt', vs.foldlM unregisterIrqHandler idt = some idt' := by
  induction vs generalizing idt with
  | nil => exact ⟨idt, rfl⟩
  | cons u vs ih =>
    rw [List.foldlM_cons, unregisterIrqHandler, setHandler, if_pos (h u (List.mem_cons_self ..))]
    exact ih (fun v hv => h v (List.mem_cons_of_mem _ hv)) _

theorem ps2Stop_eq {d : Instance} {w w' : World} (h : ps2Stop d w = some w') :
    (∀ v, w'.idt v = if v ∈ w.registeredVectors d then .defaultIrq else w.idt v) ∧
      w'.registeredVectors = w.registeredVectors := by
  obtain ⟨idt, hLoop, rfl⟩ := Option.map_eq_some_iff.mp h
  exact ⟨foldlM_unregister hLoop, rfl⟩

theorem ps2Release_unregistered {d : Instance} {w w' w'' : World} (hStop : ps2Stop d w = some w')
    (hRelease : ps2Release d w' = some w'') : Unregistered d w w'' := by
  obtain ⟨v, hAgain, rfl⟩ := Option.map_eq_some_iff.mp hRelease
  obtain ⟨hIdt, hVectors⟩ := ps2Stop_eq hStop
  obtain ⟨hIdt', hVectors'⟩ := ps2Stop_eq hAgain
  refine ⟨fun u => ?_, by simp, fun d' hd' => ?_⟩
  · simp only [hIdt', hIdt, hVectors]
    by_cases hIn : u ∈ w.registeredVectors d <;> simp [hIn]
  · simp only [Function.update_of_ne hd', hVectors', hVectors]

theorem detach_unregistered {d : Instance} {dev : Device} {w w' w'' : World}
    (hKind : d.kind.irqHandler ≠ none) (hStop : readOnly.stop d dev w = some w')
    (hRelease : readOnly.release d dev w' = some w'') : Unregistered d w w'' := by
  cases stopRelease_of_eq hStop hRelease with
  | ps2kbd _ hStop hRelease => exact ps2Release_unregistered hStop hRelease
  | ps2mouse _ hStop hRelease =>
    obtain ⟨v, hPs2, rfl⟩ := Option.map_eq_some_iff.mp hRelease
    have hUn := ps2Release_unregistered hStop hPs2
    exact ⟨hUn.idt, hUn.own, hUn.others⟩
  | vbeVga hk => simp [hk, Kind.irqHandler] at hKind

theorem vbeStop_sameVectors {d : Instance} {w w' : World} (h : vbeStop d w = some w') :
    SameVectors w w' := by
  unfold vbeStop at h
  split_ifs at h
  · cases h
    exact ⟨rfl, rfl⟩
  all_goals
    obtain ⟨pages, -, rfl⟩ := Option.map_eq_some_iff.mp h
    exact ⟨rfl, rfl⟩

theorem detach_sameVectors {d : Instance} {dev : Device} {w w' w'' : World}
    (hKind : d.kind.irqHandler = none) (hStop : readOnly.stop d dev w = some w')
    (hRelease : readOnly.release d dev w' = some w'') : SameVectors w w'' := by
  cases stopRelease_of_eq hStop hRelease with
  | ps2kbd hk => simp [hk, Kind.irqHandler] at hKind
  | ps2mouse hk => simp [hk, Kind.irqHandler] at hKind
  | vbeVga _ hStop hRelease =>
    have hFirst := vbeStop_sameVectors hStop
    have hSecond := vbeStop_sameVectors hRelease
    exact ⟨hSecond.idt.trans hFirst.idt, hSecond.vectors.trans hFirst.vectors⟩

-- ---------------------------------------------------------------------------
-- The invariant
-- ---------------------------------------------------------------------------

/-- The entry has a PS/2 driver. -/
def HasPs2 (e : RegistryEntry Instance) : Prop :=
  ∃ d, e.driver = some d ∧ d.kind.irqHandler ≠ none

theorem Listens.hasPs2 {e : RegistryEntry Instance} {v : UInt8} {handler : Handler}
    (h : Listens e v handler) : HasPs2 e := by
  obtain ⟨⟨d, hDriver, hKind⟩, -⟩ := h
  exact ⟨d, hDriver, by simp [hKind]⟩

structure VectorInv (s : Sys Instance World) : Prop where
  registry  : Registry s
  fresh     : ∀ d, d ∉ s.handed → s.world.registeredVectors d = []
  indexable : ∀ d, ∀ v ∈ s.world.registeredVectors d, indexable v = true
  own       : ∀ e ∈ s.mgr.devices, ∀ d, e.driver = some d → d.kind.irqHandler ≠ none →
    ∀ v, v ∈ s.world.registeredVectors d ↔ v ∈ interrupts e.device.info
  served    : Served s

namespace VectorInv

variable {s s' : Sys Instance World}

theorem start {w : World} (hw : w.Fresh) : VectorInv (Sys.start w) where
  registry := Registry.start w
  fresh d _ := hw.vectors d
  indexable d v hv := by simp [Sys.start, hw.vectors] at hv
  own e he := nomatch he
  served e he := nomatch he

/-- An operation that keeps the table and the entries with PS/2 drivers. -/
theorem same (h : VectorInv s) (hRegistry : Registry s') (hHanded : ∀ d ∈ s.handed, d ∈ s'.handed)
    (hEntries : ∀ e, HasPs2 e → (e ∈ s'.mgr.devices ↔ e ∈ s.mgr.devices))
    (hSame : SameVectors s.world s'.world) : VectorInv s' where
  registry := hRegistry
  fresh d hd := by
    rw [hSame.vectors]
    exact h.fresh d fun hIn => hd (hHanded d hIn)
  indexable d := by
    rw [hSame.vectors]
    exact h.indexable d
  own e he d hDriver hKind := by
    rw [hSame.vectors]
    exact h.own e ((hEntries e ⟨d, hDriver, hKind⟩).mp he) d hDriver hKind
  served e he v handler hListens := by
    obtain ⟨e', he', hServes⟩ := h.served e ((hEntries e hListens.hasPs2).mp he) v handler hListens
    rw [hSame.idt]
    exact ⟨e', (hEntries e' hServes.hasPs2).mpr he', hServes⟩

/-- The entries with PS/2 drivers when a driver moves into a vacant entry or out of its
entry, where neither is a PS/2 driver. -/
theorem entries_setDriver (h : Registry s) {id : Nat} {e : RegistryEntry Instance}
    {driver : Option Instance} (hFind : s.mgr.find id = some e) (hBefore : ¬ HasPs2 e)
    (hAfter : ¬ HasPs2 { e with driver := driver }) (e' : RegistryEntry Instance) (he' : HasPs2 e') :
    e' ∈ setDriver id driver s.mgr.devices ↔ e' ∈ s.mgr.devices := by
  rw [mem_setDriver h.distinctIds hFind]
  constructor
  · rintro (rfl | ⟨hIn, -⟩)
    · exact absurd he' hAfter
    · exact hIn
  · refine fun hIn => .inr ⟨hIn, fun hId => hBefore ?_⟩
    have hEq := eq_of_id_eq h.distinctIds hIn (mem_of_find hFind) (hId.trans (find_some hFind).1.symm)
    exact hEq ▸ he'

/-- A PS/2 driver is attached: its vectors have its handler, the others are as before. -/
theorem assign (h : VectorInv s) {id : Nat} {e : RegistryEntry Instance} {d : Instance}
    {handler : Handler} {w : World} (hFind : s.mgr.find id = some e) (hVacant : e.driver = none)
    (hNew : d ∉ s.handed) (hKind : d.kind.irqHandler = some handler)
    (hReg : Registered d handler (interrupts e.device.info) s.world w) :
    VectorInv ⟨{ s.mgr with devices := setDriver id (some d) s.mgr.devices }, w, d :: s.handed⟩ := by
  have hMem : ∀ e', e' ∈ setDriver id (some d) s.mgr.devices ↔
      e' = { e with driver := some d } ∨ (e' ∈ s.mgr.devices ∧ e'.device.id ≠ id) := fun e' =>
    mem_setDriver h.registry.distinctIds hFind
  have hOwn : ∀ v, v ∈ w.registeredVectors d ↔ v ∈ interrupts e.device.info := by
    intro v
    rw [hReg.own, h.fresh d hNew]
    simp
  have hOther : ∀ e' ∈ s.mgr.devices, ∀ d', e'.driver = some d' → d' ≠ d := by
    intro e' he' d' hd' hEq
    exact hNew (hEq ▸ h.registry.handedOver d' (List.mem_filterMap.mpr ⟨e', he', hd'⟩))
  refine ⟨h.registry.assign w hFind hVacant hNew, fun d' hd' => ?_, fun d' v hv => ?_,
    fun e' he' d' hd' hPs2 => ?_, fun e' he' v handler' hListens => ?_⟩
  · rw [List.mem_cons, not_or] at hd'
    rw [hReg.others d' hd'.1]
    exact h.fresh d' hd'.2
  · by_cases hEq : d' = d
    · exact hReg.indexable v ((hOwn v).mp (hEq ▸ hv))
    · rw [hReg.others d' hEq] at hv
      exact h.indexable d' v hv
  · rcases (hMem e').mp he' with rfl | ⟨hIn, -⟩
    · cases hd'
      exact hOwn
    · rw [hReg.others d' (hOther e' hIn d' hd')]
      exact h.own e' hIn d' hd' hPs2
  · have hSelf : { e with driver := some d } ∈ setDriver id (some d) s.mgr.devices :=
      (hMem _).mpr (.inl rfl)
    by_cases hv : v ∈ interrupts e.device.info
    · refine ⟨_, hSelf, ⟨d, rfl, ?_⟩, hv⟩
      rw [hReg.idt, if_pos hv, hKind]
    · rcases (hMem e').mp he' with rfl | ⟨hIn, -⟩
      · exact absurd hListens.2 hv
      · obtain ⟨e'', he'', hServes⟩ := h.served e' hIn v handler' hListens
        refine ⟨e'', (hMem e'').mpr (.inr ⟨he'', fun hId => ?_⟩), ?_⟩
        · -- the entry that serves `v` has a driver, the new one's had none
          have hEq := eq_of_id_eq h.registry.distinctIds he'' (mem_of_find hFind)
            (hId.trans (find_some hFind).1.symm)
          obtain ⟨⟨d', hd', -⟩, -⟩ := hServes
          rw [hEq, hVacant] at hd'
          cases hd'
        · change Listens e'' v (w.idt v)
          rw [hReg.idt, if_neg hv]
          exact hServes

/-- What is detached is the entry that `find` finds. -/
theorem detachesShared_iff (h : VectorInv s) {id : Nat} {e : RegistryEntry Instance}
    (hFind : s.mgr.find id = some e) :
    DetachesShared s (.detach id) ↔ ∃ v handler handler', Listens e v handler ∧
      ∃ e' ∈ s.mgr.devices, e'.device.id ≠ id ∧ Listens e' v handler' := by
  constructor
  · rintro ⟨_, v, handler, handler', hOp, ⟨e₁, he₁, hId, hListens⟩, hOther⟩
    cases hOp
    have hEq := eq_of_id_eq h.registry.distinctIds he₁ (mem_of_find hFind)
      (hId.trans (find_some hFind).1.symm)
    exact ⟨v, handler, handler', hEq ▸ hListens, hOther⟩
  · rintro ⟨v, handler, handler', hListens, hOther⟩
    exact ⟨id, v, handler, handler', rfl, ⟨e, mem_of_find hFind, (find_some hFind).1, hListens⟩, hOther⟩

/-- A PS/2 driver is detached: its vectors fall back to the default handler, which breaks
the devices that share one. -/
theorem vacate_served_iff (h : VectorInv s) {id : Nat} {e : RegistryEntry Instance} {d : Instance}
    {w : World} (hFind : s.mgr.find id = some e) (hDriver : e.driver = some d)
    (hKind : d.kind.irqHandler ≠ none) (hUn : Unregistered d s.world w) :
    Served ⟨{ s.mgr with devices := setDriver id none s.mgr.devices }, w, s.handed⟩ ↔
      ¬ DetachesShared s (.detach id) := by
  have hMem : ∀ e', e' ∈ setDriver id none s.mgr.devices ↔
      e' = { e with driver := none } ∨ (e' ∈ s.mgr.devices ∧ e'.device.id ≠ id) := fun e' =>
    mem_setDriver h.registry.distinctIds hFind
  have hOwn := h.own e (mem_of_find hFind) d hDriver hKind
  have hOccupied : ∀ e' v handler, e' ∈ setDriver id none s.mgr.devices → Listens e' v handler →
      e' ∈ s.mgr.devices ∧ e'.device.id ≠ id := by
    rintro e' v handler he' ⟨⟨d', hd', -⟩, -⟩
    refine ((hMem e').mp he').resolve_left fun hEq => ?_
    rw [hEq] at hd'
    cases hd'
  rw [h.detachesShared_iff hFind]
  constructor
  · rintro hServed ⟨v, handler, handler', hListens, e', he', hId, hListens'⟩
    -- the sharing device is left with the default handler
    have hDefault : w.idt v = .defaultIrq := by
      rw [hUn.idt, if_pos ((hOwn v).mpr hListens.2)]
    obtain ⟨e'', -, ⟨⟨d'', -, hHandler⟩, -⟩⟩ :=
      hServed e' ((hMem e').mpr (.inr ⟨he', hId⟩)) v handler' hListens'
    exact irqHandler_ne_default hHandler hDefault
  · intro hNot e' he' v handler' hListens'
    obtain ⟨hIn, hId⟩ := hOccupied e' v handler' he' hListens'
    have hApart : v ∉ interrupts e.device.info := by
      intro hv
      obtain ⟨handler, hHandler⟩ := Option.ne_none_iff_exists'.mp hKind
      exact hNot ⟨v, handler, handler', ⟨⟨d, hDriver, hHandler⟩, hv⟩, e', hIn, hId, hListens'⟩
    obtain ⟨e'', he'', hServes⟩ := h.served e' hIn v handler' hListens'
    refine ⟨e'', (hMem e'').mpr (.inr ⟨he'', fun hId'' => hApart ?_⟩), ?_⟩
    · have hEq := eq_of_id_eq h.registry.distinctIds he'' (mem_of_find hFind)
        (hId''.trans (find_some hFind).1.symm)
      exact hEq ▸ hServes.2
    · change Listens e'' v (w.idt v)
      rw [hUn.idt, if_neg fun hv => hApart ((hOwn v).mp hv)]
      exact hServes

theorem vacate (h : VectorInv s) {id : Nat} {e : RegistryEntry Instance} {d : Instance} {w : World}
    (hFind : s.mgr.find id = some e) (hDriver : e.driver = some d) (hUn : Unregistered d s.world w)
    (hServed : Served ⟨{ s.mgr with devices := setDriver id none s.mgr.devices }, w, s.handed⟩) :
    VectorInv ⟨{ s.mgr with devices := setDriver id none s.mgr.devices }, w, s.handed⟩ := by
  obtain ⟨hRegistry, hOut⟩ := h.registry.vacate w hFind hDriver
  refine ⟨hRegistry, fun d' hd' => ?_, fun d' v hv => ?_, fun e' he' d' hd' hPs2 => ?_, hServed⟩
  · by_cases hEq : d' = d
    · exact hEq ▸ hUn.own
    · rw [hUn.others d' hEq]
      exact h.fresh d' hd'
  · by_cases hEq : d' = d
    · rw [hEq, hUn.own] at hv
      cases hv
    · rw [hUn.others d' hEq] at hv
      exact h.indexable d' v hv
  · have hNe : d' ≠ d := fun hEq => hOut (hEq ▸ List.mem_filterMap.mpr ⟨e', he', hd'⟩)
    rcases (mem_setDriver h.registry.distinctIds hFind).mp he' with rfl | ⟨hIn, -⟩
    · cases hd'
    · rw [hUn.others d' hNe]
      exact h.own e' hIn d' hd' hPs2

/-- **One operation.** From a served state, an operation leads to a served state exactly
when it does not detach a shared vector, and then the invariant goes on. -/
theorem step_served_iff {op : Op Instance} (h : VectorInv s) (hCall : callStep s op = some s') :
    (Served s' ↔ ¬ DetachesShared s op) ∧ (Served s' → VectorInv s') := by
  obtain ⟨hStep, hNoMerge⟩ := callStep_eq hCall
  have hRegistry := h.registry.step hStep
  -- operations that detach nothing keep the invariant
  have hKeep : VectorInv s' → ¬ DetachesShared s op →
      (Served s' ↔ ¬ DetachesShared s op) ∧ (Served s' → VectorInv s') := fun hInv hNot =>
    ⟨⟨fun _ => hNot, fun _ => hInv.served⟩, fun _ => hInv⟩
  cases op with
  | merge info => exact absurd rfl (hNoMerge info)
  | register info =>
    obtain rfl := Option.some.inj hStep
    refine hKeep (h.same hRegistry (fun _ hd => hd) (fun e he => ?_) ⟨rfl, rfl⟩)
      (not_detachesShared_register s info)
    simp only [registerDevice, List.mem_append, List.mem_singleton]
    refine ⟨fun hIn => hIn.resolve_right fun hEq => ?_, .inl⟩
    obtain ⟨d, hd, -⟩ := he
    rw [hEq] at hd
    cases hd
  | attach id d =>
    refine hKeep ?_ (not_detachesShared_attach s id d)
    obtain ⟨hNew, mgr, w, hAttach, rfl⟩ := ReadOnlyDriver.attach_step hStep
    have hRefused : ∀ w, SameVectors s.world w → VectorInv ⟨s.mgr, w, d :: s.handed⟩ := fun w hSame =>
      h.same (h.registry.refuse w d) (fun _ hd => List.mem_cons_of_mem _ hd) (fun _ _ => Iff.rfl) hSame
    cases hAttach with
    | refused => exact hRefused _ ⟨rfl, rfl⟩
    | probeFailed e msg w' hProbe => exact hRefused _ (probe_world hProbe ▸ ⟨rfl, rfl⟩)
    | startFailed e msg w' w'' hProbe hStart =>
      rw [probe_world hProbe] at hStart
      refine hRefused _ (start_sameVectors ?_ hStart)
      exact irqHandler_none_of_start_error hStart
    | attached e w' w'' hFind hVacant hProbe hStart =>
      rw [probe_world hProbe] at hStart
      cases hKind : d.kind.irqHandler with
      | some handler => exact h.assign hFind hVacant hNew hKind (start_registered hKind hStart)
      | none =>
        refine h.same hRegistry (fun _ hd => List.mem_cons_of_mem _ hd) ?_
          (start_sameVectors hKind hStart)
        refine entries_setDriver h.registry hFind (fun hPs2 => ?_) (fun hPs2 => ?_)
        · obtain ⟨d', hd', -⟩ := hPs2
          rw [hVacant] at hd'
          cases hd'
        · obtain ⟨d', hd', hSome⟩ := hPs2
          cases hd'
          exact hSome hKind
  | detach id =>
    obtain ⟨mgr, w, hDetach, rfl⟩ := ReadOnlyDriver.detach_step hStep
    cases hDetach with
    | noDevice hFind =>
      refine hKeep h ?_
      rintro ⟨_, v, handler, handler', hOp, ⟨e, he, hId, -⟩, -⟩
      cases hOp
      rw [← hId, find_of_mem h.registry.distinctIds he] at hFind
      cases hFind
    | vacant e hFind hVacant =>
      refine hKeep h fun hShared => ?_
      obtain ⟨v, handler, handler', ⟨⟨d, hd, -⟩, -⟩, -⟩ := (h.detachesShared_iff hFind).mp hShared
      rw [hVacant] at hd
      cases hd
    | detached e d w' w'' hFind hDriver hStop hRelease =>
      by_cases hKind : d.kind.irqHandler = none
      · have hBefore : ¬ HasPs2 e := by
          rintro ⟨d', hd', hSome⟩
          rw [hDriver] at hd'
          cases hd'
          exact hSome hKind
        refine hKeep (h.same hRegistry (fun _ hd => hd) ?_
          (detach_sameVectors hKind hStop hRelease)) fun hShared => ?_
        · refine entries_setDriver h.registry hFind hBefore fun hPs2 => ?_
          obtain ⟨d', hd', -⟩ := hPs2
          cases hd'
        · obtain ⟨v, handler, handler', hListens, -⟩ := (h.detachesShared_iff hFind).mp hShared
          exact hBefore hListens.hasPs2
      · have hUn := detach_unregistered hKind hStop hRelease
        exact ⟨h.vacate_served_iff hFind hDriver hKind hUn, h.vacate hFind hDriver hUn⟩

end VectorInv

-- ---------------------------------------------------------------------------
-- Runs
-- ---------------------------------------------------------------------------

/-- Detaching a shared vector does not fail: what was registered can be unregistered. -/
theorem detachesShared_enabled {s : Sys Instance World} {op : Op Instance} (h : VectorInv s)
    (hShared : DetachesShared s op) : ∃ s', callStep s op = some s' := by
  obtain ⟨id, v, handler, -, rfl, ⟨e, he, rfl, ⟨d, hDriver, hKind⟩, -⟩, -⟩ := hShared
  have hIdx := h.indexable d
  have hStop : ∀ w : World, w.registeredVectors d = s.world.registeredVectors d →
      ∃ idt, ps2Stop d w = some { w with idt := idt } := by
    intro w hw
    obtain ⟨idt, hLoop⟩ := foldlM_unregister_isSome (hw ▸ hIdx) w.idt
    exact ⟨idt, by rw [ps2Stop, hLoop]; rfl⟩
  obtain ⟨idt, hFirst⟩ := hStop s.world rfl
  obtain ⟨idt', hSecond⟩ := hStop { s.world with idt := idt } rfl
  have hFind := find_of_mem h.registry.distinctIds he
  cases hk : d.kind with
  | ps2kbd =>
    simp [callStep, Sys.step, detachDriver, hFind, hDriver, driver, ReadOnlyDriver.toDriver,
      readOnly, hk, ps2Release, hFirst, hSecond]
  | ps2mouse =>
    simp [callStep, Sys.step, detachDriver, hFind, hDriver, driver, ReadOnlyDriver.toDriver,
      readOnly, hk, mouseRelease, ps2Release, hFirst, hSecond]
  | vbeVga => simp [hk, Kind.irqHandler] at hKind

/-- **Interrupt handlers over runs.** In a run of registrations, attaches and detaches, all
vectors of PS/2 devices are served after every operation exactly when no operation
detaches a PS/2 driver whose device shares a vector with another one's. -/
theorem irqHandlers_served_iff {w : World} (hw : w.Fresh) (ops : List (Op Instance)) :
    (∀ before op t, before ++ [op] <+: ops →
      run callStep (Sys.start w) (before ++ [op]) = some t → Served t) ↔
    ∀ before op t, before ++ [op] <+: ops →
      run callStep (Sys.start w) before = some t → ¬ DetachesShared t op := by
  refine run_prefixes_iff callStep (VectorInv.start hw) ?_ ?_ ?_
  · exact fun s h op _ t hStep => (h.step_served_iff hStep).1
  · intro s h op _ t hStep hNot
    obtain ⟨hIff, hNext⟩ := h.step_served_iff hStep
    exact hNext (hIff.mpr hNot)
  · exact fun s h op hNot => detachesShared_enabled h (not_not.mp hNot)

def kbdInfo : DeviceInfo := ⟨0xffff, 0xffff, 0x09, 0, 0, [⟨.interrupt 33, 0, 0⟩], [], "PS/2 Keyboard"⟩

/-- Keyboard and mouse on their own vectors. -/
def ownVectors : List (Op Instance) :=
  [.register kbdInfo, .register mouseInfo, .attach 1 ⟨.ps2kbd, 0⟩, .attach 2 ⟨.ps2mouse, 1⟩]

theorem irqHandlers_served_ownVectors :
    (World.boot fun _ => none).Fresh ∧ ∀ before op t, before ++ [op] <+: ownVectors →
      run callStep (Sys.start (World.boot fun _ => none)) (before ++ [op]) = some t → Served t := by
  have hFresh := World.boot_fresh fun _ => none
  refine ⟨hFresh, (irqHandlers_served_iff hFresh ownVectors).mpr ?_⟩
  rintro before op t hPre - ⟨id, v, handler, handler', rfl, -⟩
  have hIn : Op.detach id ∈ ownVectors := hPre.subset (by simp)
  simp [ownVectors] at hIn

/-- A keyboard and a mouse on vector 33; the mouse is detached. -/
def sharedVector : List (Op Instance) :=
  [.register kbdInfo, .register kbdInfo, .attach 1 ⟨.ps2kbd, 0⟩, .attach 2 ⟨.ps2mouse, 1⟩, .detach 2]

/-- The keyboard is still attached, but its vector is back to the default handler. -/
theorem sharedVector_unserved : ∃ s,
    run callStep (Sys.start (World.boot fun _ => none)) sharedVector = some s ∧ ¬ Served s := by
  have hSome : (run callStep (Sys.start (World.boot fun _ => none)) sharedVector).isSome = true := by
    decide
  refine ⟨_, (Option.some_get hSome).symm, fun hServed => ?_⟩
  obtain ⟨e, -, ⟨d, -, hHandler⟩, -⟩ :=
    hServed ⟨⟨1, kbdInfo⟩, some ⟨.ps2kbd, 0⟩⟩ (List.mem_cons_self ..) 33 .kbd
      ⟨⟨_, rfl, rfl⟩, by decide⟩
  exact irqHandler_ne_default hHandler rfl

end Neutrix.Drivers
