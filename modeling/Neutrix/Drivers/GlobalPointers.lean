import Neutrix.Drivers.Attachable

/-!
# Neutrix — the global driver pointers

`ACTIVE_VBE_PTR` and `GLOBAL_PS2MOUSE_INSTANCE` are raw pointers into boxes
the registry owns. They are set in `start` and cleared in `stop` (if they
point to the stopped driver) or `release` (whatever they point to). Both
rules are safe: a pointer is only set by a `start` that succeeds, so it
moves to an instance that is attached when the call returns, and the only
way out of the registry passes through the clearing code of that instance.

- `global_pointers_attached` — after every operation each pointer is null
  or refers to an attached instance of its type, the VBE driver started.
-/

namespace Neutrix.Drivers

open Neutrix.Lib
open Neutrix.DeviceManager

-- ---------------------------------------------------------------------------
-- What the callbacks do to the pointers
-- ---------------------------------------------------------------------------

/-- Nothing the pointers depend on has changed. -/
structure SamePointers (w w' : World) : Prop where
  active : w'.activeVbe = w.activeVbe
  mouse  : w'.globalPs2Mouse = w.globalPs2Mouse
  vbe    : w'.vbe = w.vbe

theorem SamePointers.refl (w : World) : SamePointers w w := ⟨rfl, rfl, rfl⟩

theorem SamePointers.trans {w w' w'' : World} (h : SamePointers w w') (h' : SamePointers w' w'') :
    SamePointers w w'' :=
  ⟨h'.active.trans h.active, h'.mouse.trans h.mouse, h'.vbe.trans h.vbe⟩

/-- A loop of steps that keep the pointers. -/
theorem samePointers_foldlM {α : Type*} {f : World → α → Option World} {as : List α} {w w' : World}
    (hStep : ∀ w a w', f w a = some w' → SamePointers w w') (h : as.foldlM f w = some w') :
    SamePointers w w' := by
  rw [foldlM_eq_run] at h
  exact run_invariant f (P := SamePointers w) (fun _ _ _ hs hf => hs.trans (hStep _ _ _ hf))
    (SamePointers.refl w) h

theorem registerVector_same {d : Instance} {handler : Handler} {w w' : World} {vector : UInt8}
    (h : registerVector d handler w vector = some w') : SamePointers w w' := by
  obtain ⟨idt, -, rfl⟩ := Option.map_eq_some_iff.mp h
  exact ⟨rfl, rfl, rfl⟩

theorem kbdStart_same {d : Instance} {info : DeviceInfo} {w w' : World}
    (h : kbdStart d info w = some w') : SamePointers w w' :=
  samePointers_foldlM (fun _ _ _ => registerVector_same) h

/-- The mouse driver's `start` points the instance pointer to itself. -/
theorem mouseStart_pointers {d : Instance} {info : DeviceInfo} {w w' : World}
    (h : mouseStart d info w = some w') :
    w'.activeVbe = w.activeVbe ∧ w'.vbe = w.vbe ∧ w'.globalPs2Mouse = some d := by
  obtain ⟨v, hLoop, rfl⟩ := Option.map_eq_some_iff.mp h
  have hSame : SamePointers w v := by
    refine samePointers_foldlM (fun u vector u' hu => ?_) hLoop
    obtain ⟨u₁, hReg, rfl⟩ := Option.map_eq_some_iff.mp hu
    have hReg' := registerVector_same hReg
    exact ⟨hReg'.active, hReg'.mouse, hReg'.vbe⟩
  exact ⟨hSame.active, hSame.vbe, rfl⟩

theorem ps2Stop_same {d : Instance} {w w' : World} (h : ps2Stop d w = some w') :
    SamePointers w w' := by
  obtain ⟨idt, -, rfl⟩ := Option.map_eq_some_iff.mp h
  exact ⟨rfl, rfl, rfl⟩

theorem ps2Release_same {d : Instance} {w w' : World} (h : ps2Release d w = some w') :
    SamePointers w w' := by
  obtain ⟨v, hStop, rfl⟩ := Option.map_eq_some_iff.mp h
  have hSame := ps2Stop_same hStop
  exact ⟨hSame.active, hSame.mouse, hSame.vbe⟩

/-- The mouse driver's `release` clears the instance pointer. -/
theorem mouseRelease_pointers {d : Instance} {w w' : World} (h : mouseRelease d w = some w') :
    w'.activeVbe = w.activeVbe ∧ w'.vbe = w.vbe ∧ w'.globalPs2Mouse = none := by
  obtain ⟨v, hRelease, rfl⟩ := Option.map_eq_some_iff.mp h
  have hSame := ps2Release_same hRelease
  exact ⟨hSame.active, hSame.vbe, rfl⟩

/-- The VBE driver's `start` points the active pointer to itself, as the last thing
before it succeeds. -/
theorem vbeStart_pointers {d : Instance} {info : DeviceInfo} {w w' : World}
    {r : Except String Unit} (h : vbeStart d info w = some (r, w')) :
    w'.globalPs2Mouse = w.globalPs2Mouse ∧
      ((∃ msg, r = .error msg ∧ SamePointers w w') ∨
        (r = .ok () ∧ w'.activeVbe = some d ∧ (w'.vbe d).started = true ∧
          ∀ d', d' ≠ d → w'.vbe d' = w.vbe d')) := by
  cases vbeStart_cases h with
  | again => exact ⟨rfl, .inl ⟨_, rfl, SamePointers.refl w⟩⟩
  | failed => exact ⟨rfl, .inl ⟨_, rfl, rfl, rfl, rfl⟩⟩
  | noBars => exact ⟨rfl, .inl ⟨_, rfl, rfl, rfl, rfl⟩⟩
  | started created pages fbInfo =>
    refine ⟨rfl, .inr ⟨rfl, rfl, ?_, fun d' hd' => ?_⟩⟩
    · simp
    · exact Function.update_of_ne hd' _ _

/-- A started VBE driver that stops is no longer active; the others keep their state. -/
theorem vbeStop_pointers {d : Instance} {w w' : World} (h : vbeStop d w = some w') :
    w'.globalPs2Mouse = w.globalPs2Mouse ∧ (∀ d', d' ≠ d → w'.vbe d' = w.vbe d') ∧
      ((w.vbe d).started = false ∧ w' = w ∨
        w'.activeVbe = if w.activeVbe = some d then none else w.activeVbe) := by
  unfold vbeStop at h
  cases hStarted : (w.vbe d).started with
  | false =>
    simp only [hStarted, Bool.not_false, if_true, Option.some.injEq] at h
    subst h
    exact ⟨rfl, fun _ _ => rfl, .inl ⟨rfl, rfl⟩⟩
  | true =>
    simp only [hStarted, Bool.not_true, Bool.false_eq_true, if_false, Option.map_eq_some_iff] at h
    obtain ⟨pages, -, rfl⟩ := h
    exact ⟨rfl, fun d' hd' => Function.update_of_ne hd' _ _, .inr rfl⟩

-- ---------------------------------------------------------------------------
-- Attach and detach
-- ---------------------------------------------------------------------------

theorem probe_world {d : Instance} {dev : Device} {w w' : World} {r : Except String Unit}
    (h : readOnly.probe d dev w = some (r, w')) : w' = w := by
  simp only [readOnly] at h
  split at h <;> cases h <;> rfl

/-- After a failed `start` the pointers are as they were. -/
theorem start_error_same {d : Instance} {dev : Device} {w w' : World} {msg : String}
    (h : readOnly.start d dev w = some (.error msg, w')) : SamePointers w w' := by
  cases start_of_eq h with
  | vbeVga _ _ _ hStart =>
    obtain ⟨-, ⟨_, -, hSame⟩ | ⟨hOk, -⟩⟩ := vbeStart_pointers hStart
    · exact hSame
    · cases hOk

/-- What a successful `start` of `d` does: the pointer of its kind may move to it. -/
structure Started (d : Instance) (w w' : World) : Prop where
  active : ∀ d', w'.activeVbe = some d' → d' = d ∧ d.kind = .vbeVga ∨ w.activeVbe = some d'
  mouse  : ∀ d', w'.globalPs2Mouse = some d' →
    d' = d ∧ d.kind = .ps2mouse ∨ w.globalPs2Mouse = some d'
  own    : d.kind = .vbeVga → (w'.vbe d).started = true
  others : ∀ d', d' ≠ d → w'.vbe d' = w.vbe d'

theorem start_started {d : Instance} {dev : Device} {w w' : World}
    (h : readOnly.start d dev w = some (.ok (), w')) : Started d w w' := by
  cases start_of_eq h with
  | ps2kbd _ hKind hKbd =>
    have hSame := kbdStart_same hKbd
    exact ⟨fun d' hd' => .inr (hSame.active ▸ hd'), fun d' hd' => .inr (hSame.mouse ▸ hd'),
      fun hVbe => by simp [hKind] at hVbe, fun d' _ => by rw [hSame.vbe]⟩
  | ps2mouse _ hKind hMouse =>
    obtain ⟨hActive, hVbes, hInstance⟩ := mouseStart_pointers hMouse
    refine ⟨fun d' hd' => .inr (hActive ▸ hd'), fun d' hd' => .inl ?_,
      fun hVbe => by simp [hKind] at hVbe, fun d' _ => by rw [hVbes]⟩
    rw [hInstance] at hd'
    exact ⟨(Option.some.inj hd').symm, hKind⟩
  | vbeVga _ _ hKind hStart =>
    obtain ⟨hInstance, ⟨_, hErr, -⟩ | ⟨-, hActive, hStarted, hOthers⟩⟩ := vbeStart_pointers hStart
    · cases hErr
    refine ⟨fun d' hd' => .inl ?_, fun d' hd' => .inr (hInstance ▸ hd'), fun _ => hStarted, hOthers⟩
    rw [hActive] at hd'
    exact ⟨(Option.some.inj hd').symm, hKind⟩

/-- What `stop` and `release` of `d` do: the pointer of its kind is not left on it. -/
structure Stopped (d : Instance) (w w' : World) : Prop where
  active : ∀ d', w'.activeVbe = some d' → w.activeVbe = some d' ∧ (d.kind = .vbeVga → d' ≠ d)
  mouse  : ∀ d', w'.globalPs2Mouse = some d' →
    w.globalPs2Mouse = some d' ∧ (d.kind = .ps2mouse → d' ≠ d)
  others : ∀ d', d' ≠ d → w'.vbe d' = w.vbe d'

theorem vbeStop_stopped {d : Instance} {w w' : World} (hKind : d.kind = .vbeVga)
    (hStarted : (w.vbe d).started = true) (h : vbeStop d w = some w') : Stopped d w w' := by
  obtain ⟨hMouse, hOthers, ⟨hNot, -⟩ | hActive⟩ := vbeStop_pointers h
  · rw [hStarted] at hNot
    cases hNot
  refine ⟨fun d' hd' => ?_, fun d' hd' => ⟨hMouse ▸ hd', fun hNot => ?_⟩, hOthers⟩
  · rw [hActive] at hd'
    split_ifs at hd' with hOwn
    exact ⟨hd', fun _ hEq => hOwn (hEq ▸ hd')⟩
  · rw [hKind] at hNot
    cases hNot

theorem stop_release_stopped {d : Instance} {dev : Device} {w w' w'' : World}
    (hStarted : d.kind = .vbeVga → (w.vbe d).started = true)
    (hStop : readOnly.stop d dev w = some w') (hRelease : readOnly.release d dev w' = some w'') :
    Stopped d w w'' := by
  cases stopRelease_of_eq hStop hRelease with
  | ps2kbd hKind hStop hRelease =>
    have hSame := (ps2Stop_same hStop).trans (ps2Release_same hRelease)
    refine ⟨fun d' hd' => ⟨hSame.active ▸ hd', fun hNot => ?_⟩,
      fun d' hd' => ⟨hSame.mouse ▸ hd', fun hNot => ?_⟩, fun d' _ => by rw [hSame.vbe]⟩
    · simp [hKind] at hNot
    · simp [hKind] at hNot
  | ps2mouse hKind hStop hRelease =>
    have hSame := ps2Stop_same hStop
    obtain ⟨hActive, hVbes, hInstance⟩ := mouseRelease_pointers hRelease
    refine ⟨fun d' hd' => ⟨hSame.active ▸ hActive ▸ hd', fun hNot => ?_⟩, fun d' hd' => ?_,
      fun d' _ => by rw [hVbes, hSame.vbe]⟩
    · simp [hKind] at hNot
    · simp [hInstance] at hd'
  | vbeVga hKind hStop hRelease =>
    have hFirst := vbeStop_stopped hKind (hStarted hKind) hStop
    -- the second `stop` changes no other instance and sets no pointer
    obtain ⟨hMouse, hOthers, hActive⟩ := vbeStop_pointers hRelease
    have hBack : ∀ d', w''.activeVbe = some d' → w'.activeVbe = some d' := by
      intro d' hd'
      rcases hActive with ⟨-, rfl⟩ | hActive
      · exact hd'
      · rw [hActive] at hd'
        split_ifs at hd'
        exact hd'
    exact ⟨fun d' hd' => hFirst.active d' (hBack d' hd'),
      fun d' hd' => hFirst.mouse d' (hMouse ▸ hd'),
      fun d' hd' => (hOthers d' hd').trans (hFirst.others d' hd')⟩

-- ---------------------------------------------------------------------------
-- The invariant
-- ---------------------------------------------------------------------------

/-- The pointers and the registry. -/
structure Pointers (s : Sys Instance World) : Prop where
  registry : Registry s
  started  : ∀ d ∈ drivers s.mgr.devices, d.kind = .vbeVga → (s.world.vbe d).started = true
  active   : ∀ d, s.world.activeVbe = some d → d.kind = .vbeVga ∧ d ∈ drivers s.mgr.devices
  mouse    : ∀ d, s.world.globalPs2Mouse = some d → d.kind = .ps2mouse ∧ d ∈ drivers s.mgr.devices

namespace Pointers

variable {s s' : Sys Instance World}

theorem start {w : World} (hw : w.Fresh) : Pointers (Sys.start w) where
  registry := Registry.start w
  started d hd := nomatch hd
  active d hd := by simp [Sys.start, hw.active] at hd
  mouse d hd := by simp [Sys.start, hw.mouse] at hd

/-- An operation that keeps instances and pointers. -/
theorem same (h : Pointers s) (hRegistry : Registry s')
    (hDrivers : drivers s'.mgr.devices = drivers s.mgr.devices)
    (hSame : SamePointers s.world s'.world) : Pointers s' where
  registry := hRegistry
  started d hd hKind := by rw [hSame.vbe]; exact h.started d (hDrivers ▸ hd) hKind
  active d hd := by rw [hDrivers]; exact h.active d (hSame.active ▸ hd)
  mouse d hd := by rw [hDrivers]; exact h.mouse d (hSame.mouse ▸ hd)

theorem assign (h : Pointers s) (hRegistry : Registry s') {d : Instance}
    (hNew : d ∉ drivers s.mgr.devices)
    (hDrivers : ∀ d', d' ∈ drivers s'.mgr.devices ↔ d' = d ∨ d' ∈ drivers s.mgr.devices)
    (hStart : Started d s.world s'.world) : Pointers s' where
  registry := hRegistry
  started d' hd' hKind := by
    rcases (hDrivers d').mp hd' with rfl | hOld
    · exact hStart.own hKind
    · rw [hStart.others d' fun hEq => hNew (hEq ▸ hOld)]
      exact h.started d' hOld hKind
  active d' hd' := by
    rw [hDrivers]
    rcases hStart.active d' hd' with ⟨rfl, hKind⟩ | hOld
    · exact ⟨hKind, .inl rfl⟩
    · exact (h.active d' hOld).imp_right .inr
  mouse d' hd' := by
    rw [hDrivers]
    rcases hStart.mouse d' hd' with ⟨rfl, hKind⟩ | hOld
    · exact ⟨hKind, .inl rfl⟩
    · exact (h.mouse d' hOld).imp_right .inr

theorem vacate (h : Pointers s) (hRegistry : Registry s') {d : Instance}
    (hOut : d ∉ drivers s'.mgr.devices)
    (hDrivers : ∀ d', d' ∈ drivers s.mgr.devices ↔ d' = d ∨ d' ∈ drivers s'.mgr.devices)
    (hStop : Stopped d s.world s'.world) : Pointers s' where
  registry := hRegistry
  started d' hd' hKind := by
    rw [hStop.others d' fun hEq => hOut (hEq ▸ hd')]
    exact h.started d' ((hDrivers d').mpr (.inr hd')) hKind
  active d' hd' := by
    obtain ⟨hOld, hNe⟩ := hStop.active d' hd'
    obtain ⟨hKind, hIn⟩ := h.active d' hOld
    exact ⟨hKind, ((hDrivers d').mp hIn).resolve_left fun hEq => hNe (hEq ▸ hKind) hEq⟩
  mouse d' hd' := by
    obtain ⟨hOld, hNe⟩ := hStop.mouse d' hd'
    obtain ⟨hKind, hIn⟩ := h.mouse d' hOld
    exact ⟨hKind, ((hDrivers d').mp hIn).resolve_left fun hEq => hNe (hEq ▸ hKind) hEq⟩

theorem step {op : Op Instance} (h : Pointers s) (hStep : s.step driver op = some s') :
    Pointers s' := by
  have hRegistry := h.registry.step hStep
  cases op with
  | register info =>
    obtain rfl := Option.some.inj hStep
    exact h.same hRegistry (by simp [registerDevice, drivers]) (SamePointers.refl _)
  | merge info =>
    obtain rfl := Option.some.inj hStep
    refine h.same hRegistry ?_ (SamePointers.refl _)
    exact drivers_mergeOrRegister s.mgr info
  | attach id d =>
    obtain ⟨hNew, mgr, w, hAttach, rfl⟩ := ReadOnlyDriver.attach_step hStep
    cases hAttach with
    | refused => exact h.same hRegistry rfl (SamePointers.refl _)
    | probeFailed e msg w' hProbe =>
      exact h.same hRegistry rfl (probe_world hProbe ▸ SamePointers.refl _)
    | startFailed e msg w' w'' hProbe hStart =>
      rw [probe_world hProbe] at hStart
      exact h.same hRegistry rfl (start_error_same hStart)
    | attached e w' w'' hFind hVacant hProbe hStart =>
      rw [probe_world hProbe] at hStart
      exact h.assign hRegistry (fun hIn => hNew (h.registry.handedOver d hIn))
        (mem_drivers_assign hFind hVacant) (start_started hStart)
  | detach id =>
    obtain ⟨mgr, w, hDetach, rfl⟩ := ReadOnlyDriver.detach_step hStep
    cases hDetach with
    | noDevice => exact h
    | vacant => exact h
    | detached e d w' w'' hFind hDriver hStop hRelease =>
      have hDrivers := mem_drivers_vacate hFind hDriver
      have hStarted := h.started d ((hDrivers d).mpr (.inl rfl))
      exact h.vacate hRegistry (h.registry.vacate w hFind hDriver).2 hDrivers
        (stop_release_stopped hStarted hStop hRelease)

end Pointers

/-- **The global pointers are never stale.** In every run, `ACTIVE_VBE_PTR` is null or
refers to an attached and started VBE driver, `GLOBAL_PS2MOUSE_INSTANCE` is null or
refers to an attached mouse driver, and neither refers to an instance that was
handed over and is no longer in the registry. -/
theorem global_pointers_attached {w : World} (hw : w.Fresh) {ops : List (Op Instance)}
    {s : Sys Instance World} (hRun : run (Sys.step driver) (Sys.start w) ops = some s) :
    (∀ d, s.world.activeVbe = some d →
      d.kind = .vbeVga ∧ d ∈ drivers s.mgr.devices ∧ (s.world.vbe d).started = true) ∧
    (∀ d, s.world.globalPs2Mouse = some d → d.kind = .ps2mouse ∧ d ∈ drivers s.mgr.devices) ∧
    (∀ d ∈ s.handed, d ∉ drivers s.mgr.devices →
      s.world.activeVbe ≠ some d ∧ s.world.globalPs2Mouse ≠ some d) := by
  have h : Pointers s := run_invariant _ (fun _ _ _ hs hStep => hs.step hStep) (Pointers.start hw) hRun
  refine ⟨fun d hd => ?_, h.mouse, fun d _ hOut => ⟨fun hd => ?_, fun hd => ?_⟩⟩
  · obtain ⟨hKind, hIn⟩ := h.active d hd
    exact ⟨hKind, hIn, h.started d hIn hKind⟩
  · exact hOut (h.active d hd).2
  · exact hOut (h.mouse d hd).2

/-- A display controller with one page of memory. -/
def displayInfo : DeviceInfo :=
  ⟨0x1234, 0x1111, 0x03, 0, 0, [⟨.memoryMapped, 0xE0000000, 0x1000⟩], [], "PCI 00:02.0"⟩

def mouseInfo : DeviceInfo :=
  ⟨0xffff, 0xffff, 0x09, 0, 0, [⟨.interrupt 44, 0, 0⟩], [], "PS/2 Mouse"⟩

/-- A display and two mice; the mouse that came first is detached again. -/
def pointerOps : List (Op Instance) :=
  [.register displayInfo, .register mouseInfo, .register mouseInfo, .attach 1 ⟨.vbeVga, 0⟩,
    .attach 2 ⟨.ps2mouse, 1⟩, .attach 3 ⟨.ps2mouse, 2⟩, .detach 2]

theorem global_pointers_attached_display :
    ((run (Sys.step driver) (Sys.start (World.boot fun _ => none)) pointerOps).any fun s =>
      s.world.activeVbe = some ⟨.vbeVga, 0⟩ && s.world.globalPs2Mouse = none) = true ∧
    ∀ s, run (Sys.step driver) (Sys.start (World.boot fun _ => none)) pointerOps = some s →
      ∀ d, s.world.activeVbe = some d →
        d.kind = .vbeVga ∧ d ∈ drivers s.mgr.devices ∧ (s.world.vbe d).started = true :=
  ⟨by decide, fun _ hRun => (global_pointers_attached (World.boot_fresh _) hRun).1⟩

end Neutrix.Drivers
