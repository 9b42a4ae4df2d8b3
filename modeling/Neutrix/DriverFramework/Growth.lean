import Neutrix.DriverFramework.Attach
import Neutrix.DriverFramework.Merge

/-!
# Neutrix — the registry only grows

The manager takes no device out of the registry and moves none, and it never
changes a device's ids or takes a resource, a capability or a piece of text
out of its description. A driver could, as it can write the description of a
device it is given; `Driver.Additive` says that it does not. `Grows` states
all of it for two states of the registry, and `Sys.run_grows` says that any
run of calls with such drivers makes it grow.

So a description, once merged or registered, stays known (`Known`): the
first device with its ids has everything it says, and adding it again
changes nothing (`add_of_known`). Two properties carry a whole list of
additions: an addition makes its own description known (`known_add`), and no
later call makes one unknown (`Known.grows`).
-/

namespace Neutrix

open Neutrix.Lib

variable {δ ω : Type*}

-- ---------------------------------------------------------------------------
-- One device
-- ---------------------------------------------------------------------------

/-- `info` has everything that `i` says of the device. -/
structure DeviceInfo.Has (info i : DeviceInfo) : Prop where
  resources    : ∀ r ∈ i.resources, r.key ∈ info.resources.map Resource.key
  capabilities : ∀ c ∈ i.capabilities, id c ∈ info.capabilities.map id
  description  : i.description.toList <:+: info.description.toList

namespace DeviceInfo.Has

open DeviceManager

variable {info i : DeviceInfo}

theorem refl (i : DeviceInfo) : i.Has i :=
  ⟨fun _ h => List.mem_map_of_mem h, fun _ h => List.mem_map_of_mem h, List.infix_refl _⟩

/-- Nothing is left to merge. -/
theorem mergeInfo_eq (h : info.Has i) : mergeInfo info i = info := by
  rw [mergeInfo, addResource_eq, addCapability_eq, foldl_addMissing_fixed h.resources,
    foldl_addMissing_fixed h.capabilities, if_pos h.description]

/-- A merge brings in what it merges. -/
theorem merged (info i : DeviceInfo) : (mergeInfo info i).Has i := by
  have hMerged := mergeInfo_merged info i
  obtain ⟨-, -, -, -, -, hResources⟩ := hMerged.resources
  obtain ⟨-, -, -, -, -, hCapabilities⟩ := hMerged.capabilities
  exact ⟨hResources, hCapabilities, description_infix info i⟩

theorem description_kept (info j : DeviceInfo) :
    info.description.toList <:+: (mergeInfo info j).description.toList := by
  unfold mergeInfo
  dsimp only
  split_ifs
  · exact List.infix_refl _
  · rw [String.toList_append, String.toList_append, List.append_assoc]
    exact (List.prefix_append _ _).isInfix

/-- A merge takes nothing away. -/
theorem merge (h : info.Has i) (j : DeviceInfo) : (mergeInfo info j).Has i := by
  have hMerged := mergeInfo_merged info j
  obtain ⟨_, hResources, -⟩ := hMerged.resources
  obtain ⟨_, hCapabilities, -⟩ := hMerged.capabilities
  refine ⟨fun r hr => ?_, fun c hc => ?_, h.description.trans (description_kept info j)⟩
  · rw [hResources, List.map_append]
    exact List.mem_append_left _ (h.resources r hr)
  · rw [hCapabilities, List.map_append]
    exact List.mem_append_left _ (h.capabilities c hc)

end DeviceInfo.Has

/-- The same device, with at least the same things said of it. -/
structure DeviceInfo.Grows (info info' : DeviceInfo) : Prop where
  key : info'.key = info.key
  has : ∀ i, info.Has i → info'.Has i

theorem DeviceInfo.Grows.refl (info : DeviceInfo) : info.Grows info := ⟨rfl, fun _ h => h⟩

theorem DeviceInfo.Grows.trans {info info' info'' : DeviceInfo} (h : info.Grows info')
    (h' : info'.Grows info'') : info.Grows info'' :=
  ⟨h'.key.trans h.key, fun i hi => h'.has i (h.has i hi)⟩

/-- The entry `e'` is `e` at a later time. -/
structure RegistryEntry.Grows (e e' : RegistryEntry δ) : Prop where
  id   : e'.device.id = e.device.id
  info : e.device.info.Grows e'.device.info

namespace RegistryEntry.Grows

theorem refl (e : RegistryEntry δ) : e.Grows e := ⟨rfl, .refl _⟩

theorem trans {e e' e'' : RegistryEntry δ} (h : e.Grows e') (h' : e'.Grows e'') : e.Grows e'' :=
  ⟨h'.id.trans h.id, h.info.trans h'.info⟩

theorem merge (e : RegistryEntry δ) (i : DeviceInfo) : e.Grows (DeviceManager.mergeEntry e i) :=
  ⟨rfl, rfl, fun _ h => h.merge i⟩

theorem driver (e : RegistryEntry δ) (driver : Option δ) : e.Grows { e with driver := driver } :=
  ⟨rfl, .refl _⟩

end RegistryEntry.Grows

/-- The driver's callbacks keep the ids in the description of their device and take nothing
out of it. -/
structure Driver.Additive (drv : Driver δ ω) : Prop where
  probe   : ∀ {d dev w r info w'}, drv.probe d dev w = some (r, info, w') → dev.info.Grows info
  start   : ∀ {d dev w r info w'}, drv.start d dev w = some (r, info, w') → dev.info.Grows info
  stop    : ∀ {d dev w info w'}, drv.stop d dev w = some (info, w') → dev.info.Grows info
  release : ∀ {d dev w info w'}, drv.release d dev w = some (info, w') → dev.info.Grows info

-- ---------------------------------------------------------------------------
-- The registry
-- ---------------------------------------------------------------------------

namespace DeviceManager

variable {mgr mgr' mgr'' : DeviceManager δ} {i : DeviceInfo}

/-- Every device of `mgr` is still in its place. -/
def Grows (mgr mgr' : DeviceManager δ) : Prop :=
  ∀ (k : Nat) (e : RegistryEntry δ), mgr.devices[k]? = some e →
    ∃ e' : RegistryEntry δ, mgr'.devices[k]? = some e' ∧ e.Grows e'

theorem Grows.refl (mgr : DeviceManager δ) : mgr.Grows mgr := fun _ e h => ⟨e, h, .refl e⟩

theorem Grows.trans (h : mgr.Grows mgr') (h' : mgr'.Grows mgr'') : mgr.Grows mgr'' := by
  intro k e hAt
  obtain ⟨e', hAt', hGrows⟩ := h k e hAt
  obtain ⟨e'', hAt'', hGrows'⟩ := h' k e' hAt'
  exact ⟨e'', hAt'', hGrows.trans hGrows'⟩

theorem grows_register (mgr : DeviceManager δ) (i : DeviceInfo) :
    mgr.Grows (mgr.registerDevice i).2 := by
  intro k e hAt
  obtain ⟨hLt, -⟩ := List.getElem?_eq_some_iff.mp hAt
  exact ⟨e, (List.getElem?_append_left hLt).trans hAt, .refl e⟩

/-- One entry grows where it stands. -/
theorem grows_of_split {pre post : List (RegistryEntry δ)} {e e' : RegistryEntry δ}
    (hSplit : mgr.devices = pre ++ e :: post) (hSplit' : mgr'.devices = pre ++ e' :: post)
    (hGrows : e.Grows e') : mgr.Grows mgr' := by
  intro k o hAt
  rw [hSplit] at hAt
  rw [hSplit']
  rcases Nat.lt_trichotomy k pre.length with hLt | rfl | hGt
  · rw [List.getElem?_append_left hLt] at hAt ⊢
    exact ⟨o, hAt, .refl o⟩
  · rw [List.getElem?_append_right (Nat.le_refl _), Nat.sub_self, List.getElem?_cons_zero] at hAt ⊢
    obtain rfl := Option.some.inj hAt
    exact ⟨e', rfl, hGrows⟩
  · obtain ⟨n, rfl⟩ := Nat.exists_eq_add_of_lt hGt
    rw [List.getElem?_append_right (by omega)] at hAt ⊢
    have hBehind : pre.length + n + 1 - pre.length = n + 1 := by omega
    rw [hBehind, List.getElem?_cons_succ] at hAt ⊢
    exact ⟨o, hAt, .refl o⟩

theorem grows_merge (mgr : DeviceManager δ) (i : DeviceInfo) :
    mgr.Grows (mgr.mergeOrRegister i).2 := by
  rcases first_match i mgr.devices with hNone | ⟨pre, e, post, hSplit, hPre, hHere⟩
  · rw [mergeOrRegister_of_none hNone]
    exact .refl mgr
  · rw [mergeOrRegister_of_first hSplit hPre hHere]
    exact grows_of_split hSplit rfl (.merge e i)

theorem grows_setDriver {id : Nat} {e : RegistryEntry δ} (hFind : mgr.find id = some e)
    (driver : Option δ) : mgr.Grows { mgr with devices := setDriver id driver mgr.devices } := by
  obtain ⟨-, pre, post, hSplit, -, hSet⟩ := find_some hFind
  exact grows_of_split hSplit (hSet _) (.driver e driver)

theorem grows_setInfo {id : Nat} {e : RegistryEntry δ} {info : DeviceInfo}
    (hFind : mgr.find id = some e) (h : e.device.info.Grows info) :
    mgr.Grows (mgr.setInfo id info) := by
  obtain ⟨-, pre, post, hSplit, -, hSet⟩ := find_some hFind
  exact grows_of_split hSplit (hSet _) ⟨rfl, h⟩

-- ---------------------------------------------------------------------------
-- Known descriptions
-- ---------------------------------------------------------------------------

/-- The first device with the ids of `i` has everything that `i` says. -/
def Known (mgr : DeviceManager δ) (i : DeviceInfo) : Prop :=
  ∃ e, mgr.devices.find? (fun e => e.key = i.key) = some e ∧ e.device.info.Has i

/-- The same device is still the first, as no entry has changed its ids. -/
theorem Known.grows (hKnown : mgr.Known i) (h : mgr.Grows mgr') : mgr'.Known i := by
  have hKeys : ∀ {e e' : RegistryEntry δ}, e.Grows e' → e'.key = e.key := fun h => h.info.key
  obtain ⟨e, hFirst, hHas⟩ := hKnown
  obtain ⟨hKey, k, hk, hAt, hBefore⟩ := List.find?_eq_some_iff_getElem.mp hFirst
  obtain ⟨e', hAt', hGrows⟩ := h k e (List.getElem?_eq_some_iff.mpr ⟨hk, hAt⟩)
  obtain ⟨hk', hAt'⟩ := List.getElem?_eq_some_iff.mp hAt'
  refine ⟨e', List.find?_eq_some_iff_getElem.mpr ⟨?_, k, hk', hAt', fun j hj => ?_⟩,
    hGrows.info.has i hHas⟩
  · rw [hKeys hGrows]
    exact hKey
  · obtain ⟨o, hO, hSame⟩ := h j mgr.devices[j] (List.getElem?_eq_getElem (hj.trans hk))
    obtain ⟨_, hO⟩ := List.getElem?_eq_some_iff.mp hO
    rw [hO, hKeys hSame]
    exact hBefore j hj

/-- **A known description adds nothing.** -/
theorem add_of_known (h : mgr.Known i) : mgr.add i = mgr := by
  obtain ⟨e, hFirst, hHas⟩ := h
  obtain ⟨hKey, pre, post, hSplit, hPre⟩ := List.find?_eq_some_iff_append.mp hFirst
  have hHere : e.Matches i := RegistryEntry.matches_iff.mpr (of_decide_eq_true hKey)
  have hNot : ∀ e ∈ pre, ¬ e.Matches i := fun e he hMatch => by
    simpa [RegistryEntry.matches_iff.mp hMatch] using hPre e he
  have hSame : mergeEntry e i = e := by
    rw [mergeEntry, hHas.mergeInfo_eq]
  rw [add, mergeOrRegister_of_first hSplit hNot hHere, hSame, ← hSplit]

/-- An addition makes its description known. -/
theorem known_add (mgr : DeviceManager δ) (i : DeviceInfo) : (mgr.add i).Known i := by
  have hNone : ∀ {es : List (RegistryEntry δ)}, (∀ e ∈ es, ¬ e.Matches i) →
      es.find? (fun e => e.key = i.key) = none := fun hNot =>
    List.find?_eq_none.mpr fun e he hKey =>
      hNot e he (RegistryEntry.matches_iff.mpr (of_decide_eq_true hKey))
  rcases first_match i mgr.devices with hNot | ⟨pre, e, post, hSplit, hPre, hHere⟩
  · -- it was registered behind devices with other ids
    rw [add, mergeOrRegister_of_none hNot]
    refine ⟨⟨⟨mgr.nextId, i⟩, none⟩, ?_, .refl i⟩
    show (mgr.devices ++ [_]).find? _ = _
    rw [List.find?_append, hNone hNot, Option.none_or]
    exact List.find?_cons_of_pos (decide_eq_true rfl)
  · -- it was merged into the first device
    rw [add, mergeOrRegister_of_first hSplit hPre hHere]
    refine ⟨mergeEntry e i, ?_, .merged e.device.info i⟩
    show (pre ++ mergeEntry e i :: post).find? _ = _
    rw [List.find?_append, hNone hPre, Option.none_or]
    exact List.find?_cons_of_pos (decide_eq_true (RegistryEntry.matches_iff.mp hHere))

theorem grows_add (mgr : DeviceManager δ) (i : DeviceInfo) : mgr.Grows (mgr.add i) := by
  have hMerge := grows_merge mgr i
  unfold add
  split
  · rename_i mgr' hEq
    rw [hEq] at hMerge
    exact hMerge
  · rename_i mgr' hEq
    rw [hEq] at hMerge
    exact hMerge.trans (grows_register mgr' i)

theorem grows_foldl_add (mgr : DeviceManager δ) (is : List DeviceInfo) :
    mgr.Grows (is.foldl add mgr) := by
  induction is generalizing mgr with
  | nil => exact .refl mgr
  | cons i is ih => exact (grows_add mgr i).trans (ih (mgr.add i))

theorem known_foldl_add (mgr : DeviceManager δ) {is : List DeviceInfo} :
    ∀ i ∈ is, (is.foldl add mgr).Known i := by
  induction is generalizing mgr with
  | nil => exact fun i hi => absurd hi List.not_mem_nil
  | cons j is ih =>
    intro i hi
    rcases List.mem_cons.mp hi with rfl | hRest
    · exact (known_add mgr i).grows (grows_foldl_add (mgr.add i) is)
    · exact ih (mgr.add j) i hRest

theorem foldl_add_of_known {is : List DeviceInfo} (h : ∀ i ∈ is, mgr.Known i) :
    is.foldl add mgr = mgr := by
  induction is with
  | nil => rfl
  | cons i is ih =>
    rw [List.foldl_cons, add_of_known (h i List.mem_cons_self)]
    exact ih fun j hj => h j (List.mem_cons_of_mem i hj)

end DeviceManager

-- ---------------------------------------------------------------------------
-- Runs
-- ---------------------------------------------------------------------------

open DeviceManager

/-- **Step.** -/
theorem Sys.step_grows [DecidableEq δ] {drv : Driver δ ω} (hDrv : drv.Additive) {s s' : Sys δ ω}
    {op : Op δ} (h : s.step drv op = some s') : s.mgr.Grows s'.mgr := by
  cases op with
  | register info => exact Option.some.inj h ▸ grows_register s.mgr info
  | merge info => exact Option.some.inj h ▸ grows_merge s.mgr info
  | attach id d =>
    obtain ⟨-, r, hAttach, rfl⟩ := Sys.attach_step h
    cases hAttach with
    | noDevice | occupied => exact .refl s.mgr
    | probeFailed e msg info w' hFind _ hProbe => exact grows_setInfo hFind (hDrv.probe hProbe)
    | startFailed e msg info info' w' w'' hFind _ hProbe hStart =>
      exact grows_setInfo hFind ((hDrv.probe hProbe).trans (hDrv.start hStart))
    | attached e info info' w' w'' hFind _ hProbe hStart =>
      have hInfo := grows_setInfo hFind ((hDrv.probe hProbe).trans (hDrv.start hStart))
      exact hInfo.trans (grows_setDriver (find_setInfo hFind info') (some d))
  | detach id =>
    obtain ⟨r, hDetach, rfl⟩ := Sys.detach_step h
    cases hDetach with
    | noDevice | vacant => exact .refl s.mgr
    | detached e d info info' w' w'' hFind _ hStop hRelease =>
      have hInfo := grows_setInfo hFind ((hDrv.stop hStop).trans (hDrv.release hRelease))
      exact hInfo.trans (grows_setDriver (find_setInfo hFind info') none)

/-- **Run.** -/
theorem Sys.run_grows [DecidableEq δ] {drv : Driver δ ω} (hDrv : drv.Additive) {s s' : Sys δ ω}
    {ops : List (Op δ)} (h : run (Sys.step drv) s ops = some s') : s.mgr.Grows s'.mgr :=
  run_invariant (Sys.step drv) (P := fun t => s.mgr.Grows t.mgr)
    (fun _ _ _ hGrows hStep => hGrows.trans (Sys.step_grows hDrv hStep)) (.refl s.mgr) h

end Neutrix
