import Neutrix.DriverFramework.Manager

/-!
# Neutrix — merging into a registered device

`merge_or_register` has three notions of "already there": kind and address
for resources, the whole value for capabilities, a substring for the
description. Each of them absorbs its own additions: a merged list has every
key of what was merged (`Completed`), and the description ends with the text
that was appended. So a second merge of the same description finds nothing
to add (`mergeInfo_mergeInfo`), and it finds the same device, as a merge
leaves the ids alone.

* `mergeOrRegister_merges` — what a merge does to the registry, and that it
  is idempotent.
-/

namespace Neutrix

open Neutrix.Lib

variable {δ : Type*}

/-- What `merge_or_register` looks for. -/
def RegistryEntry.Matches (e : RegistryEntry δ) (i : DeviceInfo) : Prop :=
  e.device.info.vendorId = i.vendorId ∧ e.device.info.deviceId = i.deviceId

theorem RegistryEntry.matches_iff {e : RegistryEntry δ} {i : DeviceInfo} :
    e.Matches i ↔ e.key = i.key :=
  ⟨fun h => Prod.ext h.1 h.2, fun h => Prod.mk.inj h⟩

/-- `new` is `old` after `i` was merged into it. -/
structure Merged (old i new : DeviceInfo) : Prop where
  ids          : new.vendorId = old.vendorId ∧ new.deviceId = old.deviceId
  codes        : new.class_ = old.class_ ∧ new.subclass = old.subclass ∧ new.progIf = old.progIf
  resources    : Completed Resource.key old.resources i.resources new.resources
  capabilities : Completed id old.capabilities i.capabilities new.capabilities

namespace DeviceManager

-- ---------------------------------------------------------------------------
-- One device
-- ---------------------------------------------------------------------------

theorem mergeInfo_merged (old i : DeviceInfo) : Merged old i (mergeInfo old i) where
  ids          := ⟨rfl, rfl⟩
  codes        := ⟨rfl, rfl, rfl⟩
  resources    := by
    have hFold := completed_foldl Resource.key old.resources i.resources
    rwa [← addResource_eq] at hFold
  capabilities := by
    have hFold := completed_foldl id old.capabilities i.capabilities
    rwa [← addCapability_eq] at hFold

/-- A merged description contains the text that was merged. -/
theorem description_infix (old i : DeviceInfo) :
    i.description.toList <:+: (mergeInfo old i).description.toList := by
  unfold mergeInfo
  dsimp only
  split_ifs with hIn
  · exact hIn
  · rw [String.toList_append]
    exact (List.suffix_append _ _).isInfix

/-- **Everything is there after a merge.** -/
theorem mergeInfo_mergeInfo (old i : DeviceInfo) :
    mergeInfo (mergeInfo old i) i = mergeInfo old i := by
  have hMerged := mergeInfo_merged old i
  obtain ⟨-, -, -, -, -, hResources⟩ := hMerged.resources
  obtain ⟨-, -, -, -, -, hCapabilities⟩ := hMerged.capabilities
  have hDescription := description_infix old i
  generalize mergeInfo old i = new at hResources hCapabilities hDescription
  rw [mergeInfo, addResource_eq, addCapability_eq, foldl_addMissing_fixed hResources,
    foldl_addMissing_fixed hCapabilities, if_pos hDescription]

-- ---------------------------------------------------------------------------
-- The registry
-- ---------------------------------------------------------------------------

theorem mergeOrRegister_of_none {mgr : DeviceManager δ} {i : DeviceInfo}
    (h : ∀ e ∈ mgr.devices, ¬ e.Matches i) : mgr.mergeOrRegister i = (none, mgr) := by
  have hFirst : mergeFirst i mgr.devices = none :=
    mergeFirst_none fun e he hKey => h e he (RegistryEntry.matches_iff.mpr hKey)
  rw [mergeOrRegister, hFirst]

theorem mergeOrRegister_of_first {mgr : DeviceManager δ} {i : DeviceInfo}
    {pre post : List (RegistryEntry δ)} {e : RegistryEntry δ}
    (hSplit : mgr.devices = pre ++ e :: post) (hPre : ∀ e ∈ pre, ¬ e.Matches i)
    (hHere : e.Matches i) :
    mgr.mergeOrRegister i =
      (some e.device.id, { mgr with devices := pre ++ mergeEntry e i :: post }) := by
  have hFirst : mergeFirst i (pre ++ e :: post) =
      some (e.device.id, pre ++ mergeEntry e i :: post) :=
    mergeFirst_some (fun e he hKey => hPre e he (RegistryEntry.matches_iff.mpr hKey))
      (RegistryEntry.matches_iff.mp hHere)
  rw [mergeOrRegister, hSplit, hFirst]

/-- The first device that matches, if there is one. -/
theorem first_match (i : DeviceInfo) (es : List (RegistryEntry δ)) :
    (∀ e ∈ es, ¬ e.Matches i) ∨
      ∃ pre e post, es = pre ++ e :: post ∧ (∀ e ∈ pre, ¬ e.Matches i) ∧ e.Matches i := by
  induction es with
  | nil => exact .inl (by simp)
  | cons e rest ih =>
    by_cases hHere : e.Matches i
    · exact .inr ⟨[], e, rest, rfl, by simp, hHere⟩
    rcases ih with hNone | ⟨pre, e', post, rfl, hPre, hMatch⟩
    · refine .inl fun e' he' => ?_
      rcases List.mem_cons.mp he' with rfl | hRest
      · exact hHere
      · exact hNone e' hRest
    · refine .inr ⟨e :: pre, e', post, rfl, fun e'' he'' => ?_, hMatch⟩
      rcases List.mem_cons.mp he'' with rfl | hRest
      · exact hHere
      · exact hPre e'' hRest

/-- **Merging.** Nothing happens exactly when no device has the ids. Otherwise the
first device that has them takes the merge and its id is returned, with every
other device and the rest of its entry as they were. A second merge returns
the same and changes nothing. -/
theorem mergeOrRegister_merges (mgr : DeviceManager δ) (i : DeviceInfo) :
    (mgr.mergeOrRegister i = (none, mgr) ↔ ∀ e ∈ mgr.devices, ¬ e.Matches i) ∧
    ((∃ e ∈ mgr.devices, e.Matches i) →
      ∃ pre e post e', mgr.devices = pre ++ e :: post ∧ (∀ e ∈ pre, ¬ e.Matches i) ∧
        e.Matches i ∧
        mgr.mergeOrRegister i = (some e.device.id, { mgr with devices := pre ++ e' :: post }) ∧
        e'.device.id = e.device.id ∧ e'.driver = e.driver ∧
        Merged e.device.info i e'.device.info) ∧
    (mgr.mergeOrRegister i).2.mergeOrRegister i = mgr.mergeOrRegister i := by
  rcases first_match i mgr.devices with hNone | ⟨pre, e, post, hSplit, hPre, hHere⟩
  · have hCall := mergeOrRegister_of_none hNone
    refine ⟨⟨fun _ => hNone, fun _ => hCall⟩, ?_, by rw [hCall, hCall]⟩
    rintro ⟨e, he, hMatch⟩
    exact absurd hMatch (hNone e he)
  · have hCall := mergeOrRegister_of_first hSplit hPre hHere
    have hMem : e ∈ mgr.devices := by rw [hSplit]; simp
    refine ⟨⟨fun hEq => ?_, fun hNone => absurd hHere (hNone e hMem)⟩, fun _ => ?_, ?_⟩
    · rw [hCall] at hEq
      exact absurd (congrArg Prod.fst hEq) (by simp)
    · exact ⟨pre, e, post, mergeEntry e i, hSplit, hPre, hHere, hCall, rfl, rfl,
        mergeInfo_merged e.device.info i⟩
    · -- the entry still matches, and has nothing left to take
      have hAgain : mergeEntry (mergeEntry e i) i = mergeEntry e i := by
        unfold mergeEntry
        rw [mergeInfo_mergeInfo]
      rw [hCall]
      dsimp only
      rw [mergeOrRegister_of_first rfl hPre (show (mergeEntry e i).Matches i from hHere), hAgain]
      rfl

end DeviceManager

end Neutrix
