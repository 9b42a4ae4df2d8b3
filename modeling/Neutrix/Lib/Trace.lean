import Mathlib.Data.List.Basic

/-!
# Properties of finite histories

A history is the list of the events so far, oldest first. Each property has
one lemma that says how it changes when an event is added at the end, so
that invariants over histories go through step by step.
-/

namespace Neutrix.Lib

variable {α : Type*}

/-- Some event with `starts` happened, and none with `stops` after it. -/
def OpenSince (starts stops : α → Prop) (history : List α) : Prop :=
  ∃ before x after, history = before ++ x :: after ∧ starts x ∧ ∀ y ∈ after, ¬ stops y

/-- `a` never happens before `b`. -/
def NeverBefore (a b : α) (history : List α) : Prop :=
  ∀ before after, history = before ++ b :: after → a ∉ before

/-- The last event of an appended history, or an event inside the history. -/
theorem concat_eq_append_cons {history before after : List α} {e x : α}
    (h : history ++ [e] = before ++ x :: after) :
    (x = e ∧ before = history ∧ after = []) ∨
      ∃ after', after = after' ++ [e] ∧ history = before ++ x :: after' := by
  rcases List.eq_nil_or_concat after with rfl | ⟨after', y, rfl⟩
  · obtain ⟨hHist, hLast⟩ := List.append_inj' h rfl
    exact .inl ⟨(List.singleton_inj.mp hLast).symm, hHist.symm, rfl⟩
  · rw [List.concat_eq_append, ← List.cons_append, ← List.append_assoc] at h
    obtain ⟨hHist, hLast⟩ := List.append_inj' h rfl
    exact .inr ⟨after', by rw [List.concat_eq_append, hLast], hHist⟩

theorem openSince_concat {starts stops : α → Prop} {history : List α} {e : α} :
    OpenSince starts stops (history ++ [e]) ↔
      starts e ∨ (OpenSince starts stops history ∧ ¬ stops e) := by
  constructor
  · rintro ⟨before, x, after, hEq, hStart, hQuiet⟩
    rcases concat_eq_append_cons hEq with ⟨rfl, -, -⟩ | ⟨after', rfl, hHist⟩
    · exact .inl hStart
    · exact .inr ⟨⟨before, x, after', hHist, hStart, fun y hy => hQuiet y (by simp [hy])⟩,
        hQuiet e (by simp)⟩
  · rintro (hStart | ⟨⟨before, x, after, rfl, hStart, hQuiet⟩, hStop⟩)
    · exact ⟨history, e, [], rfl, hStart, by simp⟩
    · refine ⟨before, x, after ++ [e], by simp, hStart, fun y hy => ?_⟩
      rcases List.mem_append.mp hy with hIn | hLast
      · exact hQuiet y hIn
      · rwa [List.mem_singleton.mp hLast]

theorem not_openSince_nil {starts stops : α → Prop} : ¬ OpenSince starts stops [] := by
  rintro ⟨before, x, after, hEq, -⟩
  simp at hEq

theorem neverBefore_concat {a b e : α} {history : List α} (h : NeverBefore a b history)
    (hLast : e = b → a ∉ history) : NeverBefore a b (history ++ [e]) := by
  intro before after hEq
  rcases concat_eq_append_cons hEq with ⟨hb, rfl, -⟩ | ⟨after', -, hHist⟩
  · exact hLast hb.symm
  · exact h before after' hHist

theorem neverBefore_nil {a b : α} : NeverBefore a b [] := by
  intro before after hEq
  simp at hEq

end Neutrix.Lib
