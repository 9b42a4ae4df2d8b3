import Mathlib.Data.List.Basic

/-!
# A table programmed in passes

A pass goes over a list of items and changes, for each of them, the table
entry that the item names. Seen from one entry, a pass is the fold of the
changes of the items that name it (`pass`). An entry that no item names stays as it
is; if all that name it make the same change, and making it twice is making it
once, it is changed that way.
-/

namespace Neutrix.Lib

variable {β κ ε : Type*} [DecidableEq κ]

/-- What a pass over `items` does to the entry at `g`. -/
def pass (key : β → κ) (upd : β → ε → ε) (items : List β) (g : κ) (e : ε) : ε :=
  items.foldl (fun e b => if key b = g then upd b e else e) e

variable {key : β → κ} {upd : β → ε → ε}

theorem pass_of_forall_ne {items : List β} {g : κ} (h : ∀ b ∈ items, key b ≠ g) (e : ε) :
    pass key upd items g e = e := by
  induction items with
  | nil => rfl
  | cons b items ih =>
    rw [pass, List.foldl_cons, if_neg (h b List.mem_cons_self)]
    exact ih fun c hc => h c (List.mem_cons_of_mem b hc)

theorem pass_of_exists {u : ε → ε} (hIdem : ∀ e, u (u e) = u e) {items : List β} {g : κ}
    (hAll : ∀ b ∈ items, key b = g → upd b = u) (hSome : ∃ b ∈ items, key b = g) (e : ε) :
    pass key upd items g e = u e := by
  induction items generalizing e with
  | nil => simp at hSome
  | cons c items ih =>
    have hRest : ∀ b ∈ items, key b = g → upd b = u :=
      fun b hb => hAll b (List.mem_cons_of_mem c hb)
    rw [pass, List.foldl_cons]
    by_cases hc : key c = g
    · rw [if_pos hc, hAll c List.mem_cons_self hc]
      by_cases hLater : ∃ b ∈ items, key b = g
      · exact (ih hRest hLater (u e)).trans (hIdem e)
      · push Not at hLater
        exact pass_of_forall_ne hLater _
    · rw [if_neg hc]
      obtain ⟨b, hb, hKey⟩ := hSome
      rcases List.mem_cons.mp hb with rfl | hb
      · exact absurd hKey hc
      · exact ih hRest ⟨b, hb, hKey⟩ e

end Neutrix.Lib
