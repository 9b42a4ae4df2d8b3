import Mathlib.Data.Set.Insert
import Mathlib.Logic.Function.Basic

/-!
# Radix tables in memory

A radix table of depth `n` maps paths of `n` indices to frames. Its nodes are
frames of a memory: an entry of a table is unused, leads to the next table
(at the last level: to the frame the path is mapped to), or maps a whole huge
frame. A `Mapper` adds and removes mappings; the tables it finds missing are
frames of a `Supply`.

The nodes lie in the memory that the table describes, so nothing but the
supply keeps a new table from overwriting another one. `Tree` says that no
node is reached by two paths.

* `translate_congr` — a table is unchanged where its nodes are.
* `Changed` — one path is translated anew and nothing else changes, in terms
  of the translations, the nodes and the rest of the memory.
* `Mapper.Lawful` — what a client relies on: with a supply of unused frames,
  `mapTo` changes the path it was given, or fails for the reason the table
  gives and changes none; `unmap` removes the path it was given.
* `radixMapper_lawful` — a mapper that takes the missing tables one after the
  other, clears them and enters them, keeps to that.
-/

namespace Neutrix.Lib

/-- A word of a table. -/
inductive Entry (F : Type*) where
  | unused
  | next (f : F)
  | huge (f : F)
deriving DecidableEq

/-- The contents of all frames, read as tables. -/
abbrev Tables (F I : Type*) := F → I → Entry F

namespace Tables

variable {F I A : Type*}

/-- The node at the end of a path. -/
def walk (mem : Tables F I) : F → List I → Option F
  | t, [] => some t
  | t, i :: is =>
    match mem t i with
    | .next f => walk mem f is
    | _ => none

/-- The frame a path is mapped to, with the part of the path inside a huge frame. -/
def translate (mem : Tables F I) : F → List I → Option (F × List I)
  | t, [] => some (t, [])
  | t, i :: is =>
    match mem t i with
    | .next f => translate mem f is
    | .huge f => some (f, is)
    | .unused => none

/-- A node of the table of depth `n` at `t`. -/
def IsNode (mem : Tables F I) (t : F) (n : Nat) (g : F) : Prop :=
  ∃ p : List I, p.length < n ∧ mem.walk t p = some g

/-- No node is reached by two paths. -/
def Tree (mem : Tables F I) (t : F) (n : Nat) : Prop :=
  ∀ p q g, p.length < n → q.length < n → mem.walk t p = some g → mem.walk t q = some g → p = q

variable {mem mem' : Tables F I} {t f g : F} {i j : I} {n : Nat}

theorem walk_cons (h : mem t i = .next f) (is : List I) :
    mem.walk t (i :: is) = mem.walk f is := by
  rw [walk, h]

theorem translate_cons (h : mem t i = .next f) (is : List I) :
    mem.translate t (i :: is) = mem.translate f is := by
  rw [translate, h]

/-- The end of a walk is what its path is mapped to. -/
theorem translate_of_walk {p : List I} (h : mem.walk t p = some f) :
    mem.translate t p = some (f, []) := by
  induction p generalizing t with
  | nil => rw [translate, ← Option.some.inj h]
  | cons i p ih =>
    rw [walk] at h
    cases hEntry : mem t i with
    | unused => simp [hEntry] at h
    | huge g => simp [hEntry] at h
    | next g =>
      rw [translate_cons hEntry]
      exact ih (by simpa [hEntry] using h)

/-- The first step of a walk. -/
theorem walk_cons_some {is : List I} (h : mem.walk t (i :: is) = some g) :
    ∃ f, mem t i = .next f ∧ mem.walk f is = some g := by
  rw [walk] at h
  cases hEntry : mem t i with
  | unused => simp [hEntry] at h
  | huge f => simp [hEntry] at h
  | next f => exact ⟨f, rfl, by simpa [hEntry] using h⟩

theorem isNode_root (mem : Tables F I) (t : F) (hn : 0 < n) : mem.IsNode t n t := ⟨[], hn, rfl⟩

theorem IsNode.child (hEntry : mem t i = .next f) (h : mem.IsNode f n g) :
    mem.IsNode t (n + 1) g := by
  obtain ⟨p, hp, hWalk⟩ := h
  exact ⟨i :: p, Nat.succ_lt_succ hp, by rw [walk_cons hEntry, hWalk]⟩

/-- A node is the root, or a node of a table the root leads to. -/
theorem IsNode.cases (h : mem.IsNode t (n + 1) g) :
    g = t ∨ ∃ i f, mem t i = .next f ∧ mem.IsNode f n g := by
  obtain ⟨p, hp, hWalk⟩ := h
  cases p with
  | nil => exact .inl (Option.some.inj hWalk).symm
  | cons i p =>
    obtain ⟨f, hEntry, hRest⟩ := walk_cons_some hWalk
    exact .inr ⟨i, f, hEntry, p, Nat.lt_of_succ_lt_succ hp, hRest⟩

/-- **A walk reads only the nodes.** -/
theorem walk_congr (h : ∀ g, mem.IsNode t n g → mem' g = mem g) {p : List I} (hp : p.length ≤ n) :
    mem'.walk t p = mem.walk t p := by
  induction p generalizing t n with
  | nil => rfl
  | cons i p ih =>
    obtain ⟨m, rfl⟩ : ∃ m, n = m + 1 := ⟨n - 1, by simp only [List.length_cons] at hp; omega⟩
    rw [walk, walk, h t (isNode_root mem t (Nat.succ_pos m))]
    cases hEntry : mem t i with
    | unused => rfl
    | huge f => rfl
    | next f => exact ih (fun g hg => h g (hg.child hEntry)) (Nat.le_of_succ_le_succ hp)

/-- **A translation reads only the nodes.** -/
theorem translate_congr (h : ∀ g, mem.IsNode t n g → mem' g = mem g) {p : List I}
    (hp : p.length ≤ n) : mem'.translate t p = mem.translate t p := by
  induction p generalizing t n with
  | nil => rfl
  | cons i p ih =>
    obtain ⟨m, rfl⟩ : ∃ m, n = m + 1 := ⟨n - 1, by simp only [List.length_cons] at hp; omega⟩
    rw [translate, translate, h t (isNode_root mem t (Nat.succ_pos m))]
    cases hEntry : mem t i with
    | unused => rfl
    | huge f => rfl
    | next f => exact ih (fun g hg => h g (hg.child hEntry)) (Nat.le_of_succ_le_succ hp)

theorem isNode_congr (h : ∀ g, mem.IsNode t n g → mem' g = mem g) :
    mem'.IsNode t n g ↔ mem.IsNode t n g := by
  refine exists_congr fun p => and_congr_right fun hp => ?_
  rw [walk_congr h hp.le]

theorem Tree.congr (hTree : mem.Tree t n) (h : ∀ g, mem.IsNode t n g → mem' g = mem g) :
    mem'.Tree t n := by
  intro p q g hp hq hWalkP hWalkQ
  rw [walk_congr h hp.le] at hWalkP
  rw [walk_congr h hq.le] at hWalkQ
  exact hTree p q g hp hq hWalkP hWalkQ

-- ---------------------------------------------------------------------------
-- Subtrees
-- ---------------------------------------------------------------------------

theorem Tree.child (hTree : mem.Tree t (n + 1)) (hEntry : mem t i = .next f) : mem.Tree f n := by
  intro p q g hp hq hWalkP hWalkQ
  have hEq := hTree (i :: p) (i :: q) g (Nat.succ_lt_succ hp) (Nat.succ_lt_succ hq)
    (by rw [walk_cons hEntry, hWalkP]) (by rw [walk_cons hEntry, hWalkQ])
  exact List.tail_eq_of_cons_eq hEq

/-- The root is not a node of a subtree. -/
theorem Tree.root_not_child (hTree : mem.Tree t (n + 1)) (hEntry : mem t i = .next f) :
    ¬ mem.IsNode f n t := by
  rintro ⟨p, hp, hWalk⟩
  have hEq := hTree [] (i :: p) t (Nat.succ_pos n) (Nat.succ_lt_succ hp) rfl
    (by rw [walk_cons hEntry, hWalk])
  exact absurd hEq (by simp)

/-- Two subtrees have no node in common. -/
theorem Tree.children_disjoint (hTree : mem.Tree t (n + 1)) (hEntry : mem t i = .next f) {f' : F}
    (hEntry' : mem t j = .next f') (hij : i ≠ j) (h : mem.IsNode f n g) : ¬ mem.IsNode f' n g := by
  obtain ⟨p, hp, hWalk⟩ := h
  rintro ⟨q, hq, hWalk'⟩
  have hEq := hTree (i :: p) (j :: q) g (Nat.succ_lt_succ hp) (Nat.succ_lt_succ hq)
    (by rw [walk_cons hEntry, hWalk]) (by rw [walk_cons hEntry', hWalk'])
  exact hij (List.cons.inj hEq).1

/-- A tree is put together from its subtrees. -/
theorem tree_of_children (hChild : ∀ i f, mem t i = .next f → mem.Tree f n)
    (hRoot : ∀ i f, mem t i = .next f → ¬ mem.IsNode f n t)
    (hDisjoint : ∀ i j f f' g, mem t i = .next f → mem t j = .next f' → i ≠ j →
      mem.IsNode f n g → ¬ mem.IsNode f' n g) : mem.Tree t (n + 1) := by
  intro p q g hp hq hWalkP hWalkQ
  cases p with
  | nil =>
    obtain rfl : t = g := Option.some.inj hWalkP
    cases q with
    | nil => rfl
    | cons j q =>
      obtain ⟨f', hEntry', hRest⟩ := walk_cons_some hWalkQ
      exact absurd ⟨q, Nat.lt_of_succ_lt_succ hq, hRest⟩ (hRoot j f' hEntry')
  | cons i p =>
    obtain ⟨f, hEntry, hRest⟩ := walk_cons_some hWalkP
    cases q with
    | nil =>
      obtain rfl : t = g := Option.some.inj hWalkQ
      exact absurd ⟨p, Nat.lt_of_succ_lt_succ hp, hRest⟩ (hRoot i f hEntry)
    | cons j q =>
      obtain ⟨f', hEntry', hRest'⟩ := walk_cons_some hWalkQ
      by_cases hij : i = j
      · subst hij
        obtain rfl : f = f' := by simpa [hEntry] using hEntry'
        rw [hChild i f hEntry p q g (Nat.lt_of_succ_lt_succ hp) (Nat.lt_of_succ_lt_succ hq)
          hRest hRest']
      · exact absurd ⟨q, Nat.lt_of_succ_lt_succ hq, hRest'⟩
          (hDisjoint i j f f' g hEntry hEntry' hij ⟨p, Nat.lt_of_succ_lt_succ hp, hRest⟩)

-- ---------------------------------------------------------------------------
-- One path changes
-- ---------------------------------------------------------------------------

/-- `path` is translated to `new`, every other path as before. The nodes form a tree of
used frames (`U'`); those that are new were not used before (`U`), and used frames that
are not nodes are as they were. -/
structure Changed (U U' : Set F) (path : List I) (new : Option (F × List I)) (t : F)
    (mem mem' : Tables F I) : Prop where
  at_path   : mem'.translate t path = new
  elsewhere : ∀ q, q.length = path.length → q ≠ path → mem'.translate t q = mem.translate t q
  tree      : mem'.Tree t path.length
  nodes     : ∀ g, mem'.IsNode t path.length g →
    g ∈ U' ∧ (mem.IsNode t path.length g ∨ g ∉ U)
  others    : ∀ g ∈ U, ¬ mem.IsNode t path.length g → mem' g = mem g
  grows     : U ⊆ U'

section Changed

variable {U U' : Set F} {path : List I} {new : Option (F × List I)}

/-- Nothing changes. -/
theorem changed_refl (hTree : mem.Tree t path.length)
    (hUsed : ∀ g, mem.IsNode t path.length g → g ∈ U) (hNew : mem.translate t path = new) :
    Changed U U path new t mem mem where
  at_path := hNew
  elsewhere := fun _ _ _ => rfl
  tree := hTree
  nodes := fun g hg => ⟨hUsed g hg, .inl hg⟩
  others := fun _ _ _ => rfl
  grows := Set.Subset.rfl

/-- The subtrees next to the one that changes. -/
theorem Changed.others_child (h : Changed U U' path new f mem mem')
    (hTree : mem.Tree t (path.length + 1)) (hUsed : ∀ g, mem.IsNode t (path.length + 1) g → g ∈ U)
    (hEntry : mem t i = .next f) {f' : F} (hEntry' : mem t j = .next f') (hij : i ≠ j)
    (hg : mem.IsNode f' path.length g) : mem' g = mem g := by
  refine h.others g (hUsed g (hg.child hEntry')) fun hNode => ?_
  exact hTree.children_disjoint hEntry hEntry' hij hNode hg

/-- The nodes of all subtrees after the change. -/
theorem Changed.child_nodes (h : Changed U U' path new f mem mem')
    (hTree : mem.Tree t (path.length + 1)) (hUsed : ∀ g, mem.IsNode t (path.length + 1) g → g ∈ U)
    (hEntry : mem t i = .next f) {f' : F} (hEntry' : mem t j = .next f')
    (hg : mem'.IsNode f' path.length g) :
    g ∈ U' ∧ (mem.IsNode f' path.length g ∨ i = j ∧ g ∉ U) := by
  by_cases hij : i = j
  · subst hij
    obtain rfl : f = f' := by simpa [hEntry] using hEntry'
    obtain ⟨hIn, hNode | hNew⟩ := h.nodes g hg
    · exact ⟨hIn, .inl hNode⟩
    · exact ⟨hIn, .inr ⟨rfl, hNew⟩⟩
  · have hSame := (isNode_congr fun g => h.others_child hTree hUsed hEntry hEntry' hij).mp hg
    exact ⟨h.grows (hUsed g (hSame.child hEntry')), .inl hSame⟩

/-- **One level up.** A change in a subtree is a change in the tree. -/
theorem Changed.parent (h : Changed U U' path new f mem mem')
    (hTree : mem.Tree t (path.length + 1)) (hUsed : ∀ g, mem.IsNode t (path.length + 1) g → g ∈ U)
    (hEntry : mem t i = .next f) : Changed U U' (i :: path) new t mem mem' := by
  have hRootUsed : t ∈ U := hUsed t (isNode_root mem t (Nat.succ_pos _))
  have hRoot : mem' t = mem t := h.others t hRootUsed (hTree.root_not_child hEntry)
  refine ⟨?_, ?_, ?_, ?_, ?_, h.grows⟩
  · rw [translate_cons (hRoot ▸ hEntry), h.at_path]
  · intro q hq hne
    cases q with
    | nil => simp at hq
    | cons j q =>
      have hLen : q.length = path.length := Nat.succ.inj hq
      by_cases hij : i = j
      · subst hij
        rw [translate_cons (hRoot ▸ hEntry), translate_cons hEntry]
        exact h.elsewhere q hLen fun hEq => hne (by rw [hEq])
      · rw [translate, translate, hRoot]
        cases hEntry' : mem t j with
        | unused => rfl
        | huge g => rfl
        | next f' =>
          exact translate_congr (fun g => h.others_child hTree hUsed hEntry hEntry' hij) hLen.le
  · refine tree_of_children ?_ ?_ ?_
    · intro j f' hEntry'
      rw [hRoot] at hEntry'
      by_cases hij : i = j
      · subst hij
        obtain rfl : f = f' := by simpa [hEntry] using hEntry'
        exact h.tree
      · exact (hTree.child hEntry').congr fun g => h.others_child hTree hUsed hEntry hEntry' hij
    · intro j f' hEntry' hNode
      rw [hRoot] at hEntry'
      obtain ⟨-, hOld | ⟨-, hNew⟩⟩ := h.child_nodes hTree hUsed hEntry hEntry' hNode
      · exact hTree.root_not_child hEntry' hOld
      · exact hNew hRootUsed
    · intro j k f₁ f₂ g hEntry₁ hEntry₂ hjk hNode₁ hNode₂
      rw [hRoot] at hEntry₁ hEntry₂
      obtain ⟨-, hOld₁ | ⟨rfl, hNew₁⟩⟩ := h.child_nodes hTree hUsed hEntry hEntry₁ hNode₁
      · obtain ⟨-, hOld₂ | ⟨-, hNew₂⟩⟩ := h.child_nodes hTree hUsed hEntry hEntry₂ hNode₂
        · exact hTree.children_disjoint hEntry₁ hEntry₂ hjk hOld₁ hOld₂
        · exact hNew₂ (hUsed g (hOld₁.child hEntry₁))
      · obtain ⟨-, hOld₂ | ⟨rfl, -⟩⟩ := h.child_nodes hTree hUsed hEntry hEntry₂ hNode₂
        · exact hNew₁ (hUsed g (hOld₂.child hEntry₂))
        · exact hjk rfl
  · intro g hg
    rcases hg.cases with rfl | ⟨j, f', hEntry', hNode⟩
    · exact ⟨h.grows hRootUsed, .inl (isNode_root mem g (Nat.succ_pos _))⟩
    · rw [hRoot] at hEntry'
      obtain ⟨hIn, hOld | ⟨-, hNew⟩⟩ := h.child_nodes hTree hUsed hEntry hEntry' hNode
      · exact ⟨hIn, .inl (hOld.child hEntry')⟩
      · exact ⟨hIn, .inr hNew⟩
  · exact fun g hg hNot => h.others g hg fun hNode => hNot (hNode.child hEntry)

end Changed

-- ---------------------------------------------------------------------------
-- A new table
-- ---------------------------------------------------------------------------

/-- Nothing is below an empty table. -/
theorem walk_of_unused (h : ∀ j, mem f j = .unused) {p : List I} (hWalk : mem.walk f p = some g) :
    p = [] ∧ g = f := by
  cases p with
  | nil => exact ⟨rfl, (Option.some.inj hWalk).symm⟩
  | cons i p =>
    obtain ⟨f', hEntry, -⟩ := walk_cons_some hWalk
    simp [h i] at hEntry

theorem isNode_of_unused (h : ∀ j, mem f j = .unused) (hg : mem.IsNode f n g) : g = f := by
  obtain ⟨p, -, hWalk⟩ := hg
  exact (walk_of_unused h hWalk).2

theorem tree_of_unused (h : ∀ j, mem f j = .unused) : mem.Tree f n := by
  intro p q g _ _ hWalkP hWalkQ
  rw [(walk_of_unused h hWalkP).1, (walk_of_unused h hWalkQ).1]

/-- A cleared table below the entry `i`. -/
structure Created (mem : Tables F I) (t : F) (i : I) (f : F) (mem' : Tables F I) : Prop where
  before : mem t i = .unused
  entry  : mem' t i = .next f
  empty  : ∀ j, mem' f j = .unused
  same   : ∀ j, i ≠ j → mem' t j = mem t j
  others : ∀ g, g ≠ t → g ≠ f → mem' g = mem g

section Created

variable {U U' : Set F}

/-- The subtrees of the other entries. -/
theorem Created.others_child (h : Created mem t i f mem') (hTree : mem.Tree t (n + 1))
    (hUsed : ∀ g, mem.IsNode t (n + 1) g → g ∈ U) (hNew : f ∉ U) {f' : F}
    (hEntry' : mem t j = .next f') (hg : mem.IsNode f' n g) : mem' g = mem g := by
  refine h.others g ?_ ?_
  · rintro rfl
    exact hTree.root_not_child hEntry' hg
  · rintro rfl
    exact hNew (hUsed g (hg.child hEntry'))

/-- The entries after the call. -/
theorem Created.next_cases (h : Created mem t i f mem') {f' : F} (hEntry' : mem' t j = .next f') :
    (j = i ∧ f' = f) ∨ (i ≠ j ∧ mem t j = .next f') := by
  by_cases hij : i = j
  · subst hij
    exact .inl ⟨rfl, by simpa [h.entry] using hEntry'.symm⟩
  · exact .inr ⟨hij, by rw [← h.same j hij, hEntry']⟩

theorem Created.nodes (h : Created mem t i f mem') (hTree : mem.Tree t (n + 1))
    (hUsed : ∀ g, mem.IsNode t (n + 1) g → g ∈ U) (hNew : f ∉ U)
    (hg : mem'.IsNode t (n + 1) g) : mem.IsNode t (n + 1) g ∨ g = f := by
  rcases hg.cases with rfl | ⟨j, f', hEntry', hNode⟩
  · exact .inl (isNode_root mem g (Nat.succ_pos n))
  · rcases h.next_cases hEntry' with ⟨rfl, rfl⟩ | ⟨-, hOld⟩
    · exact .inr (isNode_of_unused h.empty hNode)
    · have hSame := (isNode_congr fun g => h.others_child hTree hUsed hNew hOld).mp hNode
      exact .inl (hSame.child hOld)

theorem Created.tree (h : Created mem t i f mem') (hTree : mem.Tree t (n + 1))
    (hUsed : ∀ g, mem.IsNode t (n + 1) g → g ∈ U) (hNew : f ∉ U) : mem'.Tree t (n + 1) := by
  have hRootUsed : t ∈ U := hUsed t (isNode_root mem t (Nat.succ_pos n))
  -- a node of an old subtree is an old node
  have hOldNode : ∀ {j f' g}, mem t j = .next f' → mem'.IsNode f' n g → mem.IsNode f' n g :=
    fun hOld => (isNode_congr fun g => h.others_child hTree hUsed hNew hOld).mp
  refine tree_of_children ?_ ?_ ?_
  · intro j f' hEntry'
    rcases h.next_cases hEntry' with ⟨-, rfl⟩ | ⟨-, hOld⟩
    · exact tree_of_unused h.empty
    · exact (hTree.child hOld).congr fun g => h.others_child hTree hUsed hNew hOld
  · intro j f' hEntry' hNode
    rcases h.next_cases hEntry' with ⟨-, rfl⟩ | ⟨-, hOld⟩
    · exact hNew (isNode_of_unused h.empty hNode ▸ hRootUsed)
    · exact hTree.root_not_child hOld (hOldNode hOld hNode)
  · intro j k f₁ f₂ g hEntry₁ hEntry₂ hjk hNode₁ hNode₂
    rcases h.next_cases hEntry₁ with ⟨rfl, rfl⟩ | ⟨-, hOld₁⟩
    · rcases h.next_cases hEntry₂ with ⟨rfl, -⟩ | ⟨-, hOld₂⟩
      · exact hjk rfl
      · rw [isNode_of_unused h.empty hNode₁] at hNode₂
        exact hNew (hUsed _ ((hOldNode hOld₂ hNode₂).child hOld₂))
    · rcases h.next_cases hEntry₂ with ⟨rfl, rfl⟩ | ⟨-, hOld₂⟩
      · rw [isNode_of_unused h.empty hNode₂] at hNode₁
        exact hNew (hUsed _ ((hOldNode hOld₁ hNode₁).child hOld₁))
      · exact hTree.children_disjoint hOld₁ hOld₂ hjk (hOldNode hOld₁ hNode₁) (hOldNode hOld₂ hNode₂)

/-- An empty table maps nothing. -/
theorem Created.translate (h : Created mem t i f mem') (hTree : mem.Tree t (n + 1))
    (hUsed : ∀ g, mem.IsNode t (n + 1) g → g ∈ U) (hNew : f ∉ U) (hn : 0 < n) {q : List I}
    (hq : q.length = n + 1) : mem'.translate t q = mem.translate t q := by
  obtain ⟨j, k, q, rfl⟩ : ∃ j k q', q = j :: k :: q' := by
    match q, hq with
    | [], hq => simp at hq
    | [j], hq => simp at hq; omega
    | j :: k :: q', _ => exact ⟨j, k, q', rfl⟩
  by_cases hij : i = j
  · subst hij
    rw [translate_cons h.entry, Tables.translate, h.empty k, Tables.translate, h.before]
  · rw [Tables.translate, Tables.translate, h.same j hij]
    cases hOld : mem t j with
    | unused => rfl
    | huge g => rfl
    | next f' =>
      exact translate_congr (fun g => h.others_child hTree hUsed hNew hOld)
        (Nat.le_of_eq (Nat.succ.inj hq))

/-- A change after a new table was put in is a change of what was there before. -/
theorem Created.changed {mem₁ : Tables F I} {path : List I} {new : Option (F × List I)}
    (h : Created mem t i f mem₁) (hTree : mem.Tree t (path.length + 1))
    (hUsed : ∀ g, mem.IsNode t (path.length + 1) g → g ∈ U) (hNew : f ∉ U) (hPath : path ≠ [])
    (hC : Changed (insert f U) U' (i :: path) new t mem₁ mem') :
    Changed U U' (i :: path) new t mem mem' where
  at_path := hC.at_path
  elsewhere := fun q hq hne => by
    rw [hC.elsewhere q hq hne, h.translate hTree hUsed hNew (List.length_pos_iff.mpr hPath) hq]
  tree := hC.tree
  nodes := fun g hg => by
    obtain ⟨hIn, hNode | hOut⟩ := hC.nodes g hg
    · rcases h.nodes hTree hUsed hNew hNode with hOld | rfl
      · exact ⟨hIn, .inl hOld⟩
      · exact ⟨hIn, .inr hNew⟩
    · exact ⟨hIn, .inr fun hU => hOut (Set.mem_insert_of_mem f hU)⟩
  others := fun g hg hNot => by
    have hne : g ≠ f := fun hEq => hNew (hEq ▸ hg)
    have hNot₁ : ¬ mem₁.IsNode t (path.length + 1) g := fun hNode =>
      (h.nodes hTree hUsed hNew hNode).elim hNot hne
    rw [hC.others g (Set.mem_insert_of_mem f hg) hNot₁]
    refine h.others g ?_ hne
    rintro rfl
    exact hNot (isNode_root mem g (Nat.succ_pos _))
  grows := (Set.subset_insert f U).trans hC.grows

end Created

-- ---------------------------------------------------------------------------
-- What the result depends on
-- ---------------------------------------------------------------------------

/-- Why a path cannot be mapped. -/
inductive MapError where
  | frameAllocationFailed
  | parentEntryHugePage
  | pageAlreadyMapped
deriving DecidableEq, Repr

/-- The tables missing on a path. -/
def missing (mem : Tables F I) : F → List I → Nat
  | t, i :: j :: is =>
    match mem t i with
    | .unused => (j :: is).length
    | .next f => missing mem f (j :: is)
    | .huge _ => 0
  | _, _ => 0

/-- The result that the table and the number of free frames give. -/
def outcome (mem : Tables F I) (t : F) (path : List I) (free : Nat) : Except MapError Unit :=
  match mem.translate t path with
  | some (_, []) => .error .pageAlreadyMapped
  | some (_, _ :: _) => .error .parentEntryHugePage
  | none => if mem.missing t path ≤ free then .ok () else .error .frameAllocationFailed

theorem missing_cons (hEntry : mem t i = .next f) {path : List I} (hPath : path ≠ []) :
    mem.missing t (i :: path) = mem.missing f path := by
  obtain ⟨j, is, rfl⟩ := List.exists_cons_of_ne_nil hPath
  rw [missing, hEntry]

theorem outcome_cons (hEntry : mem t i = .next f) {path : List I} (hPath : path ≠ []) (k : Nat) :
    mem.outcome t (i :: path) k = mem.outcome f path k := by
  rw [outcome, outcome, translate_cons hEntry, missing_cons hEntry hPath]

theorem outcome_of_none {path : List I} (h : mem.translate t path = none) (k : Nat) :
    mem.outcome t path k =
      if mem.missing t path ≤ k then .ok () else .error .frameAllocationFailed := by
  rw [outcome, h]

/-- Only a path without a translation can be mapped. -/
theorem translate_of_outcome_ok {path : List I} {k : Nat} (h : mem.outcome t path k = .ok ()) :
    mem.translate t path = none := by
  rw [outcome] at h
  rcases hT : mem.translate t path with _ | ⟨g, _ | ⟨i, rest⟩⟩
  · rfl
  · simp [hT] at h
  · simp [hT] at h

/-- A new table is one less that is missing. -/
theorem Created.missing (h : Created mem t i f mem') (j : I) (is : List I) :
    mem.missing t (i :: j :: is) = mem'.missing t (i :: j :: is) + 1 := by
  have hBelow : mem'.missing f (j :: is) = is.length := by
    cases is with
    | nil => rfl
    | cons k is => rw [Tables.missing, h.empty j]
  rw [missing_cons h.entry (List.cons_ne_nil j is), hBelow, Tables.missing, h.before,
    List.length_cons]

/-- No table is missing on the way to a mapped frame. -/
theorem missing_of_translate {p : List I} (h : mem.translate t (p ++ [i]) = some (f, [])) :
    mem.missing t (p ++ [j]) = 0 := by
  induction p generalizing t with
  | nil => rfl
  | cons k p ih =>
    rw [List.cons_append, translate] at h
    cases hEntry : mem t k with
    | unused => simp [hEntry] at h
    | huge g => simp [hEntry] at h
    | next g =>
      rw [List.cons_append, missing_cons hEntry (by simp)]
      exact ih (by simpa [hEntry] using h)

/-- A supply never gives out a frame in use, and says how many frames it has left. -/
structure Supply (alloc : A → Option F × A) (Inv : A → Prop) (used : A → Set F)
    (free : A → Nat) : Prop where
  some : ∀ {a a' f}, Inv a → alloc a = (some f, a') →
    f ∉ used a ∧ used a' = insert f (used a) ∧ free a = free a' + 1 ∧ Inv a'
  none : ∀ {a a'}, Inv a → alloc a = (none, a') → used a' = used a ∧ free a = 0 ∧ Inv a'

/-- What `mapTo` leaves behind. -/
structure Mapped (Inv : A → Prop) (used : A → Set F) (free : A → Nat) (frame : F) (path : List I)
    (t : F) (mem : Tables F I) (a : A) (after : Except MapError Unit × Tables F I × A) : Prop where
  result  : after.1 = mem.outcome t path (free a)
  changed : Changed (used a) (used after.2.2) path
    (if after.1 = .ok () then some (frame, []) else mem.translate t path) t mem after.2.1
  inv     : Inv after.2.2
  spent   : after.1 = .ok () → free a = free after.2.2 + mem.missing t path

section Mapped

variable {Inv : A → Prop} {used : A → Set F} {free : A → Nat} {a : A} {frame : F} {path : List I}

/-- A failure that leaves everything as it was. -/
theorem mapped_error {e : MapError} {a' : A} (hResult : .error e = mem.outcome t path (free a))
    (hTree : mem.Tree t path.length) (hUsed : ∀ g, mem.IsNode t path.length g → g ∈ used a)
    (hInv : Inv a') (hSame : used a' = used a) :
    Mapped Inv used free frame path t mem a (.error e, mem, a') where
  result := hResult
  changed := by
    show Changed (used a) (used a') path _ t mem mem
    rw [hSame]
    exact changed_refl hTree hUsed rfl
  inv := hInv
  spent := fun h => by simp at h

/-- What `mapTo` does in a subtree it does in the tree. -/
theorem Mapped.parent {after : Except MapError Unit × Tables F I × A}
    (h : Mapped Inv used free frame path f mem a after) (hPath : path ≠ [])
    (hTree : mem.Tree t (path.length + 1))
    (hUsed : ∀ g, mem.IsNode t (path.length + 1) g → g ∈ used a) (hEntry : mem t i = .next f) :
    Mapped Inv used free frame (i :: path) t mem a after where
  result := by rw [outcome_cons hEntry hPath, h.result]
  changed := by
    rw [translate_cons hEntry]
    exact h.changed.parent hTree hUsed hEntry
  inv := h.inv
  spent := by
    rw [missing_cons hEntry hPath]
    exact h.spent

/-- What `mapTo` does below a table it has put in. -/
theorem Mapped.of_created {after : Except MapError Unit × Tables F I × A} {mem₁ : Tables F I}
    {a₁ : A} {is : List I} (hCreated : Created mem t i f mem₁)
    (hTree : mem.Tree t ((j :: is).length + 1))
    (hUsed : ∀ g, mem.IsNode t ((j :: is).length + 1) g → g ∈ used a) (hNew : f ∉ used a)
    (hUsed₁ : used a₁ = insert f (used a)) (hFree : free a = free a₁ + 1)
    (h : Mapped Inv used free frame (i :: j :: is) t mem₁ a₁ after) :
    Mapped Inv used free frame (i :: j :: is) t mem a after := by
  have hTranslate : mem₁.translate t (i :: j :: is) = mem.translate t (i :: j :: is) :=
    hCreated.translate hTree hUsed hNew (Nat.succ_pos _) rfl
  have hMissing := hCreated.missing j is
  refine ⟨?_, ?_, h.inv, ?_⟩
  · rw [h.result, outcome, outcome, hTranslate, hMissing, hFree]
    simp only [Nat.add_le_add_iff_right]
  · have hChanged := h.changed
    rw [hTranslate, hUsed₁] at hChanged
    exact hCreated.changed hTree hUsed hNew (List.cons_ne_nil j is) hChanged
  · intro hOk
    have hSpent := h.spent hOk
    omega

end Mapped

-- ---------------------------------------------------------------------------
-- Mapping
-- ---------------------------------------------------------------------------

section Map

variable [DecidableEq F] [DecidableEq I]

def setEntry (mem : Tables F I) (t : F) (i : I) (e : Entry F) : Tables F I :=
  Function.update mem t (Function.update (mem t) i e)

def zero (mem : Tables F I) (f : F) : Tables F I := Function.update mem f fun _ => .unused

/-- The table an entry leads to; a missing one is taken from the supply and cleared. -/
def createNextTable (alloc : A → Option F × A) (mem : Tables F I) (a : A) (t : F) (i : I) :
    Except MapError F × Tables F I × A :=
  match mem t i with
  | .next f => (.ok f, mem, a)
  | .huge _ => (.error .parentEntryHugePage, mem, a)
  | .unused =>
    match alloc a with
    | (none, a) => (.error .frameAllocationFailed, mem, a)
    | (some f, a) => (.ok f, (mem.setEntry t i (.next f)).zero f, a)

def mapTo (alloc : A → Option F × A) (frame : F) :
    List I → F → Tables F I → A → Except MapError Unit × Tables F I × A
  | [], _, mem, a => (.error .pageAlreadyMapped, mem, a)
  | [i], t, mem, a =>
    match mem t i with
    | .unused => (.ok (), mem.setEntry t i (.next frame), a)
    | _ => (.error .pageAlreadyMapped, mem, a)
  | i :: j :: is, t, mem, a =>
    match createNextTable alloc mem a t i with
    | (.error e, mem, a) => (.error e, mem, a)
    | (.ok f, mem, a) => mapTo alloc frame (j :: is) f mem a

/-- The frame the path was mapped to. No table is given back. -/
def unmap : List I → F → Tables F I → Option F × Tables F I
  | [], _, mem => (none, mem)
  | [i], t, mem =>
    match mem t i with
    | .next f => (some f, mem.setEntry t i .unused)
    | _ => (none, mem)
  | i :: j :: is, t, mem =>
    match mem t i with
    | .next f => unmap (j :: is) f mem
    | _ => (none, mem)

theorem setEntry_self (mem : Tables F I) (t : F) (i : I) (e : Entry F) :
    mem.setEntry t i e t i = e := by
  simp [setEntry]

theorem setEntry_ne_entry (mem : Tables F I) (t : F) (e : Entry F) (hij : i ≠ j) :
    mem.setEntry t i e t j = mem t j := by
  simp [setEntry, Ne.symm hij]

theorem setEntry_of_ne (mem : Tables F I) (i : I) (e : Entry F) (hg : g ≠ t) :
    mem.setEntry t i e g = mem g := by
  simp [setEntry, hg]

theorem created_zero (hEntry : mem t i = .unused) (hne : f ≠ t) :
    Created mem t i f ((mem.setEntry t i (.next f)).zero f) where
  before := hEntry
  entry := by rw [zero, Function.update_of_ne hne.symm, setEntry_self]
  empty := fun j => by rw [zero, Function.update_self]
  same := fun j hij => by rw [zero, Function.update_of_ne hne.symm, setEntry_ne_entry mem t _ hij]
  others := fun g ht hf => by rw [zero, Function.update_of_ne hf, setEntry_of_ne mem i _ ht]

/-- The last level: the only node is the table itself. -/
theorem changed_setEntry {U : Set F} (hUsed : ∀ g, mem.IsNode t 1 g → g ∈ U) (i : I) (e : Entry F) :
    Changed U U [i] ((mem.setEntry t i e).translate t [i]) t mem (mem.setEntry t i e) := by
  have hOnly : ∀ {mem : Tables F I} {g}, mem.IsNode t 1 g → g = t := by
    rintro mem g ⟨p, hp, hWalk⟩
    obtain rfl : p = [] := List.length_eq_zero_iff.mp (Nat.lt_one_iff.mp hp)
    exact (Option.some.inj hWalk).symm
  have hRoot := isNode_root mem t Nat.one_pos
  refine ⟨rfl, ?_, ?_, ?_, ?_, Set.Subset.rfl⟩
  · intro q hq hne
    obtain ⟨j, rfl⟩ := List.length_eq_one_iff.mp hq
    have hij : i ≠ j := fun hEq => hne (by rw [hEq])
    rw [translate, translate, setEntry_ne_entry mem t e hij]
    cases mem t j <;> rfl
  · intro p q g hp hq _ _
    rw [List.length_eq_zero_iff.mp (Nat.lt_one_iff.mp hp),
      List.length_eq_zero_iff.mp (Nat.lt_one_iff.mp hq)]
  · intro g hg
    rw [hOnly hg]
    exact ⟨hUsed t hRoot, .inl hRoot⟩
  · intro g _ hNot
    refine setEntry_of_ne mem i e ?_
    rintro rfl
    exact hNot hRoot

section Spec

variable {alloc : A → Option F × A} {Inv : A → Prop} {used : A → Set F} {free : A → Nat} {a : A}
  {frame : F} {path : List I}

/-- The last level. -/
theorem mapTo_singleton (hInv : Inv a) (hTree : mem.Tree t 1)
    (hUsed : ∀ g, mem.IsNode t 1 g → g ∈ used a) :
    Mapped Inv used free frame [i] t mem a (mapTo alloc frame [i] t mem a) := by
  cases hEntry : mem t i with
  | unused =>
    have hEq : mapTo alloc frame [i] t mem a = (.ok (), mem.setEntry t i (.next frame), a) := by
      simp only [mapTo, hEntry]
    rw [hEq]
    refine ⟨by simp [outcome, translate, hEntry, missing], ?_, hInv, fun _ => rfl⟩
    have hNew : (mem.setEntry t i (.next frame)).translate t [i] = some (frame, []) := by
      rw [translate_cons (setEntry_self mem t i _), translate]
    rw [if_pos rfl, ← hNew]
    exact changed_setEntry hUsed i _
  | next f =>
    have hEq : mapTo alloc frame [i] t mem a = (.error .pageAlreadyMapped, mem, a) := by
      simp only [mapTo, hEntry]
    rw [hEq]
    exact mapped_error (by simp [outcome, translate, hEntry]) hTree hUsed hInv rfl
  | huge f =>
    have hEq : mapTo alloc frame [i] t mem a = (.error .pageAlreadyMapped, mem, a) := by
      simp only [mapTo, hEntry]
    rw [hEq]
    exact mapped_error (by simp [outcome, translate, hEntry]) hTree hUsed hInv rfl

/-- **`mapTo` maps its path and nothing else.** -/
theorem mapTo_spec (hSupply : Supply alloc Inv used free) (frame : F) (hPath : path ≠ [])
    (hInv : Inv a) (hTree : mem.Tree t path.length)
    (hUsed : ∀ g, mem.IsNode t path.length g → g ∈ used a) :
    Mapped Inv used free frame path t mem a (mapTo alloc frame path t mem a) := by
  induction path generalizing t mem a with
  | nil => exact absurd rfl hPath
  | cons i path ih =>
    cases path with
    | nil => exact mapTo_singleton hInv hTree hUsed
    | cons j is =>
      cases hEntry : mem t i with
      | next f =>
        have hEq : mapTo alloc frame (i :: j :: is) t mem a = mapTo alloc frame (j :: is) f mem a := by
          simp only [mapTo, createNextTable, hEntry]
        rw [hEq]
        have hSub := ih (List.cons_ne_nil j is) hInv (hTree.child hEntry)
          fun g hg => hUsed g (hg.child hEntry)
        exact hSub.parent (List.cons_ne_nil j is) hTree hUsed hEntry
      | huge f =>
        have hEq : mapTo alloc frame (i :: j :: is) t mem a =
            (.error .parentEntryHugePage, mem, a) := by
          simp only [mapTo, createNextTable, hEntry]
        rw [hEq]
        exact mapped_error (by simp [outcome, translate, hEntry]) hTree hUsed hInv rfl
      | unused =>
        rcases hAlloc : alloc a with ⟨_ | f, a₁⟩
        · have hEq : mapTo alloc frame (i :: j :: is) t mem a =
              (.error .frameAllocationFailed, mem, a₁) := by
            simp only [mapTo, createNextTable, hEntry, hAlloc]
          obtain ⟨hSame, hNone, hInv₁⟩ := hSupply.none hInv hAlloc
          rw [hEq]
          refine mapped_error ?_ hTree hUsed hInv₁ hSame
          simp [outcome, translate, missing, hEntry, hNone]
        · obtain ⟨hNew, hUsed₁, hFree, hInv₁⟩ := hSupply.some hInv hAlloc
          have hne : f ≠ t := by
            rintro rfl
            exact hNew (hUsed f (isNode_root mem f (Nat.succ_pos _)))
          have hCreated := created_zero hEntry hne
          have hEq : mapTo alloc frame (i :: j :: is) t mem a =
              mapTo alloc frame (j :: is) f ((mem.setEntry t i (.next f)).zero f) a₁ := by
            simp only [mapTo, createNextTable, hEntry, hAlloc]
          rw [hEq]
          generalize (mem.setEntry t i (.next f)).zero f = mem₁ at hCreated ⊢
          have hTree₁ := hCreated.tree hTree hUsed hNew
          have hIn₁ : ∀ g, mem₁.IsNode t ((j :: is).length + 1) g → g ∈ used a₁ := by
            intro g hg
            rw [hUsed₁]
            rcases hCreated.nodes hTree hUsed hNew hg with hOld | rfl
            · exact Set.mem_insert_of_mem f (hUsed g hOld)
            · exact Set.mem_insert g _
          have hSub := ih (List.cons_ne_nil j is) hInv₁ (hTree₁.child hCreated.entry)
            fun g hg => hIn₁ g (hg.child hCreated.entry)
          exact .of_created hCreated hTree hUsed hNew hUsed₁ hFree
            (hSub.parent (List.cons_ne_nil j is) hTree₁ hIn₁ hCreated.entry)

/-- **`unmap` removes its path and nothing else.** Without a frame at its end, nothing
changes. -/
theorem unmap_changed {U : Set F} (hPath : path ≠ []) (hTree : mem.Tree t path.length)
    (hUsed : ∀ g, mem.IsNode t path.length g → g ∈ U) :
    (unmap path t mem).1 = mem.walk t path ∧
      Changed U U path (if (mem.walk t path).isSome then none else mem.translate t path) t mem
        (unmap path t mem).2 := by
  induction path generalizing t with
  | nil => exact absurd rfl hPath
  | cons i path ih =>
    cases path with
    | nil =>
      cases hEntry : mem t i with
      | next f =>
        have hNew : (mem.setEntry t i .unused).translate t [i] = none := by
          rw [translate, setEntry_self]
        simp only [unmap, walk, hEntry, Option.isSome_some, if_true]
        rw [← hNew]
        exact ⟨trivial, changed_setEntry hUsed i _⟩
      | unused =>
        simp only [unmap, walk, hEntry]
        exact ⟨trivial, changed_refl hTree hUsed rfl⟩
      | huge f =>
        simp only [unmap, walk, hEntry]
        exact ⟨trivial, changed_refl hTree hUsed rfl⟩
    | cons j is =>
      cases hEntry : mem t i with
      | next f =>
        have hEq : unmap (i :: j :: is) t mem = unmap (j :: is) f mem := by
          simp only [unmap, hEntry]
        obtain ⟨hResult, hChanged⟩ := ih (List.cons_ne_nil j is) (hTree.child hEntry)
          fun g hg => hUsed g (hg.child hEntry)
        rw [hEq, walk_cons hEntry, translate_cons hEntry]
        exact ⟨hResult, hChanged.parent hTree hUsed hEntry⟩
      | unused =>
        simp only [unmap, walk, hEntry]
        exact ⟨trivial, changed_refl hTree hUsed rfl⟩
      | huge f =>
        simp only [unmap, walk, hEntry]
        exact ⟨trivial, changed_refl hTree hUsed rfl⟩

end Spec

end Map

end Tables

-- ---------------------------------------------------------------------------
-- Mappers
-- ---------------------------------------------------------------------------

open Tables

/-- The two operations, with any source of frames for new tables. -/
structure Mapper (F I : Type*) where
  mapTo : {A : Type} → (A → Option F × A) → F → List I → F → Tables F I → A →
    Except MapError Unit × Tables F I × A
  unmap : List I → F → Tables F I → Option F × Tables F I

/-- **What a client relies on.** On a tree of used frames, with a supply of frames that are not
in use, `mapTo` gives the result that the table and the supply call for, changes the one path or
none, takes new tables from the supply only, and as many as are missing; `unmap` returns the frame
at the end of the path, if there is one, and takes only that path out. -/
structure Mapper.Lawful {F I : Type*} (M : Mapper F I) : Prop where
  mapTo : ∀ {A : Type} {alloc : A → Option F × A} {Inv : A → Prop} {used : A → Set F}
    {free : A → Nat} {a : A} {path : List I} {t : F} {mem : Tables F I},
    Supply alloc Inv used free → ∀ frame, path ≠ [] → Inv a → mem.Tree t path.length →
    (∀ g, mem.IsNode t path.length g → g ∈ used a) →
    Mapped Inv used free frame path t mem a (M.mapTo alloc frame path t mem a)
  unmap : ∀ {U : Set F} {path : List I} {t : F} {mem : Tables F I}, path ≠ [] →
    mem.Tree t path.length → (∀ g, mem.IsNode t path.length g → g ∈ U) →
    (M.unmap path t mem).1 = mem.walk t path ∧
      Changed U U path (if (mem.walk t path).isSome then none else mem.translate t path) t mem
        (M.unmap path t mem).2

def radixMapper {F I : Type*} [DecidableEq F] [DecidableEq I] : Mapper F I where
  mapTo := Tables.mapTo
  unmap := Tables.unmap

theorem radixMapper_lawful {F I : Type*} [DecidableEq F] [DecidableEq I] :
    (radixMapper : Mapper F I).Lawful where
  mapTo hSupply frame hPath hInv hTree hUsed := mapTo_spec hSupply frame hPath hInv hTree hUsed
  unmap hPath hTree hUsed := unmap_changed hPath hTree hUsed

end Neutrix.Lib
