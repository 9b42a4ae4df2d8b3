import Mathlib.Data.List.Basic
import Mathlib.Tactic.SplitIfs

/-!
# Breaking a text into lines

A text is split at a separator, and every piece is broken into lines of at
most `width` symbols (`wrapLines`). `typeset` does the same in one pass: it
extends the current line symbol by symbol, and a full line is only left when
another symbol is to be put on it. The two agree (`typeset_nil`).
-/

namespace Neutrix.Lib

variable {α β : Type*}

-- ---------------------------------------------------------------------------
-- One piece
-- ---------------------------------------------------------------------------

/-- Lines of `width` symbols, and the rest. A piece of at most `width` symbols, the
empty one included, is one line. -/
def wrapPiece (width : Nat) (piece : List α) : List (List α) :=
  if 0 < width ∧ width < piece.length then
    piece.take width :: wrapPiece width (piece.drop width)
  else [piece]
termination_by piece.length
decreasing_by
  rw [List.length_drop]
  omega

variable {width : Nat}

theorem wrapPiece_of_le {piece : List α} (h : piece.length ≤ width) :
    wrapPiece width piece = [piece] := by
  rw [wrapPiece, if_neg (by omega)]

theorem wrapPiece_full {line rest : List α} (hWidth : 0 < width) (hLine : line.length = width)
    (hRest : rest ≠ []) : wrapPiece width (line ++ rest) = line :: wrapPiece width rest := by
  have hPos := List.length_pos_of_ne_nil hRest
  rw [wrapPiece, if_pos ⟨hWidth, by rw [List.length_append]; omega⟩, ← hLine,
    List.take_left, List.drop_left]

-- ---------------------------------------------------------------------------
-- Texts
-- ---------------------------------------------------------------------------

variable [DecidableEq α] [DecidableEq β]

def wrapLines (sep : α) (width : Nat) (text : List α) : List (List α) :=
  (text.splitOn sep).flatMap (wrapPiece width)

/-- The lines of the text when `line` is the line begun so far. -/
def typeset (sep : α) (width : Nat) : List α → List α → List (List α)
  | line, [] => [line]
  | line, a :: rest =>
    if a = sep then line :: typeset sep width [] rest
    else if width ≤ line.length then line :: typeset sep width [a] rest
    else typeset sep width (line ++ [a]) rest

/-- The current line is wrapped together with the rest of its piece. -/
theorem typeset_eq (sep : α) (hWidth : 0 < width) (text line : List α)
    (hLine : line.length ≤ width) :
    ∃ piece pieces, text.splitOn sep = piece :: pieces ∧
      typeset sep width line text =
        wrapPiece width (line ++ piece) ++ pieces.flatMap (wrapPiece width) := by
  induction text generalizing line with
  | nil =>
    refine ⟨[], [], List.splitOn_nil sep, ?_⟩
    rw [typeset, List.append_nil, wrapPiece_of_le hLine, List.flatMap_nil, List.append_nil]
  | cons a rest ih =>
    rw [List.splitOn_cons_eq_if_modifyHead, typeset]
    by_cases hSep : a = sep
    · obtain ⟨piece, pieces, hSplit, hTypeset⟩ := ih [] (Nat.zero_le width)
      refine ⟨[], piece :: pieces, by simp [hSep, hSplit], ?_⟩
      rw [if_pos hSep, hTypeset, List.append_nil, wrapPiece_of_le hLine, List.nil_append,
        List.flatMap_cons, List.singleton_append]
    · have hHead : ∀ piece pieces, rest.splitOn sep = piece :: pieces →
          (if (a == sep) = true then [] :: rest.splitOn sep
            else (rest.splitOn sep).modifyHead (List.cons a)) = (a :: piece) :: pieces := by
        intro piece pieces hSplit
        simp [hSep, hSplit]
      rw [if_neg hSep]
      by_cases hFull : width ≤ line.length
      · -- the line is full, and `a` begins the next one
        obtain ⟨piece, pieces, hSplit, hTypeset⟩ := ih [a] hWidth
        refine ⟨a :: piece, pieces, hHead piece pieces hSplit, ?_⟩
        rw [if_pos hFull, hTypeset,
          wrapPiece_full hWidth (Nat.le_antisymm hLine hFull) (List.cons_ne_nil a piece),
          List.singleton_append, List.cons_append]
      · obtain ⟨piece, pieces, hSplit, hTypeset⟩ := ih (line ++ [a])
          (by rw [List.length_append, List.length_singleton]; omega)
        refine ⟨a :: piece, pieces, hHead piece pieces hSplit, ?_⟩
        rw [if_neg hFull, hTypeset, List.append_assoc, List.singleton_append]

/-- **One pass gives the lines of the text.** -/
theorem typeset_nil (sep : α) (hWidth : 0 < width) (text : List α) :
    typeset sep width [] text = wrapLines sep width text := by
  obtain ⟨piece, pieces, hSplit, hTypeset⟩ :=
    typeset_eq sep hWidth text [] (Nat.zero_le width)
  rw [hTypeset, wrapLines, hSplit, List.flatMap_cons, List.nil_append]

/-- Symbols may be replaced before or after, if separators are left alone. -/
theorem typeset_map {f : α → β} {sep : α} {sep' : β} (hSep : ∀ a, f a = sep' ↔ a = sep)
    (text line : List α) :
    typeset sep' width (line.map f) (text.map f) =
      (typeset sep width line text).map (List.map f) := by
  induction text generalizing line with
  | nil => rfl
  | cons a rest ih =>
    rw [List.map_cons, typeset, typeset]
    by_cases hA : a = sep
    · rw [if_pos ((hSep a).mpr hA), if_pos hA, List.map_cons, ← ih []]
      rfl
    · rw [if_neg (mt (hSep a).mp hA), if_neg hA, List.length_map]
      split_ifs
      · rw [List.map_cons, ← ih [a]]
        rfl
      · rw [← ih (line ++ [a]), List.map_append]
        rfl

end Neutrix.Lib
