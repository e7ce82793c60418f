import ConventionalCommit.Unicode.WhiteSpace

/-!
# ConventionalCommit — text

A text is a list of characters, so that a definition on texts recurses on
its characters and a length counts characters. This module trims white space
(`trim`, `trimmed?`) and searches for one text inside another (`occursIn`).

* `trimStart_append_spaces`, `trimEnd_append_spaces`: trimming takes nothing
  but white space away;
* `occursIn_iff`: the search finds exactly the contiguous sublists.
-/

namespace ConventionalCommit

open Unicode (isWhite)

/-- A sequence of characters. -/
abbrev Text := List Char

namespace Text

-- ---------------------------------------------------------------------------
-- The longest part of a kind in front
-- ---------------------------------------------------------------------------

/-- What is taken from the front of a list is of the kind asked for. -/
theorem of_mem_takeWhile {α : Type} {p : α → Bool} {l : List α} {a : α}
    (h : a ∈ l.takeWhile p) : p a = true :=
  List.all_eq_true.mp List.all_takeWhile a h

/-- A front of one kind is taken whole, if what follows does not begin with that
kind. -/
theorem takeWhile_append_of_head {α : Type} {p : α → Bool} {front rest : List α}
    (hfront : ∀ a ∈ front, p a = true) (hrest : ∀ a ∈ rest.head?, p a = false) :
    (front ++ rest).takeWhile p = front := by
  rw [List.takeWhile_append_of_pos hfront]
  cases rest with
  | nil => simp
  | cons a others => simp [hrest a rfl]

theorem dropWhile_append_of_head {α : Type} {p : α → Bool} {front rest : List α}
    (hfront : ∀ a ∈ front, p a = true) (hrest : ∀ a ∈ rest.head?, p a = false) :
    (front ++ rest).dropWhile p = rest := by
  rw [List.dropWhile_append_of_pos hfront]
  cases rest with
  | nil => rfl
  | cons a others => simp [hrest a rfl]

-- ---------------------------------------------------------------------------
-- Trimming
-- ---------------------------------------------------------------------------

/-- Whether a text has no character other than white space. -/
def isBlank (t : Text) : Bool := t.all isWhite

/-- The text from its first character that is not white space. -/
def trimStart (t : Text) : Text := t.dropWhile isWhite

/-- The text up to its last character that is not white space. -/
def trimEnd (t : Text) : Text := (t.reverse.dropWhile isWhite).reverse

/-- The text without the white space at its two ends. -/
def trim (t : Text) : Text := trimEnd (trimStart t)

/-- The trimmed text, unless nothing is left of it. -/
def trimmed? (t : Text) : Option Text :=
  match trim t with
  | [] => none
  | c :: rest => some (c :: rest)

theorem trimStart_append_spaces (t : Text) : t.takeWhile isWhite ++ trimStart t = t :=
  List.takeWhile_append_dropWhile

theorem trimEnd_append_spaces (t : Text) :
    trimEnd t ++ (t.reverse.takeWhile isWhite).reverse = t := by
  rw [trimEnd, ← List.reverse_append, List.takeWhile_append_dropWhile, List.reverse_reverse]

/-- A text is nothing when it is trimmed exactly if trimming leaves no character. -/
theorem trimmed?_eq_none_iff {t : Text} : trimmed? t = none ↔ trim t = [] := by
  unfold trimmed?
  split <;> simp_all

/-- What is left of a text after trimming it, which is never empty. -/
theorem trimmed?_eq_some_iff {t u : Text} : trimmed? t = some u ↔ trim t = u ∧ u ≠ [] := by
  unfold trimmed?
  split
  · next h => simp only [reduceCtorEq, false_iff, not_and, Decidable.not_not, h]; exact Eq.symm
  · next h =>
    simp only [Option.some.injEq, h]
    constructor
    · rintro rfl
      exact ⟨rfl, List.cons_ne_nil _ _⟩
    · exact fun h => h.1

-- ---------------------------------------------------------------------------
-- Search
-- ---------------------------------------------------------------------------

/-- Whether `w` occurs in a text as a contiguous part. -/
def occursIn (w : Text) : Text → Bool
  | [] => w.isEmpty
  | c :: rest => w.isPrefixOf (c :: rest) || occursIn w rest

/-- The search finds exactly the contiguous sublists. -/
theorem occursIn_iff {w t : Text} : occursIn w t = true ↔ w <:+: t := by
  induction t with
  | nil => simp [occursIn, List.isEmpty_iff]
  | cons c rest ih =>
    rw [occursIn, Bool.or_eq_true, List.isPrefixOf_iff_prefix, ih, List.infix_cons_iff]

end Text

end ConventionalCommit
