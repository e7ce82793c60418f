import ConventionalCommit.Proofs.Text.Rows

/-!
# ConventionalCommit — what shows of a text

The characters of a text that are not white space, in order (`visible`). Trimming a text and
cutting it into lines take nothing away from them, because the ends of lines are white space
as well.

* `visible_trimmed`: trimming keeps what shows;
* `flatMap_visible_lines`: the lines of a text show what the text shows.
-/

namespace ConventionalCommit.Text

open Unicode (isWhite)

variable {t u row : Text} {ls : List Text}

/-- The characters of a text that are not white space. -/
def visible (t : Text) : Text := t.filter fun c => !isWhite c

@[simp] theorem visible_nil : visible [] = [] := rfl

@[simp] theorem visible_append (t u : Text) : visible (t ++ u) = visible t ++ visible u :=
  List.filter_append ..

theorem visible_cons_of_isWhite {c : Char} (hc : isWhite c = true) (t : Text) :
    visible (c :: t) = visible t :=
  List.filter_cons_of_neg (by simp [hc])

theorem visible_cons {c : Char} (hc : isWhite c = false) (t : Text) :
    visible (c :: t) = c :: visible t :=
  List.filter_cons_of_pos (by simp [hc])

/-- A text shows nothing exactly if it is blank, and this is how blank lines drop out of what a
message shows. -/
theorem visible_eq_nil_iff : visible t = [] ↔ isBlank t = true := by
  rw [visible, List.filter_eq_nil_iff, isBlank_iff]
  simp

-- ---------------------------------------------------------------------------
-- Trimming
-- ---------------------------------------------------------------------------

/-- Trimming takes nothing away that shows. -/
theorem visible_trimmed (t : Text) : visible ((trimmed? t).getD []) = visible t := by
  cases h : trimmed? t with
  | none =>
    rw [trimmed?_eq_none_iff_isBlank] at h
    rw [visible_eq_nil_iff.mpr h]
    rfl
  | some u =>
    obtain ⟨front, back, rfl, hfront, hback⟩ := exists_of_trimmed? h
    rw [visible_append, visible_append, visible_eq_nil_iff.mpr hfront,
      visible_eq_nil_iff.mpr hback]
    simp

-- ---------------------------------------------------------------------------
-- Lines
-- ---------------------------------------------------------------------------

theorem visible_flatten (ls : List Text) : visible ls.flatten = ls.flatMap visible := by
  rw [visible, List.filter_flatten, List.flatMap]
  rfl

/-- The newlines that join lines are white space, so joining lines shows what the lines show one
after the other. -/
theorem visible_unlines (ls : List Text) : visible (unlines ls) = ls.flatMap visible := by
  induction ls with
  | nil => rfl
  | cons l rest ih =>
    rw [List.flatMap_cons, ← ih]
    -- no newline follows the last line
    by_cases hr : rest = []
    · rw [hr, unlines_singleton, unlines_nil, visible_nil, List.append_nil]
    · rw [unlines_cons l hr, visible_append, visible_cons_of_isWhite Unicode.isWhite_newline]

/-- A carriage return is white space, so a line that loses one shows what it showed. -/
@[simp] theorem visible_dropReturn (row : Text) : visible (dropReturn row) = visible row := by
  rcases dropReturn_cases row with ⟨-, h⟩ | h
  · rw [h]
  · conv_rhs => rw [h, visible_append]
    simp [visible]

/-- The ends of lines do not show, nor does an empty last row. So lines may be read, joined and read
again without a change of what shows. -/
theorem flatMap_visible_endings (ls : List Text) :
    (endings ls).flatMap visible = ls.flatMap visible := by
  induction ls with
  | nil => rfl
  | cons row rest ih =>
    cases rest with
    | nil =>
      rw [endings]
      -- the last row is a line only if it is not empty
      split
      · next hempty =>
        rw [List.isEmpty_iff.mp hempty]
        rfl
      · rfl
    | cons next others =>
      rw [endings, List.flatMap_cons, List.flatMap_cons, visible_dropReturn, ih]

theorem flatMap_visible_lines (t : Text) : (lines t).flatMap visible = visible t := by
  rw [lines, flatMap_visible_endings, ← visible_unlines, unlines_rows]

/-- Blank lines add nothing to what the lines around them show. -/
theorem flatMap_visible_of_isBlank (h : ∀ l ∈ ls, isBlank l = true) : ls.flatMap visible = [] :=
  List.flatMap_eq_nil_iff.mpr fun l hl => visible_eq_nil_iff.mpr (h l hl)

end ConventionalCommit.Text
