import ConventionalCommit.Text.Basic

/-!
# ConventionalCommit — lines

Two ways to cut a text at its newlines. `rows` cuts at every newline, so `n`
newlines make `n + 1` rows. `lines` reads the text as lines that each end in
a newline, or in a carriage return and a newline: the ending belongs to no
line, and a newline at the very end begins no further line. `unlines` joins
lines again.

* `unlines_rows`: joining the rows gives the text back;
* `not_mem_of_mem_rows`: no row has a newline.
-/

namespace ConventionalCommit.Text

/-- The parts of a text between its newlines; there is always one. -/
def rows : Text → List Text
  | [] => [[]]
  | c :: rest =>
    if c = '\n' then [] :: rows rest
    else
      match rows rest with
      | [] => [[c]]
      | row :: others => (c :: row) :: others

/-- A row without the carriage return that may end it. -/
def dropReturn (row : Text) : Text :=
  if row.getLast? = some '\r' then row.dropLast else row

/-- Rows as lines: a newline ended each row but the last, which counts only
if it has characters. -/
def endings : List Text → List Text
  | [] => []
  | [last] => if last.isEmpty then [] else [last]
  | row :: next :: others => dropReturn row :: endings (next :: others)

/-- The lines of a text. -/
def lines (t : Text) : List Text := endings (rows t)

/-- Lines joined by newlines. -/
def unlines (ls : List Text) : Text := List.intercalate ['\n'] ls

/-- Every text has a row. The empty text has an empty one, and no line. -/
theorem rows_ne_nil (t : Text) : rows t ≠ [] := by
  cases t with
  | nil => exact List.cons_ne_nil _ _
  | cons c rest =>
    simp only [rows]
    split
    · exact List.cons_ne_nil _ _
    · split <;> exact List.cons_ne_nil _ _

@[simp] theorem rows_newline (t : Text) : rows ('\n' :: t) = [] :: rows t := by
  simp [rows]

/-- Joining the rows of a text gives it back. Other than with lines, no return and no newline at the
end is lost. -/
theorem unlines_rows (t : Text) : unlines (rows t) = t := by
  induction t with
  | nil => simp [rows, unlines]
  | cons c rest ih =>
    simp only [rows]
    split
    · next h =>
      rw [unlines, List.intercalate_cons_of_ne_nil (rows_ne_nil rest), ← unlines, ih, h]
      rfl
    · split
      · next h => exact absurd h (rows_ne_nil rest)
      · next row others h =>
        rw [h] at ih
        -- the character goes to the first row, and a newline follows it if there is another
        cases others with
        | nil =>
          rw [unlines, List.intercalate_singleton] at ih ⊢
          rw [ih]
        | cons next others =>
          rw [unlines, List.intercalate_cons_cons] at ih ⊢
          rw [List.cons_append, List.cons_append, ih]

/-- A row has no newline, since each newline of the text ends a row and belongs to none. -/
theorem not_mem_of_mem_rows {t row : Text} (h : row ∈ rows t) : '\n' ∉ row := by
  induction t generalizing row with
  | nil =>
    rw [rows, List.mem_singleton] at h
    simp [h]
  | cons c rest ih =>
    simp only [rows] at h
    split at h
    · rcases List.mem_cons.mp h with rfl | h
      · simp
      · exact ih h
    · -- another character than the newline
      next hc =>
      split at h
      · rw [List.mem_singleton] at h
        simpa [h] using Ne.symm hc
      · next first others hr =>
        rcases List.mem_cons.mp h with rfl | h
        · have := ih (hr ▸ List.mem_cons_self ..)
          simpa [this] using Ne.symm hc
        · exact ih (hr ▸ List.mem_cons_of_mem _ h)

end ConventionalCommit.Text
