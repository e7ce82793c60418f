import ConventionalCommit.Proofs.Text.Tight
import ConventionalCommit.Text.Lines

/-!
# ConventionalCommit — rows and lines of joined texts

Rows are what joining undoes (`rows_eq_iff`), so the rows of a text put together
from others follow from how `unlines` puts it together. Lines are the rows
without a carriage return each and without an empty last row
(`lines_of_rows`).

* `rows_append_newline`, `lines_append_newline`: cutting at a newline;
* `ReturnsBelow`: how many carriage returns a newline may have before it;
* `returnsBelow_unlines_lines`: reading lines takes one return from each;
* `Tight.lines_eq_rows`: a tight text without returns before its newlines has
  its rows as lines.
-/

namespace ConventionalCommit.Text

open Unicode (isWhite)

variable {t u row : Text} {ls xs ys : List Text} {k : Nat}

-- ---------------------------------------------------------------------------
-- Joining
-- ---------------------------------------------------------------------------

@[simp] theorem unlines_nil : unlines [] = [] := rfl

@[simp] theorem unlines_singleton (l : Text) : unlines [l] = l := List.intercalate_singleton

/-- A newline stands between two lines, so the first is followed by one only if there are more. -/
theorem unlines_cons (l : Text) (h : ls ≠ []) : unlines (l :: ls) = l ++ '\n' :: unlines ls := by
  rw [unlines, List.intercalate_cons_of_ne_nil h]
  simp [unlines]

/-- Joining two lists and joining their concatenation differ by one separator, which is missing if
either list is empty. Stated for any separator, since rows of words are joined by spaces and lines
by newlines. By induction on the first list. -/
theorem intercalate_append {α : Type} (between : List α) {ps qs : List (List α)} (hp : ps ≠ [])
    (hq : qs ≠ []) : List.intercalate between (ps ++ qs) =
      List.intercalate between ps ++ (between ++ List.intercalate between qs) := by
  induction ps with
  | nil => exact absurd rfl hp
  | cons p rest ih =>
    -- the last of the first list is where the two parts meet
    by_cases hrest : rest = []
    · rw [hrest, List.singleton_append, List.intercalate_cons_of_ne_nil hq,
        List.intercalate_singleton, List.append_assoc]
    · rw [List.cons_append, List.intercalate_cons_of_ne_nil (by simp [hrest]), ih hrest,
        List.intercalate_cons_of_ne_nil hrest, List.append_assoc (p ++ between)]

theorem unlines_append (hx : xs ≠ []) (hy : ys ≠ []) :
    unlines (xs ++ ys) = unlines xs ++ '\n' :: unlines ys :=
  intercalate_append ['\n'] hx hy

/-- What is joined goes on as its last part does. -/
theorem intercalate_concat_append {α : Type} (between : List α) (ps : List (List α))
    (p q : List α) :
    List.intercalate between (ps ++ [p ++ q]) = List.intercalate between (ps ++ [p]) ++ q := by
  induction ps with
  | nil => simp
  | cons first rest ih =>
    rw [List.cons_append, List.cons_append, List.intercalate_cons_of_ne_nil (by simp),
      List.intercalate_cons_of_ne_nil (by simp), ih, ← List.append_assoc]

theorem unlines_concat_append (xs : List Text) (l u : Text) :
    unlines (xs ++ [l]) ++ u = unlines (xs ++ [l ++ u]) :=
  (intercalate_concat_append ['\n'] xs l u).symm

/-- Lines that stand together in a list stand together in the joined text. An empty list on either
side brings no newline, which is why the three lists are taken one by one. -/
theorem unlines_isInfix (xs ys zs : List Text) : unlines ys <:+: unlines (xs ++ ys ++ zs) := by
  by_cases hy : ys = []
  · rw [hy]
    exact List.nil_infix
  · have hright : unlines ys <:+: unlines (ys ++ zs) := by
      by_cases hz : zs = []
      · rw [hz, List.append_nil]
      · rw [unlines_append hy hz]
        exact List.infix_append_left
    by_cases hx : xs = []
    · rw [hx, List.nil_append]
      exact hright
    · rw [List.append_assoc, unlines_append hx (by simp [hy])]
      exact List.infix_append_of_infix_right (hright.trans (List.suffix_cons _ _).isInfix)

/-- Newlines are white space, so joining adds nothing that shows. -/
theorem isBlank_unlines : isBlank (unlines ls) = ls.all isBlank := by
  induction ls with
  | nil => rfl
  | cons l rest ih =>
    by_cases hr : rest = []
    · rw [hr, unlines_singleton, List.all_cons, List.all_nil, Bool.and_true]
    · rw [unlines_cons l hr, isBlank_append, List.all_cons, ← ih]
      simp [isBlank]

/-- A joined text begins as its first line does. An empty first line would let the newline after it
come first. -/
theorem head?_unlines_cons {l : Text} (hne : l ≠ []) (xs : List Text) :
    (unlines (l :: xs)).head? = l.head? := by
  by_cases hx : xs = []
  · rw [hx, unlines_singleton]
  · rw [unlines_cons l hx, List.head?_append_of_ne_nil _ hne]

/-- A joined text ends as its last line does, for the same reason. -/
theorem getLast?_unlines_concat {l : Text} (hne : l ≠ []) (xs : List Text) :
    (unlines (xs ++ [l])).getLast? = l.getLast? := by
  by_cases hx : xs = []
  · rw [hx, List.nil_append, unlines_singleton]
  · rw [unlines_append hx (List.cons_ne_nil _ _), unlines_singleton,
      List.getLast?_append_of_ne_nil _ (List.cons_ne_nil _ _), ← List.singleton_append,
      List.getLast?_append_of_ne_nil _ hne]

/-- The first and the last row decide whether a text is tight, since the text begins as the one and
ends as the other does. -/
theorem tight_unlines (hne : ls ≠ [])
    (hfirst : ∀ l ∈ ls.head?, l ≠ [] ∧ ∀ c ∈ l.head?, isWhite c = false)
    (hlast : ∀ l ∈ ls.getLast?, l ≠ [] ∧ ∀ c ∈ l.getLast?, isWhite c = false) :
    Tight (unlines ls) := by
  -- the end is taken from the list cut at its last line, the start from the list cut at its first
  have hend : ∀ c ∈ (unlines ls).getLast?, isWhite c = false := by
    obtain ⟨xs, l, rfl⟩ := List.eq_nil_or_concat' ls |>.resolve_left hne
    obtain ⟨hl, hwhite⟩ := hlast l List.getLast?_concat
    rwa [getLast?_unlines_concat hl]
  obtain ⟨l, xs, rfl⟩ := List.exists_cons_of_ne_nil hne
  obtain ⟨hl, hwhite⟩ := hfirst l rfl
  have hhead := head?_unlines_cons hl xs
  refine ⟨fun hnil => ?_, by rwa [hhead], hend⟩
  rw [hnil] at hhead
  exact hl (List.head?_eq_none_iff.mp hhead.symm)

-- ---------------------------------------------------------------------------
-- Rows
-- ---------------------------------------------------------------------------

/-- Rows are cut at newlines and nowhere else, by induction on the text. -/
theorem rows_of_not_mem (h : '\n' ∉ t) : rows t = [t] := by
  induction t with
  | nil => rfl
  | cons c rest ih =>
    rw [List.mem_cons, not_or] at h
    rw [rows, if_neg (Ne.symm h.1), ih h.2]

theorem rows_append_newline_of_not_mem (h : '\n' ∉ t) (u : Text) :
    rows (t ++ '\n' :: u) = t :: rows u := by
  induction t with
  | nil => exact rows_newline u
  | cons c rest ih =>
    rw [List.mem_cons, not_or] at h
    rw [List.cons_append, rows, if_neg (Ne.symm h.1), ih h.2]

/-- Cutting undoes joining, if no line has a newline of its own. The empty list is left out: it is
joined to the empty text, whose only row is empty. -/
theorem rows_unlines (hne : ls ≠ []) (h : ∀ l ∈ ls, '\n' ∉ l) : rows (unlines ls) = ls := by
  induction ls with
  | nil => exact absurd rfl hne
  | cons l rest ih =>
    have hl := h l (List.mem_cons_self ..)
    by_cases hr : rest = []
    · rw [hr, unlines_singleton, rows_of_not_mem hl]
    · rw [unlines_cons l hr, rows_append_newline_of_not_mem hl,
        ih hr fun x hx => h x (List.mem_cons_of_mem _ hx)]

/-- The rows of a text are the texts without newlines that it is joined from. -/
theorem rows_eq_iff : rows t = ls ↔ ls ≠ [] ∧ (∀ l ∈ ls, '\n' ∉ l) ∧ unlines ls = t := by
  constructor
  · rintro rfl
    exact ⟨rows_ne_nil t, fun _ h => not_mem_of_mem_rows h, unlines_rows t⟩
  · rintro ⟨hne, h, rfl⟩
    exact rows_unlines hne h

/-- A newline separates the rows on its left from those on its right. The uniqueness in
`rows_eq_iff` saves an induction here: both sides are rows that join to the same text. -/
theorem rows_append_newline (t u : Text) : rows (t ++ '\n' :: u) = rows t ++ rows u := by
  refine rows_eq_iff.mpr ⟨by simp [rows_ne_nil], fun l hl => ?_, ?_⟩
  · rcases List.mem_append.mp hl with hl | hl <;> exact not_mem_of_mem_rows hl
  · rw [unlines_append (rows_ne_nil t) (rows_ne_nil u), unlines_rows, unlines_rows]

/-- A row is a part of the text. -/
theorem isInfix_of_mem_rows (h : row ∈ rows t) : row <:+: t := by
  -- a row is a list of one between the rows before and after it
  obtain ⟨xs, ys, hrows⟩ := List.append_of_mem h
  obtain ⟨_, _, rfl⟩ := rows_eq_iff.mp hrows
  have hpart := unlines_isInfix xs [row] ys
  rwa [unlines_singleton, List.append_assoc, List.singleton_append] at hpart

theorem exists_rows_eq_concat (t : Text) : ∃ front last, rows t = front ++ [last] :=
  ⟨_, _, (List.dropLast_append_getLast (rows_ne_nil t)).symm⟩

theorem getLast?_of_rows {last : Text} (h : rows t = xs ++ [last]) (hne : last ≠ []) :
    t.getLast? = last.getLast? := by
  obtain ⟨_, _, rfl⟩ := rows_eq_iff.mp h
  exact getLast?_unlines_concat hne xs

/-- The last row of a tight text is tight at its end and not empty. -/
theorem Tight.last_row {last : Text} (h : Tight t) (hr : rows t = xs ++ [last]) :
    last ≠ [] ∧ ∀ c ∈ last.getLast?, isWhite c = false := by
  have hne : last ≠ [] := by
    rintro rfl
    obtain ⟨_, _, rfl⟩ := rows_eq_iff.mp hr
    -- an empty last row means an empty text, or a newline at its end
    by_cases hx : xs = []
    · exact h.ne_nil (by rw [hx]; rfl)
    · have := h.last '\n' (by
        rw [unlines_append hx (List.cons_ne_nil _ _)]
        simp)
      simp at this
  exact ⟨hne, fun c hc => h.last c (by rwa [getLast?_of_rows hr hne])⟩

/-- The first row of a tight text is tight at its start and not empty. -/
theorem Tight.first_row {first : Text} (h : Tight t) (hr : rows t = first :: xs) :
    first ≠ [] ∧ ∀ c ∈ first.head?, isWhite c = false := by
  obtain ⟨_, _, rfl⟩ := rows_eq_iff.mp hr
  by_cases hx : xs = []
  · rw [hx, unlines_singleton] at h
    exact ⟨h.ne_nil, h.head⟩
  · rw [unlines_cons first hx] at h
    have hne : first ≠ [] := by
      -- an empty first row would leave a newline at the start
      rintro rfl
      have := h.head '\n' rfl
      simp at this
    exact ⟨hne, fun c hc => h.head c (by rwa [List.head?_append_of_ne_nil _ hne])⟩

-- ---------------------------------------------------------------------------
-- Lines
-- ---------------------------------------------------------------------------

/-- Only a carriage return at the very end of a row is taken for a part of the line ending. -/
theorem dropReturn_eq_self (h : row.getLast? ≠ some '\r') : dropReturn row = row := if_neg h

theorem map_dropReturn_eq_self (h : ∀ l ∈ ls, l.getLast? ≠ some '\r') :
    ls.map dropReturn = ls := by
  rw [List.map_congr_left (g := id), List.map_id]
  intro l hl
  exact dropReturn_eq_self (h l hl)

@[simp] theorem dropReturn_concat (row : Text) : dropReturn (row ++ ['\r']) = row := by
  rw [dropReturn, if_pos (by simp), List.dropLast_concat]

/-- A row is what is kept of it, with or without a return. -/
theorem dropReturn_cases (row : Text) :
    (row.getLast? ≠ some '\r' ∧ dropReturn row = row) ∨ row = dropReturn row ++ ['\r'] := by
  by_cases h : row.getLast? = some '\r'
  · obtain ⟨front, rfl⟩ := List.getLast?_eq_some_iff.mp h
    rw [dropReturn_concat]
    exact Or.inr rfl
  · exact Or.inl ⟨h, dropReturn_eq_self h⟩

/-- A line is the start of its row in either case, which is all that most proofs need of it. -/
theorem dropReturn_isPrefix (row : Text) : dropReturn row <+: row := by
  rcases dropReturn_cases row with ⟨_, h⟩ | h
  · rw [h]
  · exact ⟨_, h.symm⟩

@[simp] theorem isBlank_dropReturn (row : Text) : isBlank (dropReturn row) = isBlank row := by
  rcases dropReturn_cases row with ⟨_, h⟩ | h
  · rw [h]
  · conv_rhs => rw [h]
    simp [isBlank]

/-- A line that is not empty begins as its row does; a row that is a single return becomes an empty
line, which begins with nothing. -/
theorem mem_head?_of_dropReturn {c : Char} (h : c ∈ (dropReturn row).head?) : c ∈ row.head? := by
  obtain ⟨tail, htail⟩ := dropReturn_isPrefix row
  rw [← htail, List.head?_append_of_ne_nil]
  · exact h
  · intro hnil
    rw [hnil] at h
    cases h

/-- Only the end of a row matters, so something in front of it stays as it is. -/
theorem dropReturn_append (t : Text) (hu : u ≠ []) : dropReturn (t ++ u) = t ++ dropReturn u := by
  unfold dropReturn
  rw [List.getLast?_append_of_ne_nil _ hu]
  split
  · rw [List.dropLast_append_of_ne_nil hu]
  · rfl

/-- Trimming takes the return anyway, so it makes no difference whether the line ending took it
first. -/
@[simp] theorem trimmed?_dropReturn (row : Text) : trimmed? (dropReturn row) = trimmed? row := by
  rcases dropReturn_cases row with ⟨_, h⟩ | h
  · rw [h]
  · conv_rhs => rw [h, trimmed?_append_of_isBlank _ (by decide)]

/-- The returns are dropped row by row, except that the last row is treated apart; so the front of a
list is mapped as long as something follows it. -/
theorem endings_append (h : ys ≠ []) : endings (xs ++ ys) = xs.map dropReturn ++ endings ys := by
  induction xs with
  | nil => rfl
  | cons x rest ih =>
    obtain ⟨y, others, hy⟩ := List.exists_cons_of_ne_nil (l := rest ++ ys) (by simp [h])
    rw [List.cons_append, hy, endings, ← hy, ih, List.map_cons, List.cons_append]

/-- Up to a newline all rows are complete, and their lines do not depend on what follows. -/
theorem lines_append_newline (t u : Text) :
    lines (t ++ '\n' :: u) = (rows t).map dropReturn ++ lines u := by
  rw [lines, rows_append_newline, endings_append (rows_ne_nil u), lines]

@[simp] theorem lines_newline (t : Text) : lines ('\n' :: t) = [] :: lines t :=
  lines_append_newline [] t

theorem lines_of_rows {last : Text} (h : rows t = xs ++ [last]) (hne : last ≠ []) :
    lines t = xs.map dropReturn ++ [last] := by
  -- no newline ends the last row, so its return stays
  rw [lines, h, endings_append (List.cons_ne_nil _ _)]
  simp [endings, hne]

/-- The lines are the rows before the last without their returns, and the last one unless
it is empty. -/
theorem lines_cases (t : Text) : ∃ front last, rows t = front ++ [last] ∧
    (last = [] ∧ lines t = front.map dropReturn ∨
      last ≠ [] ∧ lines t = front.map dropReturn ++ [last]) := by
  obtain ⟨front, last, h⟩ := exists_rows_eq_concat t
  refine ⟨front, last, h, ?_⟩
  by_cases hne : last = []
  · left
    rw [lines, h, endings_append (List.cons_ne_nil _ _), hne]
    simp [endings]
  · exact Or.inr ⟨hne, lines_of_rows h hne⟩

/-- Only the empty text has no lines. -/
theorem lines_eq_nil_iff : lines t = [] ↔ t = [] := by
  constructor
  · intro h
    obtain ⟨front, last, hrows, ⟨rfl, hl⟩ | ⟨-, hl⟩⟩ := lines_cases t
    · -- without lines the only row is the last one, and it is empty
      rw [h, eq_comm, List.map_eq_nil_iff] at hl
      rw [← unlines_rows t, hrows, hl]
      rfl
    · rw [h] at hl
      simp at hl
  · rintro rfl
    rfl

/-- Lines that are joined are read back, if none of them can be mistaken for the end of one: a
newline would cut it, a return at its end would go, and an empty one at the end would not count. -/
theorem lines_unlines (h : ∀ l ∈ ls, '\n' ∉ l ∧ l ≠ [] ∧ l.getLast? ≠ some '\r') :
    lines (unlines ls) = ls := by
  rcases List.eq_nil_or_concat' ls with rfl | ⟨front, last, rfl⟩
  · rfl
  · have hrows : rows (unlines (front ++ [last])) = front ++ [last] :=
      rows_unlines (by simp) fun l hl => (h l hl).1
    have hkept : front.map dropReturn = front :=
      map_dropReturn_eq_self fun l hl => (h l (List.mem_append_left _ hl)).2.2
    rw [lines_of_rows hrows (h last List.mem_concat_self).2.1, hkept]

/-- A line is the start of a row: all of it, but perhaps a return. -/
theorem exists_row_of_mem_lines {l : Text} (h : l ∈ lines t) : ∃ row ∈ rows t, l <+: row := by
  obtain ⟨front, last, hr, hl⟩ := lines_cases t
  have hfront : l ∈ front.map dropReturn → ∃ row ∈ rows t, l <+: row := by
    intro hl
    obtain ⟨row, hrow, rfl⟩ := List.mem_map.mp hl
    exact ⟨row, hr ▸ List.mem_append_left _ hrow, dropReturn_isPrefix row⟩
  rcases hl with ⟨-, hl⟩ | ⟨-, hl⟩
  · exact hfront (hl ▸ h)
  · rcases List.mem_append.mp (hl ▸ h) with h | h
    · exact hfront h
    · rw [List.mem_singleton.mp h]
      exact ⟨last, hr ▸ List.mem_concat_self, List.prefix_rfl⟩

/-- A line is a part of a row, and rows are cut at every newline. -/
theorem not_mem_of_mem_lines {l : Text} (h : l ∈ lines t) : '\n' ∉ l := by
  obtain ⟨row, hrow, hpart⟩ := exists_row_of_mem_lines h
  exact fun hn => not_mem_of_mem_rows hrow (hpart.subset hn)

/-- Every row but the first is opened by a newline of its own, so there are no more than one more
than there are characters. -/
theorem length_rows_le (t : Text) : (rows t).length ≤ t.length + 1 := by
  induction t with
  | nil => exact Nat.le_refl _
  | cons c rest ih =>
    rw [rows, List.length_cons]
    split
    · rw [List.length_cons]
      omega
    · split
      · exact Nat.le_add_left _ _
      · next h =>
        rw [h, List.length_cons] at ih
        rw [List.length_cons]
        omega

/-- Only an empty last row is left out; all others become a line each. -/
theorem length_endings_le (ls : List Text) : (endings ls).length ≤ ls.length := by
  induction ls with
  | nil => exact Nat.le_refl _
  | cons row rest ih =>
    cases rest with
    | nil =>
      unfold endings
      split <;> simp
    | cons next others =>
      rw [endings, List.length_cons, List.length_cons]
      exact Nat.succ_le_succ ih

/-- A newline ends a line, so there is at most one line more than there are characters. -/
theorem length_lines_le (t : Text) : (lines t).length ≤ t.length + 1 :=
  Nat.le_trans (length_endings_le _) (length_rows_le t)

/-- A line is a part of the text, so it is no longer. -/
theorem length_le_of_mem_lines {l : Text} (h : l ∈ lines t) : l.length ≤ t.length := by
  obtain ⟨row, hrow, hpart⟩ := exists_row_of_mem_lines h
  exact Nat.le_trans hpart.length_le (isInfix_of_mem_rows hrow).length_le

/-- A return is white space, and a tight text does not end in white space. -/
theorem Tight.getLast?_ne_return (h : Tight t) : t.getLast? ≠ some '\r' := by
  intro hr
  have := h.last '\r' hr
  simp at this

/-- A tight text has a tight last line, the last row. It is not empty, so it counts as a line, and
it has no return to lose. -/
theorem Tight.lines_eq (h : Tight t) : ∃ front last, rows t = front ++ [last] ∧
    last ≠ [] ∧ (∀ c ∈ last.getLast?, isWhite c = false) ∧
    lines t = front.map dropReturn ++ [last] := by
  obtain ⟨front, last, hr⟩ := exists_rows_eq_concat t
  obtain ⟨hne, hlast⟩ := h.last_row hr
  exact ⟨front, last, hr, hne, hlast, lines_of_rows hr hne⟩

/-- In a tight text the last row needs no exception: it is not empty, and it has no return to keep.
-/
theorem Tight.lines_eq_map (h : Tight t) : lines t = (rows t).map dropReturn := by
  obtain ⟨front, last, hrows, -, hlast, hlines⟩ := h.lines_eq
  have hkeep : dropReturn last = last := dropReturn_eq_self fun hr => by
    have := hlast '\r' hr
    simp at this
  rw [hlines, hrows, List.map_append, List.map_singleton, hkeep]

/-- The first line of a tight text begins as the text does. It is not empty, because a text that
begins with a newline is not tight. -/
theorem Tight.first_line {l : Text} (h : Tight t) (hl : l ∈ (lines t).head?) :
    l ≠ [] ∧ ∀ c ∈ l.head?, isWhite c = false := by
  obtain ⟨front, last, hrows, -, -, hlines⟩ := h.lines_eq
  rw [hlines] at hl
  cases front with
  | nil =>
    obtain rfl : last = l := Option.some.inj hl
    exact h.first_row hrows
  | cons x rest =>
    obtain rfl : dropReturn x = l := Option.some.inj hl
    obtain ⟨hx, hhead⟩ := h.first_row hrows
    -- the first row has a character that shows, so it is more than a return
    have hkept : dropReturn x ≠ [] := by
      intro hnil
      have hblank := isBlank_eq_false_of_head hx hhead
      rw [← isBlank_dropReturn, hnil] at hblank
      cases hblank
    exact ⟨hkept, fun c hc => hhead c (mem_head?_of_dropReturn hc)⟩

/-- The last line of a tight text ends as the text does, because no return is taken from it. -/
theorem Tight.last_line {l : Text} (h : Tight t) (hl : l ∈ (lines t).getLast?) :
    l ≠ [] ∧ ∀ c ∈ l.getLast?, isWhite c = false := by
  obtain ⟨front, last, -, hne, hlast, hlines⟩ := h.lines_eq
  rw [hlines, List.getLast?_concat] at hl
  obtain rfl := Option.some.inj hl
  exact ⟨hne, hlast⟩

theorem Tight.lines_ne_nil (h : Tight t) : lines t ≠ [] := by
  rw [h.lines_eq_map, ne_eq, List.map_eq_nil_iff]
  exact rows_ne_nil t

/-- Lines have no newlines, so joined again they are the rows of the new text. Its returns are gone
by then, unless a row had more than one. -/
theorem Tight.rows_unlines_lines (h : Tight t) : rows (unlines (lines t)) = lines t :=
  rows_unlines h.lines_ne_nil fun _ hl => not_mem_of_mem_lines hl

/-- Cutting a tight text into lines and joining them gives a tight text, since its two ends are
touched by nothing. -/
theorem Tight.unlines_lines (h : Tight t) : Tight (unlines (lines t)) :=
  tight_unlines h.lines_ne_nil (fun _ hl => h.first_line hl) fun _ hl => h.last_line hl

-- ---------------------------------------------------------------------------
-- Returns before newlines
-- ---------------------------------------------------------------------------

/-- No newline of the text has `k` carriage returns directly before it. -/
def ReturnsBelow (k : Nat) (t : Text) : Prop := ¬ (List.replicate k '\r' ++ ['\n']) <:+: t

/-- A part of a text has no newline that the text has not. -/
theorem ReturnsBelow.of_isInfix (h : ReturnsBelow k t) (hu : u <:+: t) : ReturnsBelow k u :=
  fun hr => h (hr.trans hu)

/-- There are never more returns in a row than characters, which bounds every text by some `k`.
Inductions on the number of returns start from here. -/
theorem returnsBelow_length (t : Text) : ReturnsBelow (t.length + 1) t := by
  intro h
  have hlen := h.length_le
  rw [List.length_append, List.length_replicate, List.length_singleton] at hlen
  omega

/-- A greater bound is a weaker one: `k` returns before a newline include any smaller number of
them. -/
theorem ReturnsBelow.mono {j : Nat} (h : ReturnsBelow j t) (hjk : j ≤ k) : ReturnsBelow k t := by
  intro hr
  obtain ⟨i, rfl⟩ := Nat.exists_eq_add_of_le' hjk
  rw [← List.replicate_append_replicate, List.append_assoc] at hr
  exact h ((List.suffix_append _ _).isInfix.trans hr)

/-- A row with at least one return at its end has one as its last character. -/
theorem getLast?_of_returns (hk : 0 < k) (h : List.replicate k '\r' <:+ row) :
    row.getLast? = some '\r' := by
  obtain ⟨front, rfl⟩ := h
  rw [List.getLast?_append_of_ne_nil _ (by simp; omega), List.getLast?_replicate,
    if_neg (by omega)]

/-- In terms of rows: each row that a newline ends has fewer returns at its end. -/
theorem returnsBelow_iff (h : rows t = xs ++ [row]) :
    ReturnsBelow k t ↔ ∀ x ∈ xs, ¬ List.replicate k '\r' <:+ x := by
  have hnew : '\n' ∉ List.replicate k '\r' := fun hm => by
    have := (List.mem_replicate.mp hm).2
    simp at this
  constructor
  · -- a row with too many returns, followed by another, puts them before a newline
    rintro ht x hx ⟨front, rfl⟩
    obtain ⟨before, after, rfl⟩ := List.append_of_mem hx
    apply ht
    obtain ⟨_, _, rfl⟩ := rows_eq_iff.mp h
    have hsplit : before ++ (front ++ List.replicate k '\r') :: after ++ [row] =
        before ++ [front ++ List.replicate k '\r'] ++ (after ++ [row]) := by simp
    rw [hsplit, unlines_append (by simp) (by simp), ← unlines_concat_append]
    refine ⟨unlines (before ++ [front]), unlines (after ++ [row]), ?_⟩
    simp
  · -- conversely, the newline that has too many ends some row, which is cut out here
    rintro hx ⟨front, rest, rfl⟩
    obtain ⟨before, l, hl⟩ := exists_rows_eq_concat front
    obtain ⟨_, hno, hjoin⟩ := rows_eq_iff.mp hl
    have hrows : rows (front ++ List.replicate k '\r') =
        before ++ [l ++ List.replicate k '\r'] := by
      rw [← hjoin, unlines_concat_append]
      refine rows_unlines (by simp) fun y hy => ?_
      rcases List.mem_append.mp hy with hy | hy
      · exact hno y (List.mem_append_left _ hy)
      · rw [List.mem_singleton.mp hy, List.mem_append]
        rintro (hy | hy)
        · exact hno l (List.mem_append_right _ (List.mem_singleton_self _)) hy
        · exact hnew hy
    have hcut : front ++ (List.replicate k '\r' ++ ['\n']) ++ rest =
        (front ++ List.replicate k '\r') ++ '\n' :: rest := by simp
    rw [hcut, rows_append_newline, hrows] at h
    -- the row that ends in the returns is not the last one
    obtain ⟨others, last, hlast⟩ := exists_rows_eq_concat rest
    rw [hlast, ← List.append_assoc] at h
    have hxs := (List.append_inj' h rfl).1
    refine hx (l ++ List.replicate k '\r') ?_ (List.suffix_append _ _)
    rw [← hxs]
    simp

/-- A blank line between two texts does not bring returns before a newline, if the first text does
not end in one. The border is the only place where new ones could come from. -/
theorem returnsBelow_append_blank (hk : 0 < k) (ht : ReturnsBelow k t)
    (hlast : t.getLast? ≠ some '\r') (hu : ReturnsBelow k u) :
    ReturnsBelow k (t ++ '\n' :: '\n' :: u) := by
  obtain ⟨front, l, hl⟩ := exists_rows_eq_concat t
  obtain ⟨back, m, hm⟩ := exists_rows_eq_concat u
  have hrows : rows (t ++ '\n' :: '\n' :: u) = (front ++ l :: [] :: back) ++ [m] := by
    rw [rows_append_newline, rows_newline, hl, hm]
    simp
  rw [returnsBelow_iff hrows]
  intro x hx hsuffix
  have hreturn := getLast?_of_returns hk hsuffix
  simp only [List.mem_append, List.mem_cons] at hx
  -- the rows are those of the first text, its last one, the empty one, and those of the second
  rcases hx with hx | rfl | rfl | hx
  · exact (returnsBelow_iff hl).mp ht x hx hsuffix
  · have hne : x ≠ [] := fun h => by rw [h] at hreturn; cases hreturn
    exact hlast ((getLast?_of_rows hl hne).trans hreturn)
  · cases hreturn
  · exact (returnsBelow_iff hm).mp hu x hx hsuffix

/-- A row that loses one return can hold one less at its end. If it has none to lose, its last
character is no return at all. -/
theorem not_suffix_dropReturn (hk : 0 < k) (h : ¬ List.replicate (k + 1) '\r' <:+ row) :
    ¬ List.replicate k '\r' <:+ dropReturn row := by
  intro hs
  rcases dropReturn_cases row with ⟨hlast, he⟩ | he
  · rw [he] at hs
    exact hlast (getLast?_of_returns hk hs)
  · apply h
    rw [he, List.replicate_succ']
    obtain ⟨front, hfront⟩ := hs
    exact ⟨front, by rw [← hfront, List.append_assoc]⟩

/-- Joined rows have returns before a newline only at the end of a row that is not the last. -/
theorem returnsBelow_unlines (hno : ∀ l ∈ ls, '\n' ∉ l)
    (h : ∀ l ∈ ls.dropLast, ¬ List.replicate k '\r' <:+ l) : ReturnsBelow k (unlines ls) := by
  by_cases hne : ls = []
  · rw [hne]
    exact fun hi => by simpa using hi.length_le
  · obtain ⟨xs, l, rfl⟩ := (List.eq_nil_or_concat' ls).resolve_left hne
    rw [List.dropLast_concat] at h
    exact (returnsBelow_iff (rows_unlines hne hno)).mpr h

/-- Reading the lines takes a return from before each newline, and joining them puts none back. So
the bound on how many there are goes down by one. -/
theorem returnsBelow_unlines_lines (hk : 0 < k) (h : ReturnsBelow (k + 1) t) :
    ReturnsBelow k (unlines (lines t)) := by
  obtain ⟨front, last, hr, hl⟩ := lines_cases t
  have hfront := (returnsBelow_iff hr).mp h
  have hshort : ∀ x ∈ front.map dropReturn, ¬ List.replicate k '\r' <:+ x := by
    intro x hx
    obtain ⟨row, hrow, rfl⟩ := List.mem_map.mp hx
    exact not_suffix_dropReturn hk (hfront row hrow)
  -- the last row keeps its returns, but no newline follows it
  refine returnsBelow_unlines (fun l hl => not_mem_of_mem_lines hl) fun x hx => hshort x ?_
  rcases hl with ⟨-, hl⟩ | ⟨-, hl⟩
  · rw [← hl]
    exact List.mem_of_mem_dropLast hx
  · rwa [hl, List.dropLast_concat] at hx

/-- A text that can always do with one return less before its newlines has none there. -/
theorem returnsBelow_one_of_descent
    (h : ∀ k, 0 < k → ReturnsBelow (k + 1) t → ReturnsBelow k t) : ReturnsBelow 1 t := by
  have hstep : ∀ k, ReturnsBelow (k + 1) t → ReturnsBelow 1 t := by
    -- one return less at a time, from the length of the text down
    intro k
    induction k with
    | zero => exact id
    | succ k ih => exact fun hk => ih (h (k + 1) (Nat.succ_pos k) hk)
  exact hstep t.length (returnsBelow_length t)

/-- A text that is part of its own lines has no return before a newline, because the lines
have one less each. -/
theorem returnsBelow_one_of_isInfix (h : t <:+: unlines (lines t)) : ReturnsBelow 1 t :=
  returnsBelow_one_of_descent fun _ hk hr => (returnsBelow_unlines_lines hk hr).of_isInfix h

/-- A text without returns before its newlines has its rows as lines, if the last row is not
empty. -/
theorem lines_eq_rows_of_last {last : Text} (hrows : rows t = xs ++ [last]) (hne : last ≠ [])
    (hr : ReturnsBelow 1 t) : lines t = rows t := by
  have hfront := (returnsBelow_iff hrows).mp hr
  have hmap : xs.map dropReturn = xs := by
    refine map_dropReturn_eq_self fun x hx hlast => hfront x hx ?_
    obtain ⟨rest, rfl⟩ := List.getLast?_eq_some_iff.mp hlast
    exact List.suffix_append _ _
  rw [lines_of_rows hrows hne, hmap, hrows]

/-- A tight text without returns before its newlines has its rows as lines. -/
theorem Tight.lines_eq_rows (h : Tight t) (hr : ReturnsBelow 1 t) : lines t = rows t := by
  obtain ⟨front, last, hrows, hne, -, -⟩ := h.lines_eq
  exact lines_eq_rows_of_last hrows hne hr

end ConventionalCommit.Text
