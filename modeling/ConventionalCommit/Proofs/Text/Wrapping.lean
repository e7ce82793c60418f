import ConventionalCommit.Proofs.Text.Filling
import ConventionalCommit.Proofs.Text.Rows
import Mathlib.Data.List.Chain

/-!
# ConventionalCommit — the rows of wrapped text

Wrapped text has rows that fit, and a single empty row between its paragraphs
(`Wrapped`). Text of this form is left alone, and so is every part of it that
begins and ends with a character that is not white space.

* `wrapped_wrap`: wrapping brings a text into this form;
* `Wrapped.wrap_eq`: a tight text of this form is not changed by wrapping;
* `Tight.wrap`, `returnsBelow_wrap`: what else wrapping keeps;
* `rows_wrap_fit`, `length_le_of_mem_lines_wrap`: the rows and the lines of wrapped text fit.
-/

namespace ConventionalCommit

-- ---------------------------------------------------------------------------
-- First and last runs
-- ---------------------------------------------------------------------------

section

variable {α : Type} {separates : α → Bool} {a b : α} {rest : List α}

/-- A separator in front belongs to no run. -/
theorem runs_cons_of_separates (h : separates a = true) :
    runs separates (a :: rest) = runs separates rest := by
  rw [runs, if_pos h]

theorem runs_cons_cons (ha : separates a = false) (hb : separates b = false) :
    runs separates (a :: b :: rest) = consHead a (runs separates (b :: rest)) := by
  rw [runs, ha, List.head?_cons, Option.all_some, hb]
  rfl

/-- An element that a separator follows, or nothing, is a run of its own. -/
theorem runs_cons_alone (ha : separates a = false) (h : rest.head?.all separates = true) :
    runs separates (a :: rest) = [a] :: runs separates rest := by
  rw [runs, ha, h]
  rfl

/-- Separators at the end make no further run, because a run needs an element that is none. -/
theorem runs_append_of_separates {back : List α} (h : ∀ a ∈ back, separates a = true)
    (l : List α) : runs separates (l ++ back) = runs separates l := by
  have hback : ∀ back : List α, (∀ a ∈ back, separates a = true) → runs separates back = [] := by
    intro back h
    induction back with
    | nil => rfl
    | cons b rest ih =>
      rw [runs_cons_of_separates (h b (List.mem_cons_self ..))]
      exact ih fun a ha => h a (List.mem_cons_of_mem _ ha)
  induction l with
  | nil => exact hback back h
  | cons a rest ih =>
    -- what is added behind `rest` is no different from nothing to the test in `runs`
    have hhead : (rest ++ back).head?.all separates = rest.head?.all separates := by
      cases rest with
      | nil =>
        rw [List.nil_append, List.head?_nil, Option.all_none, Option.all_eq_true]
        exact fun a ha => h a (List.mem_of_mem_head? ha)
      | cons b rest => rfl
    rw [List.cons_append, runs, runs, ih, hhead]

/-- Separators in front make no further run. -/
theorem runs_dropWhile (separates : α → Bool) (l : List α) :
    runs separates (l.dropWhile separates) = runs separates l := by
  induction l with
  | nil => rfl
  | cons a rest ih =>
    by_cases ha : separates a = true
    · rw [List.dropWhile_cons_of_pos ha, ih, runs_cons_of_separates ha]
    · rw [List.dropWhile_cons_of_neg ha]

/-- An element that is no separator begins the first run. -/
theorem exists_runs_cons (ha : separates a = false) (rest : List α) :
    ∃ run others, runs separates (a :: rest) = (a :: run) :: others := by
  cases h : rest.head?.all separates with
  | true => exact ⟨[], _, runs_cons_alone ha h⟩
  | false =>
    rw [runs, ha, h]
    simp only [Bool.false_eq_true, if_false]
    cases runs separates rest with
    | nil => exact ⟨[], [], rfl⟩
    | cons first others => exact ⟨first, others, rfl⟩

/-- An element that is no separator ends the last run, alone or after what was there. By induction
on the elements before it. -/
theorem exists_runs_concat (ha : separates a = false) (front : List α) :
    ∃ others run, runs separates (front ++ [a]) = others ++ [run ++ [a]] := by
  induction front with
  | nil => exact ⟨[], [], runs_cons_alone ha rfl⟩
  | cons x rest ih =>
    obtain ⟨others, run, h⟩ := ih
    rw [List.cons_append, runs, h]
    split
    · exact ⟨others, run, rfl⟩
    · split
      · exact ⟨[x] :: others, run, rfl⟩
      · -- if there is only one run, `x` goes in front of the part that `a` ends
        cases others with
        | nil => exact ⟨[], x :: run, rfl⟩
        | cons first others => exact ⟨(x :: first) :: others, run, rfl⟩

end

namespace Text

open Unicode (isWhite)

variable {width k : Nat} {t u l row : Text} {ls : List Text} {ps : List (List Text)}

-- ---------------------------------------------------------------------------
-- The rows of a line
-- ---------------------------------------------------------------------------

/-- The rows that a line is wrapped to. -/
def wrapLine (width : Nat) (l : Text) : List Text :=
  if l.length ≤ width then [l] else fillLine width l

theorem wrapParagraph_eq (width : Nat) (ls : List Text) :
    wrapParagraph width ls = ls.flatMap (wrapLine width) := rfl

/-- A line that is not blank is wrapped to at least one row. -/
theorem wrapLine_ne_nil (hl : isBlank l = false) : wrapLine width l ≠ [] := by
  rw [wrapLine]
  split
  · exact List.cons_ne_nil _ _
  · exact fillLine_ne_nil hl

/-- A line that fits is its own row, and the rows of another end in a token. -/
theorem of_mem_wrapLine (hw : 0 < width) (h : row ∈ wrapLine width l) :
    row.length ≤ width ∧ (row = l ∨ row ≠ [] ∧ ∀ c ∈ row.getLast?, isWhite c = false) := by
  rw [wrapLine] at h
  split at h
  · next hfits =>
    rw [List.mem_singleton] at h
    exact ⟨by rwa [h], Or.inl h⟩
  · exact ⟨(of_mem_fillLine hw h).1, Or.inr (isWhite_last_of_mem_fillLine hw h)⟩

/-- Wrapping makes no blank row of a line that is not blank: a row keeps the whole line, or it ends
in a token. -/
theorem isBlank_of_mem_wrapLine (hw : 0 < width) (hl : isBlank l = false)
    (h : row ∈ wrapLine width l) : isBlank row = false := by
  rcases (of_mem_wrapLine hw h).2 with rfl | ⟨hne, hlast⟩
  · exact hl
  · exact isBlank_eq_false_of_last hne hlast

/-- Wrapping a line puts no newline into its rows. They have the characters of the line and spaces.
-/
theorem not_mem_of_mem_wrapLine (hw : 0 < width) (hl : '\n' ∉ l) (h : row ∈ wrapLine width l) :
    '\n' ∉ row := by
  rw [wrapLine] at h
  split at h
  · rwa [List.mem_singleton.mp h]
  · intro hn
    rcases mem_of_mem_fillLine hw h hn with hn | hn
    · simp at hn
    · exact hl hn

-- ---------------------------------------------------------------------------
-- The rows of a text
-- ---------------------------------------------------------------------------

/-- The rows that the lines of a text are wrapped to. -/
def wrapRows (width : Nat) (ls : List Text) : List Text :=
  List.intercalate [[]] ((runs isBlank ls).map (wrapParagraph (max width 1)))

/-- Paragraphs with an empty row between them, as a text. No paragraph may be empty, because it
would count as an empty row itself. -/
theorem unlines_intercalate (h : ∀ p ∈ ps, p ≠ []) :
    unlines (List.intercalate [[]] ps) = List.intercalate ['\n', '\n'] (ps.map unlines) := by
  induction ps with
  | nil => rfl
  | cons p rest ih =>
    have hp := h p (List.mem_cons_self ..)
    have hrest := ih fun q hq => h q (List.mem_cons_of_mem _ hq)
    cases rest with
    | nil => simp
    | cons q rest =>
      -- what is joined after the empty row is not empty, so the join puts a newline there
      have hne : List.intercalate [[]] (q :: rest) ≠ [] := by
        obtain ⟨x, xs, rfl⟩ := List.exists_cons_of_ne_nil (h q (by simp))
        simp
      rw [List.intercalate_cons_cons, List.append_assoc, List.singleton_append,
        unlines_append hp (List.cons_ne_nil _ _), unlines_cons _ hne, hrest, List.map_cons,
        List.map_cons, List.map_cons, List.intercalate_cons_cons]
      simp

/-- A row of joined paragraphs is a row of a paragraph or one of the empty rows between them. -/
theorem mem_intercalate_nil (h : l ∈ List.intercalate [[]] ps) : l = [] ∨ ∃ p ∈ ps, l ∈ p := by
  induction ps with
  | nil => cases h
  | cons p rest ih =>
    by_cases hrest : rest = []
    · rw [hrest, List.intercalate_singleton] at h
      exact Or.inr ⟨p, List.mem_cons_self .., h⟩
    · rw [List.intercalate_cons_of_ne_nil hrest, List.mem_append, List.mem_append,
        List.mem_singleton] at h
      rcases h with (h | h) | h
      · exact Or.inr ⟨p, List.mem_cons_self .., h⟩
      · exact Or.inl h
      · rcases ih h with h | ⟨q, hq, h⟩
        · exact Or.inl h
        · exact Or.inr ⟨q, List.mem_cons_of_mem _ hq, h⟩

/-- The lines of a paragraph are the lines of the text that are not blank. -/
theorem of_mem_runs {p : List Text} (hp : p ∈ runs isBlank ls) (hl : l ∈ p) :
    l ∈ ls ∧ isBlank l = false := by
  have hmem : l ∈ (runs isBlank ls).flatten := List.mem_flatten.mpr ⟨p, hp, hl⟩
  rw [flatten_runs, List.mem_filter] at hmem
  simpa using hmem

/-- A paragraph of wrapped text has rows, and none of them is blank. -/
theorem of_mem_paragraphRows {p : List Text}
    (hp : p ∈ (runs isBlank ls).map (wrapParagraph (max width 1))) :
    p ≠ [] ∧ ∀ row ∈ p, ∃ l ∈ ls, isBlank l = false ∧ row ∈ wrapLine (max width 1) l := by
  obtain ⟨run, hrun, rfl⟩ := List.mem_map.mp hp
  rw [wrapParagraph_eq]
  refine ⟨fun hnil => ?_, fun row hrow => ?_⟩
  · obtain ⟨l, rest, rfl⟩ := List.exists_cons_of_ne_nil (ne_nil_of_mem_runs hrun)
    have hl := (of_mem_runs hrun (List.mem_cons_self ..)).2
    rw [List.flatMap_cons, List.append_eq_nil_iff] at hnil
    exact wrapLine_ne_nil hl hnil.1
  · obtain ⟨l, hl, hrow⟩ := List.mem_flatMap.mp hrow
    exact ⟨l, (of_mem_runs hrun hl).1, (of_mem_runs hrun hl).2, hrow⟩

/-- A wrapped text consists of its wrapped rows. All that follows about wrapping is about
`wrapRows`, where the rows are still apart. -/
theorem wrap_eq_unlines (width : Nat) (t : Text) :
    wrap width t = unlines (wrapRows width (lines t)) := by
  rw [wrapRows, unlines_intercalate fun p hp => (of_mem_paragraphRows hp).1, List.map_map]
  rfl

/-- A row of wrapped text stands between paragraphs, or it comes from a line. -/
theorem of_mem_wrapRows (h : row ∈ wrapRows width ls) :
    row = [] ∨ ∃ l ∈ ls, isBlank l = false ∧ row ∈ wrapLine (max width 1) l := by
  rcases mem_intercalate_nil h with h | ⟨p, hp, hrow⟩
  · exact Or.inl h
  · exact Or.inr ((of_mem_paragraphRows hp).2 row hrow)

theorem not_mem_of_mem_wrapRows (h : row ∈ wrapRows width (lines t)) : '\n' ∉ row := by
  rcases of_mem_wrapRows h with rfl | ⟨l, hl, -, hrow⟩
  · exact List.not_mem_nil
  · exact not_mem_of_mem_wrapLine (by omega) (not_mem_of_mem_lines hl) hrow

/-- Reading a wrapped text row by row gives the rows that it was put together from. A text without
any gives one empty row instead. -/
theorem rows_wrap (h : wrapRows width (lines t) ≠ []) :
    rows (wrap width t) = wrapRows width (lines t) := by
  rw [wrap_eq_unlines]
  exact rows_unlines h fun _ hrow => not_mem_of_mem_wrapRows hrow

/-- No two blank rows stand next to each other: the empty rows are put between paragraphs, and these
have no blank row and are not empty. -/
theorem isChain_intercalate (h : ∀ p ∈ ps, p ≠ [] ∧ ∀ l ∈ p, isBlank l = false) :
    (List.intercalate [[]] ps).IsChain fun a b => isBlank a = false ∨ isBlank b = false := by
  have hfull : ∀ p ∈ ps, p.IsChain fun a b => isBlank a = false ∨ isBlank b = false := by
    intro p hp
    refine (List.isChain_isInfix p).imp fun a b hab => Or.inl ?_
    exact (h p hp).2 a (hab.subset (List.mem_cons_self ..))
  induction ps with
  | nil => exact List.IsChain.nil
  | cons p rest ih =>
    have hp := h p (List.mem_cons_self ..)
    have hrest := ih (fun q hq => h q (List.mem_cons_of_mem _ hq))
      fun q hq => hfull q (List.mem_cons_of_mem _ hq)
    cases rest with
    | nil =>
      rw [List.intercalate_singleton]
      exact hfull p (List.mem_cons_self ..)
    | cons q rest =>
      obtain ⟨x, xs, rfl⟩ := List.exists_cons_of_ne_nil (h q (by simp)).1
      have hx := (h (x :: xs) (by simp)).2 x (List.mem_cons_self ..)
      rw [List.intercalate_cons_cons, List.append_assoc, List.singleton_append,
        List.isChain_append, List.isChain_cons]
      -- the rows that meet the empty one on both sides are not blank
      refine ⟨hfull p (List.mem_cons_self ..), ⟨fun y hy => Or.inr ?_, hrest⟩,
        fun y hy _ _ => Or.inl (hp.2 y (List.mem_of_mem_getLast? hy))⟩
      rw [List.intercalate_cons_cons_left] at hy
      rwa [← Option.some.inj hy]

theorem isChain_wrapRows (width : Nat) (ls : List Text) :
    (wrapRows width ls).IsChain fun a b => isBlank a = false ∨ isBlank b = false := by
  refine isChain_intercalate fun p hp => ⟨(of_mem_paragraphRows hp).1, fun row hrow => ?_⟩
  obtain ⟨l, -, hl, hrow⟩ := (of_mem_paragraphRows hp).2 row hrow
  exact isBlank_of_mem_wrapLine (by omega) hl hrow

-- ---------------------------------------------------------------------------
-- The form of wrapped text
-- ---------------------------------------------------------------------------

/-- Rows that fit, and nothing in the gaps between paragraphs but one empty row. -/
structure Wrapped (width : Nat) (t : Text) : Prop where
  fits : ∀ row ∈ rows t, row.length ≤ width
  gaps : ∀ u, '\n' :: u ++ ['\n'] <:+: t → isBlank u = true → u = []

/-- The rows of two texts are the rows of both together, but for those that meet. -/
theorem exists_rows_append (t u : Text) : ∃ front a b back, rows t = front ++ [a] ∧
    rows u = b :: back ∧ rows (t ++ u) = front ++ (a ++ b) :: back := by
  obtain ⟨front, a, ha⟩ := exists_rows_eq_concat t
  obtain ⟨b, back, hb⟩ := List.exists_cons_of_ne_nil (rows_ne_nil u)
  refine ⟨front, a, b, back, ha, hb, rows_eq_iff.mpr ⟨by simp, fun l hl => ?_, ?_⟩⟩
  · have hfront : ∀ x ∈ front ++ [a], '\n' ∉ x := fun x hx => not_mem_of_mem_rows (ha ▸ hx)
    have hback : ∀ x ∈ b :: back, '\n' ∉ x := fun x hx => not_mem_of_mem_rows (hb ▸ hx)
    rw [List.mem_append, List.mem_cons] at hl
    rcases hl with hl | rfl | hl
    · exact hfront l (List.mem_append_left _ hl)
    · rw [List.mem_append, not_or]
      exact ⟨hfront a (by simp), hback b (by simp)⟩
    · exact hback l (List.mem_cons_of_mem _ hl)
  · have ht : unlines (front ++ [a]) = t := by rw [← ha, unlines_rows]
    have hu : unlines (b :: back) = u := by rw [← hb, unlines_rows]
    rw [← ht, ← hu]
    by_cases hback : back = []
    · -- the last row of `t` goes on with the first of `u`
      rw [hback, unlines_singleton, unlines_concat_append]
    · rw [unlines_cons b hback, ← List.append_assoc, unlines_concat_append,
        ← List.singleton_append, ← List.append_assoc, unlines_append (by simp) hback]

/-- Each row of a part of a text is part of a row, since a part has no newline that the text has
not, so it is cut at fewer places. -/
theorem exists_row_of_isInfix (h : u <:+: t) (hrow : row ∈ rows u) :
    ∃ l ∈ rows t, row <:+: l := by
  obtain ⟨x, y, rfl⟩ := h
  obtain ⟨front, a, b, back, -, hb, hxu⟩ := exists_rows_append x u
  obtain ⟨front', a', b', back', ha', -, hxuy⟩ := exists_rows_append (x ++ u) y
  -- first the text in front is added, then the text behind
  have hleft : ∃ l ∈ rows (x ++ u), row <:+: l := by
    rw [hb] at hrow
    rw [hxu]
    rcases List.mem_cons.mp hrow with rfl | hrow
    · exact ⟨a ++ row, by simp, (List.suffix_append _ _).isInfix⟩
    · exact ⟨row, by simp [hrow], List.infix_rfl⟩
  obtain ⟨l, hl, hrow⟩ := hleft
  rw [ha', List.mem_append, List.mem_singleton] at hl
  rw [hxuy]
  rcases hl with hl | rfl
  · exact ⟨l, by simp [hl], hrow⟩
  · exact ⟨l ++ b', by simp, hrow.trans (List.prefix_append _ _).isInfix⟩

/-- Each part of a wrapped text has this form. This is why a body that is cut out of a wrapped text
needs no further wrapping. -/
theorem Wrapped.of_isInfix (h : Wrapped width t) (hu : u <:+: t) : Wrapped width u := by
  refine ⟨fun row hrow => ?_, fun v hv => h.gaps v (hv.trans hu)⟩
  obtain ⟨l, hl, hrow⟩ := exists_row_of_isInfix hu hrow
  have hlen := hrow.length_le
  have hfits := h.fits l hl
  omega

/-- A wrapped row fits. The width counts as one if it is zero. -/
theorem length_le_of_mem_wrapRows (h : row ∈ wrapRows width ls) : row.length ≤ max width 1 := by
  rcases of_mem_wrapRows h with rfl | ⟨l, -, -, hrow⟩
  · exact Nat.zero_le _
  · exact (of_mem_wrapLine (by omega) hrow).1

/-- A wrapped row that is blank is empty, for it comes from no line. -/
theorem isBlank_of_mem_wrapRows (h : row ∈ wrapRows width ls) (hb : isBlank row = true) :
    row = [] := by
  rcases of_mem_wrapRows h with h | ⟨l, -, hl, hrow⟩
  · exact h
  · rw [isBlank_of_mem_wrapLine (by omega) hl hrow] at hb
    cases hb

/-- Rows that are all blank and stand next to each other are one empty row. -/
theorem eq_nil_of_isBlank_rows (hb : isBlank u = true)
    (hnil : ∀ row ∈ rows u, isBlank row = true → row = [])
    (hchain : (rows u).IsChain fun a b => isBlank a = false ∨ isBlank b = false) : u = [] := by
  have hall : ∀ row ∈ rows u, isBlank row = true := by
    rw [← unlines_rows u, isBlank_unlines] at hb
    exact List.all_eq_true.mp hb
  have hjoin := unlines_rows u
  -- two rows would be two blank neighbours
  match hr : rows u with
  | [] => exact absurd hr (rows_ne_nil u)
  | [row] =>
    have hmem : row ∈ rows u := by rw [hr]; exact List.mem_cons_self ..
    rw [hr, unlines_singleton, hnil row hmem (hall row hmem)] at hjoin
    exact hjoin.symm
  | a :: b :: rest =>
    rw [hr] at hchain hall
    have ha := hall a (by simp)
    have hb := hall b (by simp)
    have hab := (List.isChain_cons_cons.mp hchain).1
    rw [ha, hb] at hab
    simp at hab

/-- The same form in terms of rows: they fit, a blank one is empty, and no two blank ones
stand next to each other. -/
structure WrappedRows (width : Nat) (ls : List Text) : Prop where
  fits : ∀ row ∈ ls, row.length ≤ width
  empty : ∀ row ∈ ls, isBlank row = true → row = []
  chain : ls.IsChain fun a b => isBlank a = false ∨ isBlank b = false

/-- Rows of this form give a text of this form: a blank part between two newlines consists of whole
rows, so it is a gap of one. -/
theorem WrappedRows.wrapped (h : WrappedRows width (rows t)) : Wrapped width t := by
  refine ⟨h.fits, fun u hu hb => ?_⟩
  obtain ⟨x, y, hxy⟩ := hu
  have hcut : t = x ++ '\n' :: (u ++ '\n' :: y) := by
    rw [← hxy]
    simp
  have hsplit : rows t = rows x ++ (rows u ++ rows y) := by
    rw [hcut, rows_append_newline, rows_append_newline]
  have hchain := h.chain
  rw [hsplit] at hchain
  refine eq_nil_of_isBlank_rows hb (fun row hrow => h.empty row ?_)
    hchain.right_of_append.left_of_append
  rw [hsplit]
  simp [hrow]

theorem wrappedRows_wrapRows (width : Nat) (ls : List Text) :
    WrappedRows (max width 1) (wrapRows width ls) :=
  ⟨fun _ h => length_le_of_mem_wrapRows h, fun _ h => isBlank_of_mem_wrapRows h,
    isChain_wrapRows width ls⟩

/-- Wrapping fits the rows and closes the gaps, whatever the text was, since each row is filled up
to the width at most and paragraphs are joined by one empty row. -/
theorem wrappedRows_wrap (width : Nat) (t : Text) :
    WrappedRows (max width 1) (rows (wrap width t)) := by
  -- without any row the text is empty, and then it has one row, which is empty
  by_cases hne : wrapRows width (lines t) = []
  · rw [wrap_eq_unlines, hne]
    refine ⟨fun row hrow => ?_, fun row hrow _ => List.mem_singleton.mp hrow,
      List.IsChain.singleton _⟩
    rw [List.mem_singleton.mp hrow]
    exact Nat.zero_le _
  · rw [rows_wrap hne]
    exact wrappedRows_wrapRows width (lines t)

theorem wrapped_wrap (width : Nat) (t : Text) : Wrapped (max width 1) (wrap width t) :=
  (wrappedRows_wrap width t).wrapped

/-- Returns at the end of rows make no difference: without one a row is shorter, and it is blank if
it was so before. -/
theorem WrappedRows.map_dropReturn (h : WrappedRows width ls) :
    WrappedRows width (ls.map dropReturn) := by
  refine ⟨fun row hrow => ?_, fun row hrow hb => ?_, ?_⟩
  · obtain ⟨l, hl, rfl⟩ := List.mem_map.mp hrow
    exact (dropReturn_isPrefix l).length_le.trans (h.fits l hl)
  · obtain ⟨l, hl, rfl⟩ := List.mem_map.mp hrow
    rw [isBlank_dropReturn] at hb
    rw [h.empty l hl hb]
    rfl
  · rw [List.isChain_map]
    simpa only [isBlank_dropReturn] using h.chain

/-- A paragraph has the form of wrapped text if its rows fit. -/
theorem wrappedRows_of_paragraph (h : ∀ l ∈ ls, l.length ≤ width ∧ isBlank l = false) :
    WrappedRows width ls := by
  refine ⟨fun l hl => (h l hl).1, fun l hl hb => ?_, ?_⟩
  · rw [(h l hl).2] at hb
    cases hb
  · refine (List.isChain_isInfix ls).imp fun a b hab => Or.inl ?_
    exact (h a (hab.subset (List.mem_cons_self ..))).2

/-- A text of one paragraph has the form of wrapped text exactly if its rows fit. -/
theorem wrapped_iff_of_paragraph (h : ∀ row ∈ rows t, isBlank row = false) :
    Wrapped width t ↔ ∀ row ∈ rows t, row.length ≤ width :=
  ⟨fun hw => hw.fits, fun hfits =>
    (wrappedRows_of_paragraph fun row hrow => ⟨hfits row hrow, h row hrow⟩).wrapped⟩

/-- A paragraph that fits may follow after an empty row. The rows before must not end in a blank
one, so that no two blank rows meet. -/
theorem WrappedRows.append (h : WrappedRows width ls) (hlast : ∀ l ∈ ls.getLast?, isBlank l = false)
    {p : List Text} (hp : ∀ l ∈ p, l.length ≤ width ∧ isBlank l = false) :
    WrappedRows width (ls ++ [] :: p) := by
  have hnext := wrappedRows_of_paragraph hp
  -- each row fits, blank rows are empty, and no two of them follow each other
  refine ⟨fun row hrow => ?_, fun row hrow hb => ?_, ?_⟩
  · rcases List.mem_append.mp hrow with hrow | hrow
    · exact h.fits row hrow
    · rcases List.mem_cons.mp hrow with rfl | hrow
      · exact Nat.zero_le _
      · exact hnext.fits row hrow
  · rcases List.mem_append.mp hrow with hrow | hrow
    · exact h.empty row hrow hb
    · rcases List.mem_cons.mp hrow with rfl | hrow
      · rfl
      · exact hnext.empty row hrow hb
  · rw [List.isChain_append, List.isChain_cons]
    exact ⟨h.chain, ⟨fun y hy => Or.inr (hp y (List.mem_of_mem_head? hy)).2, hnext.chain⟩,
      fun x hx _ _ => Or.inl (hlast x hx)⟩

-- ---------------------------------------------------------------------------
-- Wrapping again
-- ---------------------------------------------------------------------------

/-- Lines with empty gaps are their paragraphs with a blank line in between. The condition says that
a gap is one empty line at most, so joining the paragraphs puts back what was left out. -/
theorem intercalate_runs : ∀ ls : List Text, (∀ l ∈ ls.head?, isBlank l = false) →
    (∀ l ∈ ls.getLast?, isBlank l = false) →
    (∀ u, '\n' :: u ++ ['\n'] <:+: unlines ls → isBlank u = true → u = []) →
    List.intercalate ['\n', '\n'] ((runs isBlank ls).map unlines) = unlines ls
  | [], _, _, _ => rfl
  | [l], hhead, _, _ => by
    have hl := hhead l rfl
    rw [runs_cons_alone hl rfl]
    simp [runs]
  | a :: b :: rest, hhead, hlast, hgaps => by
    have ha := hhead a rfl
    cases hb : isBlank b with
    | false =>
      have hnext : '\n' :: unlines (b :: rest) <:+ unlines (a :: b :: rest) := by
        rw [unlines_cons a (List.cons_ne_nil _ _)]
        exact List.suffix_append _ _
      have ih := intercalate_runs (b :: rest) (fun l hl => by rwa [← Option.some.inj hl])
        (by rwa [List.getLast?_cons_cons] at hlast)
        fun u hu => hgaps u (hu.trans ((List.suffix_cons _ _).trans hnext).isInfix)
      obtain ⟨run, others, hruns⟩ := exists_runs_cons hb rest
      rw [runs_cons_cons ha hb, unlines_cons a (List.cons_ne_nil _ _), ← ih, hruns, consHead,
        List.map_cons, List.map_cons, unlines_cons a (List.cons_ne_nil _ _)]
      cases others <;> simp
    | true =>
      -- the gap between the paragraphs is one line, so `rest` begins the next one
      cases rest with
      | nil =>
        have := hlast b rfl
        rw [hb] at this
        cases this
      | cons c rest =>
        have hb' : b = [] := by
          refine hgaps b ?_ hb
          rw [unlines_cons a (List.cons_ne_nil _ _), unlines_cons b (List.cons_ne_nil _ _)]
          exact ⟨a, unlines (c :: rest), by simp⟩
        subst hb'
        have hc : isBlank c = false := by
          cases hc : isBlank c with
          | false => rfl
          | true =>
            cases rest with
            | nil =>
              have := hlast c rfl
              rw [hc] at this
              cases this
            | cons d rest =>
              -- two blank lines would be a gap that is not empty
              have hgap : '\n' :: c = [] := by
                refine hgaps ('\n' :: c) ?_ (by simpa [isBlank] using hc)
                rw [unlines_cons a (List.cons_ne_nil _ _), unlines_cons _ (List.cons_ne_nil _ _),
                  unlines_cons c (List.cons_ne_nil _ _)]
                exact ⟨a, unlines (d :: rest), by simp⟩
              cases hgap
        have hnext : unlines (c :: rest) <:+ unlines (a :: [] :: c :: rest) := by
          rw [unlines_cons a (List.cons_ne_nil _ _), unlines_cons _ (List.cons_ne_nil _ _)]
          exact ⟨a ++ ['\n', '\n'], by simp⟩
        have ih := intercalate_runs (c :: rest) (fun l hl => by rwa [← Option.some.inj hl])
          (by rwa [List.getLast?_cons_cons, List.getLast?_cons_cons] at hlast)
          fun u hu => hgaps u (hu.trans hnext.isInfix)
        obtain ⟨run, others, hruns⟩ := exists_runs_cons hc rest
        rw [runs_cons_alone ha rfl, runs_cons_of_separates rfl, List.map_cons, unlines_singleton,
          hruns, List.map_cons, List.intercalate_cons_cons, ← List.map_cons, ← hruns, ih,
          unlines_cons a (List.cons_ne_nil _ _), unlines_cons _ (List.cons_ne_nil _ _)]
        simp

/-- Lines that fit stay as they are. -/
theorem wrapParagraph_eq_self (h : ∀ l ∈ ls, l.length ≤ width) : wrapParagraph width ls = ls := by
  rw [wrapParagraph_eq]
  induction ls with
  | nil => rfl
  | cons l rest ih =>
    have hl := h l (List.mem_cons_self ..)
    rw [List.flatMap_cons, wrapLine, if_pos hl, ih fun x hx => h x (List.mem_cons_of_mem _ hx)]
    rfl

/-- A tight text in the form of wrapped text is not changed. Its rows fit, so each is kept, and its
gaps are the single empty rows that wrapping puts between paragraphs. -/
theorem Wrapped.wrap_eq (h : Wrapped (max width 1) t) (ht : Tight t) (hr : ReturnsBelow 1 t) :
    wrap width t = t := by
  have hlines := ht.lines_eq_rows hr
  have hkeep : (runs isBlank (rows t)).map (fun p => unlines (wrapParagraph (max width 1) p)) =
      (runs isBlank (rows t)).map unlines := by
    refine List.map_congr_left fun p hp => ?_
    rw [wrapParagraph_eq_self fun l hl => h.fits l (of_mem_runs hp hl).1]
  rw [wrap, paragraphs, hlines, hkeep]
  have hjoin := unlines_rows t
  -- the text begins and ends in a line that is not blank, and its gaps are empty
  rw [intercalate_runs, hjoin]
  · intro l hl
    obtain ⟨rest, hrest⟩ := List.head?_eq_some_iff.mp hl
    obtain ⟨hne, hhead⟩ := ht.first_row hrest
    exact isBlank_eq_false_of_head hne hhead
  · intro l hl
    obtain ⟨front, hfront⟩ := List.getLast?_eq_some_iff.mp hl
    obtain ⟨hne, hlast⟩ := ht.last_row hfront
    exact isBlank_eq_false_of_last hne hlast
  · rw [hjoin]
    exact h.gaps

-- ---------------------------------------------------------------------------
-- What wrapping keeps
-- ---------------------------------------------------------------------------

/-- Paragraphs that are joined begin with the first row of the first one. -/
theorem head?_intercalate {p : List Text} (hp : p ≠ []) (ps : List (List Text)) :
    (List.intercalate [[]] (p :: ps)).head? = p.head? := by
  obtain ⟨x, xs, rfl⟩ := List.exists_cons_of_ne_nil hp
  rw [List.intercalate_cons_cons_left]
  rfl

/-- A text whose first line is not blank is wrapped to rows that begin with those of that line. -/
theorem head?_wrapRows (width : Nat) (hl : isBlank l = false) (ls : List Text) :
    (wrapRows width (l :: ls)).head? = (wrapLine (max width 1) l).head? := by
  obtain ⟨run, others, hruns⟩ := exists_runs_cons hl ls
  have hne : wrapLine (max width 1) l ≠ [] := wrapLine_ne_nil hl
  rw [wrapRows, hruns, List.map_cons, wrapParagraph_eq, List.flatMap_cons,
    head?_intercalate (by simp [hne]), List.head?_append_of_ne_nil _ hne]

/-- The rows end in those of the last line, and the others come from the lines before it. -/
theorem exists_wrapRows_concat (width : Nat) (hl : isBlank l = false) (ls : List Text) :
    ∃ others, wrapRows width (ls ++ [l]) = others ++ wrapLine (max width 1) l ∧
      ∀ row ∈ others, row = [] ∨ ∃ x ∈ ls, row ∈ wrapLine (max width 1) x := by
  obtain ⟨ps, run, hruns⟩ := exists_runs_concat hl ls
  have hbefore : (ps ++ [run]).flatten = ls.filter fun l => !isBlank l := by
    have hflat := flatten_runs isBlank (ls ++ [l])
    rw [hruns, List.filter_append, List.flatten_concat, ← List.append_assoc,
      List.filter_cons_of_pos (by simp [hl]), List.filter_nil] at hflat
    rw [List.flatten_concat]
    exact (List.append_inj' hflat rfl).1
  -- the last run ends in `l`, so the rows of `l` are the last rows
  refine ⟨List.intercalate [[]] ((ps ++ [run]).map (wrapParagraph (max width 1))), ?_, ?_⟩
  · rw [wrapRows, hruns, List.map_append, List.map_append, List.map_singleton, List.map_singleton,
      wrapParagraph_eq, wrapParagraph_eq, List.flatMap_append, List.flatMap_singleton,
      intercalate_concat_append]
  · intro row hrow
    refine (mem_intercalate_nil hrow).imp_right ?_
    rintro ⟨_, hwrapped, hrow⟩
    obtain ⟨p, hp, rfl⟩ := List.mem_map.mp hwrapped
    obtain ⟨x, hx, hrow⟩ := List.mem_flatMap.mp hrow
    have hmem : x ∈ (ps ++ [run]).flatten := List.mem_flatten.mpr ⟨p, hp, hx⟩
    rw [hbefore] at hmem
    exact ⟨x, List.mem_of_mem_filter hmem, hrow⟩

/-- The last row of a wrapped text is the last one of its last line, if that is not blank. -/
theorem getLast?_wrapRows (width : Nat) (hl : isBlank l = false) (ls : List Text) :
    (wrapRows width (ls ++ [l])).getLast? = (wrapLine (max width 1) l).getLast? := by
  obtain ⟨others, hrows, -⟩ := exists_wrapRows_concat width hl ls
  rw [hrows, List.getLast?_append_of_ne_nil _ (wrapLine_ne_nil hl)]

/-- The rows of a line begin as the line does, unless they are indented by it. -/
theorem first_of_mem_wrapLine (hw : 0 < width) (hne : l ≠ [])
    (hhead : ∀ c ∈ l.head?, isWhite c = false) (h : row ∈ wrapLine width l) :
    row ≠ [] ∧ ∀ c ∈ row.head?, isWhite c = false := by
  rw [wrapLine] at h
  split at h
  · rw [List.mem_singleton] at h
    subst h
    exact ⟨hne, hhead⟩
  · have htight := tight_of_mem_fillLine hw hhead h
    exact ⟨htight.ne_nil, htight.head⟩

/-- The rows of a line that does not end in white space do not end in it either. No condition on the
indentation is needed for that. -/
theorem last_of_mem_wrapLine (hw : 0 < width) (hne : l ≠ [])
    (hlast : ∀ c ∈ l.getLast?, isWhite c = false) (h : row ∈ wrapLine width l) :
    row ≠ [] ∧ ∀ c ∈ row.getLast?, isWhite c = false := by
  rcases (of_mem_wrapLine hw h).2 with rfl | hrow
  · exact ⟨hne, hlast⟩
  · exact hrow

/-- Wrapping a tight text leaves a tight text. Its first row begins as the first line does, which
has no indentation, and its last row ends as the last line does. -/
theorem Tight.wrap (h : Tight t) (width : Nat) : Tight (wrap width t) := by
  have hpos : 0 < max width 1 := by omega
  obtain ⟨front, last, -, -, -, hlines⟩ := h.lines_eq
  obtain ⟨hne, hlast⟩ := h.last_line (l := last) (by rw [hlines]; exact List.getLast?_concat)
  obtain ⟨first, rest, hcons⟩ : ∃ first rest, lines t = first :: rest :=
    List.exists_cons_of_ne_nil (by rw [hlines]; simp)
  obtain ⟨hne', hhead⟩ := h.first_line (l := first) (by rw [hcons]; rfl)
  -- the first row comes from the first line and the last row from the last
  have hstart := head?_wrapRows width (isBlank_eq_false_of_head hne' hhead) rest
  have hend := getLast?_wrapRows width (isBlank_eq_false_of_last hne hlast)
    (front.map dropReturn)
  rw [← hcons] at hstart
  rw [← hlines] at hend
  rw [wrap_eq_unlines]
  refine tight_unlines (fun hnil => ?_) (fun row hrow => ?_) fun row hrow => ?_
  · rw [hnil] at hstart
    exact wrapLine_ne_nil (isBlank_eq_false_of_head hne' hhead)
      (List.head?_eq_none_iff.mp hstart.symm)
  · rw [hstart] at hrow
    exact first_of_mem_wrapLine hpos hne' hhead (List.mem_of_mem_head? hrow)
  · rw [hend] at hrow
    exact last_of_mem_wrapLine hpos hne hlast (List.mem_of_mem_getLast? hrow)

/-- All rows of a line but the last end in a token. Only a line that fits is kept with the white
space at its end, and it has one row. -/
theorem isWhite_last_of_mem_dropLast_wrapLine (hw : 0 < width)
    (h : row ∈ (wrapLine width l).dropLast) : ∀ c ∈ row.getLast?, isWhite c = false := by
  rw [wrapLine] at h
  split at h
  · cases h
  · exact (isWhite_last_of_mem_fillLine hw (List.mem_of_mem_dropLast h)).2

/-- Wrapping brings no return before a newline, apart from those that lines have lost. A return is
white space, and a row that is filled anew ends in a token. -/
theorem returnsBelow_wrap (hk : 0 < k) (h : ReturnsBelow (k + 1) t) :
    ReturnsBelow k (wrap width t) := by
  have hw : 0 < max width 1 := by omega
  have htoken : ∀ row : Text, (∀ c ∈ row.getLast?, isWhite c = false) →
      ¬ List.replicate k '\r' <:+ row := by
    intro row hrow hsuffix
    have := hrow '\r' (getLast?_of_returns hk hsuffix)
    simp at this
  obtain ⟨front, last, hrows, hlines⟩ := lines_cases t
  have hline : ∀ l ∈ front.map dropReturn, ∀ row ∈ wrapLine (max width 1) l,
      ¬ List.replicate k '\r' <:+ row := by
    intro l hl row hrow
    rcases (of_mem_wrapLine hw hrow).2 with rfl | ⟨-, hend⟩
    · obtain ⟨x, hx, rfl⟩ := List.mem_map.mp hl
      exact not_suffix_dropReturn hk ((returnsBelow_iff hrows).mp h x hx)
    · exact htoken row hend
  have hempty : ¬ List.replicate k '\r' <:+ [] := htoken [] fun _ h => absurd h (by simp)
  rw [wrap_eq_unlines]
  refine returnsBelow_unlines (fun _ hrow => not_mem_of_mem_wrapRows hrow) fun row hrow => ?_
  -- only the rows of a last line that is not blank may end in what the text ends in
  by_cases hlast : isBlank last = true
  · have hsame : wrapRows width (lines t) = wrapRows width (front.map dropReturn) := by
      rcases hlines with ⟨-, hlines⟩ | ⟨-, hlines⟩
      · rw [hlines]
      · rw [hlines, wrapRows, runs_append_of_separates (by simpa using hlast), wrapRows]
    rw [hsame] at hrow
    rcases of_mem_wrapRows (List.mem_of_mem_dropLast hrow) with rfl | ⟨l, hl, -, hrow⟩
    · exact hempty
    · exact hline l hl row hrow
  · rw [Bool.not_eq_true] at hlast
    have hne : last ≠ [] := by
      rintro rfl
      cases hlast
    obtain ⟨others, hwrapped, hothers⟩ :=
      exists_wrapRows_concat width hlast (front.map dropReturn)
    rw [lines_of_rows hrows hne, hwrapped,
      List.dropLast_append_of_ne_nil (wrapLine_ne_nil hlast), List.mem_append] at hrow
    rcases hrow with hrow | hrow
    · rcases hothers row hrow with rfl | ⟨l, hl, hrow⟩
      · exact hempty
      · exact hline l hl row hrow
    · exact htoken row (isWhite_last_of_mem_dropLast_wrapLine hw hrow)

/-- Wrapping leaves the tight texts in the form of wrapped text, without returns before their
newlines. -/
theorem Tight.wrap_eq_iff (h : Tight t) :
    Text.wrap width t = t ↔ Wrapped (max width 1) t ∧ ReturnsBelow 1 t := by
  constructor
  · intro heq
    have hwrapped := wrapped_wrap width t
    rw [heq] at hwrapped
    refine ⟨hwrapped, returnsBelow_one_of_descent fun k hk hr => ?_⟩
    have hless : ReturnsBelow k (Text.wrap width t) := returnsBelow_wrap hk hr
    rwa [heq] at hless
  · exact fun ⟨hwrapped, hr⟩ => hwrapped.wrap_eq h hr

-- ---------------------------------------------------------------------------
-- Lines that fit
-- ---------------------------------------------------------------------------

/-- The lines of a text are no longer than the width. -/
def LinesFit (width : Nat) (t : Text) : Prop := ∀ l ∈ lines t, l.length ≤ width

theorem LinesFit.of_rows (h : ∀ row ∈ rows t, row.length ≤ width) : LinesFit width t := by
  intro l hl
  obtain ⟨row, hrow, hpart⟩ := exists_row_of_mem_lines hl
  exact hpart.length_le.trans (h row hrow)

theorem linesFit_append_newline : LinesFit width (t ++ '\n' :: u) ↔
    (∀ row ∈ rows t, (dropReturn row).length ≤ width) ∧ LinesFit width u := by
  simp only [LinesFit, lines_append_newline, List.mem_append, or_imp, forall_and,
    List.forall_mem_map]

/-- Each row of a wrapped text fits, whatever the indentation, the words and the characters of the
text are. A width of zero counts as one. -/
theorem rows_wrap_fit (width : Nat) (t : Text) :
    ∀ row ∈ rows (wrap width t), row.length ≤ max width 1 :=
  (wrappedRows_wrap width t).fits

/-- An indented word of three characters, six bytes, that has room for two on each row. -/
theorem rows_wrap_fit_indented :
    "  äö".toList ∈ rows (wrap 4 "  äöü €".toList) ∧ "  äö".toList.length ≤ max 4 1 := by
  have hrow : "  äö".toList ∈ rows (wrap 4 "  äöü €".toList) := by decide +kernel
  exact ⟨hrow, rows_wrap_fit 4 "  äöü €".toList "  äö".toList hrow⟩

theorem length_le_of_mem_lines_wrap (hl : l ∈ lines (wrap width t)) : l.length ≤ max width 1 :=
  LinesFit.of_rows (wrapped_wrap width t).fits l hl

end Text

end ConventionalCommit
