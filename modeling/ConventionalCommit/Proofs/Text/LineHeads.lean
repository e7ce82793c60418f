import ConventionalCommit.Proofs.Text.Wrapping

/-!
# ConventionalCommit — how the lines of a text begin

A line that begins with a certain character may mean something to whoever reads the text
next, so it matters where one comes from. Cutting a part out of a text makes at most its
first row begin anew. Wrapping makes rows begin with what stood inside a line, but only if
the line has no indent, and only with what a token begins with (`PutsFirst`).

* `exists_line_head_iff`: lines and rows begin alike;
* `startsRow_iff_of_isInfix`: how the rows of a part begin;
* `startsRow_wrap_iff`: how the rows of wrapped text begin.
-/

namespace ConventionalCommit.Text

open Unicode (isWhite)

variable {t u l row : Text} {ts : List Text} {ls : List Text} {x : Char} {width : Nat}

-- ---------------------------------------------------------------------------
-- Rows and lines
-- ---------------------------------------------------------------------------

/-- Some row of the text begins with the character. -/
def StartsRow (x : Char) (t : Text) : Prop := ∃ row ∈ rows t, row.head? = some x

/-- A newline ends a row, so the rows on its two sides begin independently of each other. -/
theorem startsRow_append_newline :
    StartsRow x (t ++ '\n' :: u) ↔ StartsRow x t ∨ StartsRow x u := by
  simp only [StartsRow, rows_append_newline, List.mem_append, or_and_right, exists_or]

@[simp] theorem startsRow_newline : StartsRow x ('\n' :: t) ↔ StartsRow x t := by
  simp [StartsRow]

theorem startsRow_iff_of_not_mem (h : '\n' ∉ t) : StartsRow x t ↔ t.head? = some x := by
  simp [StartsRow, rows_of_not_mem h]

/-- Lines that are joined are rows, and begin as before. There need not be any line, as an empty row
begins with nothing. -/
theorem startsRow_unlines (h : ∀ l ∈ ls, '\n' ∉ l) :
    StartsRow x (unlines ls) ↔ ∃ l ∈ ls, l.head? = some x := by
  cases ls with
  | nil => simp [StartsRow, rows]
  | cons l rest => rw [StartsRow, rows_unlines (List.cons_ne_nil l rest) h]

theorem head?_eq_of_isPrefix (h : t <+: u) (ht : t.head? = some x) : u.head? = some x := by
  obtain ⟨back, rfl⟩ := h
  rw [List.head?_append, ht]
  rfl

/-- Lines begin as rows do: dropping the return from the end of a row leaves its start, unless
there is nothing else. -/
theorem exists_line_head_iff (hx : x ≠ '\r') :
    (∃ l ∈ lines t, l.head? = some x) ↔ StartsRow x t := by
  constructor
  · rintro ⟨l, hl, hhead⟩
    obtain ⟨row, hrow, hpart⟩ := exists_row_of_mem_lines hl
    exact ⟨row, hrow, head?_eq_of_isPrefix hpart hhead⟩
  · rintro ⟨row, hrow, hhead⟩
    obtain ⟨front, last, hrows⟩ := exists_rows_eq_concat t
    obtain ⟨back, hlines⟩ : ∃ back, lines t = front.map dropReturn ++ back := by
      rw [lines, hrows, endings_append (List.cons_ne_nil _ _)]
      exact ⟨_, rfl⟩
    rw [hrows, List.mem_append, List.mem_singleton] at hrow
    rcases hrow with hrow | rfl
    · refine ⟨dropReturn row, hlines ▸ List.mem_append_left _ (List.mem_map_of_mem hrow), ?_⟩
      -- a row of a single return would begin with it, and `x` is none
      rcases dropReturn_cases row with ⟨-, hsame⟩ | hreturn
      · rwa [hsame]
      · rw [hreturn, List.head?_append] at hhead
        cases hd : (dropReturn row).head? with
        | some y => rwa [hd] at hhead
        | none =>
          rw [hd] at hhead
          exact absurd (Option.some.inj hhead).symm hx
    · have hne : row ≠ [] := by
        rintro rfl
        cases hhead
      exact ⟨row, by rw [lines_of_rows hrows hne]; exact List.mem_concat_self, hhead⟩

/-- The first row begins as the text does. -/
theorem head?_eq_some_iff_row (hx : x ≠ '\n') :
    t.head? = some x ↔ ∃ row ∈ (rows t).head?, row.head? = some x := by
  cases t with
  | nil => simp [rows]
  | cons c rest =>
    rw [rows]
    split
    · next hc =>
      subst hc
      simp [Ne.symm hx]
    · cases rows rest <;> simp

/-- The rows of a part are parts of rows, and all but the first have the start of theirs. -/
theorem exists_row_of_mem_tail (h : u <:+: t) (hrow : row ∈ (rows u).tail) :
    ∃ l ∈ rows t, row <+: l := by
  obtain ⟨before, after, rfl⟩ := h
  obtain ⟨front, a, b, back, -, hb, hleft⟩ := exists_rows_append before u
  obtain ⟨front', a', b', back', ha', -, hboth⟩ := exists_rows_append (before ++ u) after
  have hback : row ∈ back := by rwa [hb] at hrow
  rw [hboth]
  -- every row behind the first is a row of the text, but the last may go on
  obtain ⟨init, last, hcut⟩ := List.eq_nil_or_concat' back |>.resolve_left
    (List.ne_nil_of_mem hback)
  rw [hleft, hcut, ← List.cons_append, ← List.append_assoc] at ha'
  obtain ⟨hfront, hlast⟩ := List.append_inj' ha' rfl
  obtain rfl := (List.cons.inj hlast).1
  rw [hcut, List.mem_append, List.mem_singleton] at hback
  -- the last row of the part is where the text goes on
  rcases hback with hback | rfl
  · exact ⟨row, by simp [← hfront, hback], List.prefix_rfl⟩
  · exact ⟨row ++ b', by simp, List.prefix_append _ _⟩

/-- A part of a text where no row begins with a character has one only at its very start. -/
theorem startsRow_iff_of_isInfix (hx : x ≠ '\n') (h : u <:+: t) (ht : ¬ StartsRow x t) :
    StartsRow x u ↔ u.head? = some x := by
  rw [head?_eq_some_iff_row hx]
  constructor
  · rintro ⟨row, hrow, hhead⟩
    obtain ⟨first, rest, hrows⟩ := List.exists_cons_of_ne_nil (rows_ne_nil u)
    rw [hrows, List.mem_cons] at hrow
    rcases hrow with rfl | hrow
    · exact ⟨row, by rw [hrows]; rfl, hhead⟩
    · have htail : row ∈ (rows u).tail := by rwa [hrows]
      obtain ⟨l, hl, hpart⟩ := exists_row_of_mem_tail h htail
      exact absurd ⟨l, hl, head?_eq_of_isPrefix hpart hhead⟩ ht
  · rintro ⟨row, hrow, hhead⟩
    exact ⟨row, List.mem_of_mem_head? hrow, hhead⟩

-- ---------------------------------------------------------------------------
-- Wrapped lines
-- ---------------------------------------------------------------------------

/-- Wrapping puts the character first on a row: the line is too long, its rows have no indent,
and one of them begins with a token that begins with the character. -/
structure PutsFirst (width : Nat) (x : Char) (l : Text) : Prop where
  long : width < l.length
  bare : indent width l = []
  token : ∃ ts ∈ fill width (tokens width l), ∃ t ∈ ts.head?, t.head? = some x

/-- A row of tokens begins with the first character of its first token. -/
theorem head?_spaced (hne : ∀ t ∈ ts, t ≠ []) : (spaced ts).head? = ts.head?.bind List.head? := by
  cases ts with
  | nil => rfl
  | cons t rest =>
    have ht := hne t (List.mem_cons_self ..)
    by_cases hrest : rest = []
    · rw [hrest, spaced, List.intercalate_singleton]
      rfl
    · rw [spaced_cons t hrest, List.head?_append_of_ne_nil _ ht]
      rfl

/-- A wrapped line has a row that begins with the character if the line fits and begins with it, or
if filling puts it there. An indentation rules that out, because all rows of the line begin with it.
-/
theorem exists_mem_wrapLine_head_iff (hw : 0 < width) (hx : isWhite x = false) :
    (∃ row ∈ wrapLine width l, row.head? = some x) ↔
      (l.length ≤ width ∧ l.head? = some x) ∨ PutsFirst width x l := by
  rw [wrapLine]
  split
  · next hfits =>
    have hno : ¬ PutsFirst width x l := fun h => absurd h.long (Nat.not_lt.mpr hfits)
    simp [hfits, hno]
  · next hlong =>
    have hspaced : ∀ room, ∀ ts ∈ fill room (tokens room l), 0 < room →
        (spaced ts).head? = ts.head?.bind List.head? := by
      intro room ts hts hroom
      refine head?_spaced fun t ht => ?_
      have hmem : t ∈ (fill room (tokens room l)).flatten := List.mem_flatten.mpr ⟨ts, hts, ht⟩
      rw [flatten_fill] at hmem
      exact (token_of_mem_tokens hroom hmem).ne_nil
    rw [fillLine, or_iff_right fun h => hlong h.1]
    by_cases hbare : indent width l = []
    · rw [hbare]
      simp only [List.mem_map, List.nil_append, List.length_nil, Nat.sub_zero]
      constructor
      · rintro ⟨_, ⟨ts, hts, rfl⟩, hhead⟩
        rw [← spaced, hspaced width ts hts hw] at hhead
        exact ⟨Nat.not_le.mp hlong, hbare, ts, hts, Option.bind_eq_some_iff.mp hhead⟩
      · rintro ⟨-, -, ts, hts, t, ht, hhead⟩
        refine ⟨_, ⟨ts, hts, rfl⟩, ?_⟩
        rw [← spaced, hspaced width ts hts hw]
        exact Option.bind_eq_some_iff.mpr ⟨t, ht, hhead⟩
    · -- a row that begins with white space does not begin with the character
      refine iff_of_false ?_ fun h => hbare h.bare
      rintro ⟨_, hrow, hhead⟩
      obtain ⟨ts, -, rfl⟩ := List.mem_map.mp hrow
      rw [List.head?_append_of_ne_nil _ hbare] at hhead
      have hmargin : x ∈ l.takeWhile isWhite := by
        rw [indent] at hhead
        split at hhead
        · exact List.mem_of_mem_head? hhead
        · cases hhead
      rw [of_mem_takeWhile hmargin] at hx
      cases hx

theorem exists_fill_cons (room : Nat) (t : Text) (rest : List Text) :
    ∃ ts others, fill room (t :: rest) = (t :: ts) :: others := by
  rw [fill]
  cases fillAfter room t.length rest with
  | nil => exact ⟨_, _, rfl⟩
  | cons ts others => exact ⟨_, _, rfl⟩

/-- A line that begins with the character and is too long keeps it first. It has no indentation, so
the first row begins with its first token. -/
theorem putsFirst_of_head (hw : 0 < width) (hx : isWhite x = false) (hlong : width < l.length)
    (hl : l.head? = some x) : PutsFirst width x l := by
  have hbare : indent width l = [] := indent_eq_nil fun c hc => by
    rw [hl] at hc
    rwa [← Option.some.inj hc]
  have hfull : isBlank l = false := isBlank_eq_false_of_mem (List.mem_of_mem_head? hl) hx
  have hne : tokens width l ≠ [] := tokens_ne_nil hfull
  obtain ⟨t, rest, htokens⟩ := List.exists_cons_of_ne_nil hne
  have hmem : t ∈ tokens width l := htokens ▸ List.mem_cons_self ..
  have htoken := token_of_mem_tokens hw hmem
  -- the line begins with its first token, as there is no white space before it
  have hhead : t.head? = some x := by
    have hflat := flatten_tokens width l
    rw [htokens, List.flatten_cons] at hflat
    rw [← List.head?_append_of_ne_nil t htoken.ne_nil, hflat]
    obtain ⟨back, rfl⟩ := List.head?_eq_some_iff.mp hl
    simp [hx]
  obtain ⟨ts, others, hfill⟩ := exists_fill_cons width t rest
  exact ⟨hlong, hbare, t :: ts, by simp [htokens, hfill], t, rfl, hhead⟩

-- ---------------------------------------------------------------------------
-- Wrapped text
-- ---------------------------------------------------------------------------

theorem mem_intercalate_of_mem {ps : List (List Text)} {p : List Text} (hp : p ∈ ps)
    (hl : l ∈ p) (between : List Text) : l ∈ List.intercalate between ps := by
  induction ps with
  | nil => cases hp
  | cons q rest ih =>
    by_cases hrest : rest = []
    · rw [hrest, List.mem_singleton] at hp
      rwa [hrest, List.intercalate_singleton, ← hp]
    · rw [List.intercalate_cons_of_ne_nil hrest]
      rcases List.mem_cons.mp hp with rfl | hp
      · simp [hl]
      · simp [ih hp]

/-- The rows that a line is wrapped to are among the rows of the wrapped text. -/
theorem mem_wrapRows_of_mem_wrapLine (hl : l ∈ ls) (hfull : isBlank l = false)
    (hrow : row ∈ wrapLine (max width 1) l) : row ∈ wrapRows width ls := by
  have hmem : l ∈ (runs isBlank ls).flatten := by
    rw [flatten_runs, List.mem_filter, hfull]
    exact ⟨hl, rfl⟩
  obtain ⟨p, hp, hlp⟩ := List.mem_flatten.mp hmem
  refine mem_intercalate_of_mem (List.mem_map_of_mem hp) ?_ [[]]
  rw [wrapParagraph_eq]
  exact List.mem_flatMap.mpr ⟨l, hlp, hrow⟩

/-- The rows of a line have none of its characters but spaces. -/
theorem mem_of_mem_wrapLine (hw : 0 < width) (h : row ∈ wrapLine width l) {c : Char}
    (hc : c ∈ row) : c = ' ' ∨ c ∈ l := by
  rw [wrapLine] at h
  split at h
  · exact Or.inr (List.mem_singleton.mp h ▸ hc)
  · exact mem_of_mem_fillLine hw h hc

/-- A row of wrapped text begins as a line that fits does, or as wrapping puts it. -/
theorem startsRow_wrap_iff (hx : isWhite x = false) : StartsRow x (wrap width t) ↔
    ∃ l ∈ lines t, (l.length ≤ max width 1 ∧ l.head? = some x) ∨ PutsFirst (max width 1) x l := by
  have hw : 0 < max width 1 := by omega
  simp only [← exists_mem_wrapLine_head_iff hw hx]
  rw [wrap_eq_unlines, startsRow_unlines fun _ hrow => not_mem_of_mem_wrapRows hrow]
  constructor
  · rintro ⟨row, hrow, hhead⟩
    rcases of_mem_wrapRows hrow with rfl | ⟨l, hl, -, hrow⟩
    · cases hhead
    · exact ⟨l, hl, row, hrow, hhead⟩
  · rintro ⟨l, hl, row, hrow, hhead⟩
    have hfull : isBlank l = false := by
      rcases mem_of_mem_wrapLine hw hrow (List.mem_of_mem_head? hhead) with rfl | hmem
      · simp at hx
      · exact isBlank_eq_false_of_mem hmem hx
    exact ⟨row, mem_wrapRows_of_mem_wrapLine hl hfull hrow, hhead⟩

/-- Wrapping a part of a text where no row begins with a character: one may at the start, and
where wrapping puts it first. -/
theorem startsRow_wrap_iff_of_isInfix (hx : isWhite x = false) (h : u <:+: t)
    (ht : ¬ StartsRow x t) : StartsRow x (wrap width u) ↔
      u.head? = some x ∨ ∃ l ∈ lines u, PutsFirst (max width 1) x l := by
  have hnewline : x ≠ '\n' := fun hn => by simp [hn] at hx
  have hreturn : x ≠ '\r' := fun hr => by simp [hr] at hx
  rw [startsRow_wrap_iff hx, ← startsRow_iff_of_isInfix hnewline h ht,
    ← exists_line_head_iff hreturn]
  constructor
  · rintro ⟨l, hl, ⟨-, hhead⟩ | hputs⟩
    · exact Or.inl ⟨l, hl, hhead⟩
    · exact Or.inr ⟨l, hl, hputs⟩
  · rintro (⟨l, hl, hhead⟩ | ⟨l, hl, hputs⟩)
    · refine ⟨l, hl, (Nat.lt_or_ge (max width 1) l.length).symm.imp (⟨·, hhead⟩) fun hlong => ?_⟩
      exact putsFirst_of_head (by omega) hx hlong hhead
    · exact ⟨l, hl, Or.inr hputs⟩

end ConventionalCommit.Text
