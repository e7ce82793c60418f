import ConventionalCommit.Proofs.Text.Visible
import ConventionalCommit.Proofs.Text.Wrapping

/-!
# ConventionalCommit — the paragraphs of wrapped text

Wrapping takes a text apart into its paragraphs and puts the wrapped ones together again, with
one empty row between them. When the result is read, its lines are cut anew, and a row may
lose a carriage return. The paragraphs that come back are the wrapped ones all the same,
because a return does not show and no row that has something to show is lost.

Two laws say what paragraphs are: separators cut a list in two (`runs_append_cons`), and without
one a list is a single run (`runs_of_solid`).

* `runs_intercalate`: runs that are joined by separators come back;
* `wrap_eq_close_foldl`: wrapping as one pass, which closes a paragraph at each blank line;
* `flatMap_visible_wrapParagraph`: a wrapped paragraph shows what it showed before;
* `paragraphs_wrap_visible`: wrapping keeps the paragraphs of a text and what they show;
* `wrap_wrap`: wrapping again, to this width or to a larger one, changes nothing.
-/

namespace ConventionalCommit

-- ---------------------------------------------------------------------------
-- Runs
-- ---------------------------------------------------------------------------

section

variable {α : Type} {separates : α → Bool} {s : α} {l : List α} {ps : List (List α)}

/-- A separator cuts a list in two, and each part has its own runs, by induction on the part in
front of it. -/
theorem runs_append_cons (hs : separates s = true) (front back : List α) :
    runs separates (front ++ s :: back) = runs separates front ++ runs separates back := by
  induction front with
  | nil => exact runs_cons_of_separates hs
  | cons a rest ih =>
    rw [List.cons_append]
    by_cases ha : separates a = true
    · rw [runs_cons_of_separates ha, runs_cons_of_separates ha, ih]
    · rw [Bool.not_eq_true] at ha
      -- whether `a` is alone depends on what follows it, and the separator counts as nothing
      match rest with
      | [] =>
        rw [List.nil_append, runs_cons_alone ha (by simp [hs]), runs_cons_alone ha rfl,
          runs_cons_of_separates hs]
        rfl
      | b :: rest =>
        by_cases hb : separates b = true
        · rw [runs_cons_alone ha (by simp [hb]), runs_cons_alone ha (by simp [hb]), ih]
          rfl
        · rw [Bool.not_eq_true] at hb
          obtain ⟨run, others, hruns⟩ := exists_runs_cons hb rest
          rw [List.cons_append, runs_cons_cons ha hb, ← List.cons_append, ih,
            runs_cons_cons ha hb, hruns]
          rfl

/-- Without a separator in it, a list is one run. -/
theorem runs_of_solid (hne : l ≠ []) (h : ∀ a ∈ l, separates a = false) :
    runs separates l = [l] := by
  induction l with
  | nil => exact absurd rfl hne
  | cons a rest ih =>
    have ha := h a (List.mem_cons_self ..)
    match rest with
    | [] => exact runs_cons_alone ha rfl
    | b :: rest =>
      rw [runs_cons_cons ha (h b (by simp)),
        ih (List.cons_ne_nil _ _) fun x hx => h x (List.mem_cons_of_mem _ hx)]
      rfl

/-- Runs that are joined by separators come back. They must not be empty, because two separators
next to each other are one gap. -/
theorem runs_intercalate (hs : separates s = true)
    (h : ∀ p ∈ ps, p ≠ [] ∧ ∀ a ∈ p, separates a = false) :
    runs separates (List.intercalate [s] ps) = ps := by
  induction ps with
  | nil => rfl
  | cons p rest ih =>
    obtain ⟨hne, hsolid⟩ := h p (List.mem_cons_self ..)
    by_cases hrest : rest = []
    · rw [hrest, List.intercalate_singleton, runs_of_solid hne hsolid]
    · rw [List.intercalate_cons_of_ne_nil hrest, List.append_assoc, List.singleton_append,
        runs_append_cons hs, runs_of_solid hne hsolid,
        ih fun q hq => h q (List.mem_cons_of_mem _ hq)]
      rfl

end

namespace Text

open Unicode (isWhite)

variable {width wider : Nat} {t l : Text} {ts ls : List Text} {ps : List (List Text)}

-- ---------------------------------------------------------------------------
-- One line after the other
-- ---------------------------------------------------------------------------

/-- The wrapped rows of the lines that are passed. -/
structure Gathered where
  /-- The paragraphs that are closed. -/
  closed : List (List Text)
  /-- The rows of the paragraph that is open, if there are any. -/
  current : List Text

/-- The paragraphs, with the one that is still open. -/
def Gathered.close (g : Gathered) : List (List Text) :=
  if g.current = [] then g.closed else g.closed ++ [g.current]

/-- Passes a line. A blank one closes the paragraph, and another is wrapped and goes on with it. -/
def Gathered.addLine (width : Nat) (g : Gathered) (l : Text) : Gathered :=
  if isBlank l then ⟨g.close, []⟩ else ⟨g.closed, g.current ++ wrapLine width l⟩

/-- A paragraph that is wrapped has rows, unless it had no lines, because each of its lines has a
token. -/
theorem wrapParagraph_eq_nil_iff (h : ∀ l ∈ ls, isBlank l = false) :
    wrapParagraph width ls = [] ↔ ls = [] := by
  rw [wrapParagraph_eq, List.flatMap_eq_nil_iff]
  constructor
  · intro hnil
    refine List.eq_nil_iff_forall_not_mem.mpr fun l hl => ?_
    exact wrapLine_ne_nil (h l hl) (hnil l hl)
  · rintro rfl l hl
    cases hl

/-- Closing adds the paragraph that is open, if it has any line. The lines that it comes from are
one run then. -/
theorem close_eq (closed : List (List Text)) (h : ∀ l ∈ ls, isBlank l = false) :
    Gathered.close ⟨closed, wrapParagraph width ls⟩ =
      closed ++ (runs isBlank ls).map (wrapParagraph width) := by
  unfold Gathered.close
  by_cases hnil : ls = []
  · rw [if_pos ((wrapParagraph_eq_nil_iff h).mpr hnil), hnil]
    simp [runs]
  · rw [if_neg (mt (wrapParagraph_eq_nil_iff h).mp hnil), runs_of_solid hnil h]
    rfl

/-- What is open so far is the start of the paragraph that the lines to come begin with. So no
paragraph is closed twice or left out. -/
theorem close_foldl_addLine (width : Nat) (closed : List (List Text))
    (h : ∀ l ∈ ls, isBlank l = false) (rest : List Text) :
    (rest.foldl (Gathered.addLine width) ⟨closed, wrapParagraph width ls⟩).close =
      closed ++ (runs isBlank (ls ++ rest)).map (wrapParagraph width) := by
  induction rest generalizing closed ls with
  | nil => rw [List.foldl_nil, List.append_nil, close_eq closed h]
  | cons l rest ih =>
    rw [List.foldl_cons, Gathered.addLine]
    by_cases hl : isBlank l = true
    · -- a blank line closes the paragraph, and the next one starts with nothing open
      have hnone : ∀ l ∈ ([] : List Text), isBlank l = false := nofun
      have hnext := ih (Gathered.close ⟨closed, wrapParagraph width ls⟩) hnone
      rw [List.nil_append, close_eq closed h] at hnext
      rw [if_pos hl, runs_append_cons hl, List.map_append, ← List.append_assoc, close_eq closed h]
      exact hnext
    · -- any other line is added to the open one
      rw [Bool.not_eq_true] at hl
      have hopen : ∀ x ∈ ls ++ [l], isBlank x = false := by
        intro x hx
        rcases List.mem_append.mp hx with hx | hx
        · exact h x hx
        · rwa [List.mem_singleton.mp hx]
      have hrows : wrapParagraph width (ls ++ [l]) =
          wrapParagraph width ls ++ wrapLine width l := by
        rw [wrapParagraph_eq, List.flatMap_append, List.flatMap_singleton]
        rfl
      have hnext := ih closed hopen
      rw [hrows, List.append_assoc, List.singleton_append] at hnext
      rw [if_neg (by simp [hl])]
      exact hnext

/-- Wrapping takes one pass over the lines of a text, with the paragraphs that are closed and the
rows of the open one as its state. -/
theorem wrap_eq_close_foldl (width : Nat) (t : Text) :
    wrap width t = List.intercalate ['\n', '\n']
      (((lines t).foldl (Gathered.addLine (max width 1)) ⟨[], []⟩).close.map unlines) := by
  have hstart : wrapParagraph (max width 1) [] = [] := rfl
  have hnone : ∀ l ∈ ([] : List Text), isBlank l = false := nofun
  have hpass := close_foldl_addLine (max width 1) [] hnone (lines t)
  rw [List.nil_append, List.nil_append, hstart] at hpass
  rw [hpass, List.map_map]
  rfl

-- ---------------------------------------------------------------------------
-- What wrapped lines show
-- ---------------------------------------------------------------------------

/-- Tokens show as they are, without the spaces between them, because a token has no white space of
its own. -/
theorem visible_spaced (h : ∀ t ∈ ts, ∀ c ∈ t, isWhite c = false) :
    visible (spaced ts) = ts.flatten := by
  induction ts with
  | nil => rfl
  | cons t rest ih =>
    have ht : visible t = t := List.filter_eq_self.mpr fun c hc => by
      rw [h t (List.mem_cons_self ..) c hc]
      rfl
    have hrest := ih fun u hu => h u (List.mem_cons_of_mem _ hu)
    by_cases hne : rest = []
    · rw [hne, spaced_singleton, ht]
      simp
    · rw [spaced_cons t hne, visible_append, visible_cons_of_isWhite Unicode.isWhite_space, ht,
        hrest, List.flatten_cons]

/-- An indentation is white space, so it does not show. -/
theorem isBlank_indent (width : Nat) (l : Text) : isBlank (indent width l) = true := by
  rw [isBlank_iff, indent]
  intro c hc
  split at hc
  · exact of_mem_takeWhile hc
  · cases hc

/-- The rows of a long line show what the line shows. Indentation and the spaces between tokens are
white, and the tokens in order are what is visible of the line. -/
theorem flatMap_visible_fillLine (hw : 0 < width) (l : Text) :
    (fillLine width l).flatMap visible = visible l := by
  have hindent := length_indent hw l
  generalize hroom : width - (indent width l).length = room
  -- a row is its indentation, which is white, and tokens without white space
  have hshow : ∀ ts ∈ fill room (tokens room l),
      visible (indent width l ++ spaced ts) = ts.flatten := by
    intro ts hts
    rw [visible_append, visible_eq_nil_iff.mpr (isBlank_indent width l), List.nil_append]
    refine visible_spaced fun t ht => ?_
    have hmem : t ∈ (fill room (tokens room l)).flatten := List.mem_flatten.mpr ⟨ts, hts, ht⟩
    rw [flatten_fill] at hmem
    exact (token_of_mem_tokens (by omega) hmem).solid
  calc (fillLine width l).flatMap visible
      = (fill room (tokens room l)).flatMap (fun ts => visible (indent width l ++ spaced ts)) := by
        rw [← hroom, fillLine, List.flatMap_map]
        rfl
    _ = (fill room (tokens room l)).flatMap List.flatten := List.flatMap_congr hshow
    _ = (fill room (tokens room l)).flatten.flatten := by
        rw [List.flatten_flatten, List.flatMap_def]
    _ = visible l := by
        rw [flatten_fill, flatten_tokens]
        rfl

/-- The rows that a line is wrapped to show what the line shows. -/
theorem flatMap_visible_wrapLine (hw : 0 < width) (l : Text) :
    (wrapLine width l).flatMap visible = visible l := by
  rw [wrapLine]
  split
  · rw [List.flatMap_singleton]
  · exact flatMap_visible_fillLine hw l

theorem flatMap_visible_wrapParagraph (hw : 0 < width) (p : List Text) :
    (wrapParagraph width p).flatMap visible = p.flatMap visible := by
  rw [wrapParagraph_eq, List.flatMap_assoc]
  exact List.flatMap_congr fun l _ => flatMap_visible_wrapLine hw l

-- ---------------------------------------------------------------------------
-- Reading wrapped text
-- ---------------------------------------------------------------------------

/-- Some lines, and none of them blank. -/
structure Paragraph (p : List Text) : Prop where
  ne_nil : p ≠ []
  full : ∀ l ∈ p, isBlank l = false

/-- Paragraphs that are joined with an empty row come back, because none of their lines is blank. -/
theorem runs_intercalate_paragraphs (h : ∀ p ∈ ps, Paragraph p) :
    runs isBlank (List.intercalate [[]] ps) = ps :=
  runs_intercalate rfl fun p hp => ⟨(h p hp).ne_nil, (h p hp).full⟩

theorem paragraph_of_mem_map {p : List Text}
    (hp : p ∈ (runs isBlank ls).map (wrapParagraph (max width 1))) : Paragraph p := by
  obtain ⟨hne, hrows⟩ := of_mem_paragraphRows hp
  refine ⟨hne, fun row hrow => ?_⟩
  obtain ⟨l, -, hl, hmem⟩ := hrows row hrow
  exact isBlank_of_mem_wrapLine (by omega) hl hmem

/-- A return at the end of a line is nothing that shows, so losing it makes no line blank. -/
theorem Paragraph.map_dropReturn {p : List Text} (h : Paragraph p) :
    Paragraph (p.map dropReturn) := by
  refine ⟨by simpa using h.ne_nil, fun l hl => ?_⟩
  obtain ⟨row, hrow, rfl⟩ := List.mem_map.mp hl
  rw [isBlank_dropReturn]
  exact h.full row hrow

/-- The last row of a paragraph is not empty, so it is a line as well. -/
theorem Paragraph.endings {p : List Text} (h : Paragraph p) : Paragraph (endings p) := by
  obtain ⟨front, last, rfl⟩ := (List.eq_nil_or_concat' p).resolve_left h.ne_nil
  have hlast := h.full last (by simp)
  have hne : last ≠ [] := by
    rintro rfl
    cases hlast
  have hends : Text.endings (front ++ [last]) = front.map dropReturn ++ [last] := by
    rw [endings_append (List.cons_ne_nil _ _)]
    simp [Text.endings, hne]
  rw [hends]
  refine ⟨by simp, fun l hl => ?_⟩
  rcases List.mem_append.mp hl with hl | hl
  · obtain ⟨row, hrow, rfl⟩ := List.mem_map.mp hl
    rw [isBlank_dropReturn]
    exact h.full row (List.mem_append_left _ hrow)
  · rwa [List.mem_singleton.mp hl]

/-- Paragraphs with an empty row between them are read as paragraphs with an empty line between
them, which show the same. -/
theorem exists_endings_intercalate (h : ∀ p ∈ ps, Paragraph p) :
    ∃ qs, endings (List.intercalate [[]] ps) = List.intercalate [[]] qs ∧
      qs.map (·.flatMap visible) = ps.map (·.flatMap visible) ∧ ∀ q ∈ qs, Paragraph q := by
  induction ps with
  | nil => exact ⟨[], rfl, rfl, nofun⟩
  | cons p rest ih =>
    have hp := h p (List.mem_cons_self ..)
    obtain ⟨qs, hends, hshow, hqs⟩ := ih fun q hq => h q (List.mem_cons_of_mem _ hq)
    match rest with
    | [] =>
      refine ⟨[Text.endings p], ?_, ?_, ?_⟩
      · rw [List.intercalate_singleton, List.intercalate_singleton]
      · rw [List.map_singleton, List.map_singleton, flatMap_visible_endings]
      · intro q hq
        rw [List.mem_singleton.mp hq]
        exact hp.endings
    | next :: rest =>
      have hne : qs ≠ [] := by
        rintro rfl
        cases hshow
      obtain ⟨x, xs, hnext⟩ := List.exists_cons_of_ne_nil (h next (by simp)).ne_nil
      have hjoin : List.intercalate [[]] (next :: rest) =
          x :: List.intercalate [[]] (xs :: rest) := by
        rw [hnext, List.intercalate_cons_cons_left]
      -- qs:: the rows in front are all lines, and the last paragraph may lose none of its own
      refine ⟨p.map dropReturn :: qs, ?_, ?_, ?_⟩
      · rw [List.intercalate_cons_cons, List.append_assoc, List.singleton_append,
          endings_append (List.cons_ne_nil _ _), hjoin, Text.endings, ← hjoin, hends,
          List.intercalate_cons_of_ne_nil hne, List.append_assoc]
        rfl
      · rw [List.map_cons, List.map_cons, hshow, List.flatMap_map]
        simp
      · intro q hq
        rcases List.mem_cons.mp hq with rfl | hq
        · exact hp.map_dropReturn
        · exact hqs q hq

/-- The lines of wrapped text are its rows as lines, also if there are none. -/
theorem lines_wrap (width : Nat) (t : Text) :
    lines (wrap width t) = endings (wrapRows width (lines t)) := by
  by_cases hne : wrapRows width (lines t) = []
  · rw [wrap_eq_unlines, hne]
    rfl
  · rw [lines, rows_wrap hne]

/-- Wrapping keeps the number of paragraphs and what each of them shows, and between two of
them it leaves one empty line. There is none in front of the first or after the last. -/
theorem paragraphs_wrap_visible (width : Nat) (t : Text) :
    (paragraphs (wrap width t)).length = (paragraphs t).length ∧
      (paragraphs (wrap width t)).map (·.flatMap visible) =
        (paragraphs t).map (·.flatMap visible) ∧
      lines (wrap width t) = List.intercalate [[]] (paragraphs (wrap width t)) := by
  have hps : ∀ p ∈ (paragraphs t).map (wrapParagraph (max width 1)), Paragraph p :=
    fun p hp => paragraph_of_mem_map hp
  -- a row loses its return at most, so the paragraphs stay apart
  obtain ⟨qs, hends, hshow, hqs⟩ := exists_endings_intercalate hps
  have hlines : lines (wrap width t) = List.intercalate [[]] qs := by
    rw [lines_wrap]
    exact hends
  have hparagraphs : paragraphs (wrap width t) = qs := by
    rw [paragraphs, hlines, runs_intercalate_paragraphs hqs]
  have hsame : qs.map (·.flatMap visible) = (paragraphs t).map (·.flatMap visible) := by
    rw [hshow, List.map_map]
    exact List.map_congr_left fun p _ => flatMap_visible_wrapParagraph (by omega) p
  rw [hparagraphs]
  refine ⟨?_, hsame, hlines⟩
  -- as many paragraphs, because they show the same list of texts
  have hlength := congrArg List.length hsame
  rwa [List.length_map, List.length_map] at hlength

-- ---------------------------------------------------------------------------
-- Wrapping again
-- ---------------------------------------------------------------------------

/-- Paragraphs that are joined end in a row that is not blank, the last one of the last paragraph.
-/
theorem exists_intercalate_eq_concat (hne : ps ≠ []) (h : ∀ p ∈ ps, Paragraph p) :
    ∃ front last, List.intercalate [[]] ps = front ++ [last] ∧ isBlank last = false := by
  obtain ⟨others, p, rfl⟩ := (List.eq_nil_or_concat' ps).resolve_left hne
  have hp := h p (by simp)
  obtain ⟨front, last, rfl⟩ := (List.eq_nil_or_concat' p).resolve_left hp.ne_nil
  exact ⟨_, last, intercalate_concat_append [[]] others front [last], hp.full last (by simp)⟩

/-- Without returns before its newlines, wrapped text has its rows as lines. Its last row is not
empty, so it counts as a line too. -/
theorem lines_wrap_eq_wrapRows (h : ReturnsBelow 1 (wrap width t)) :
    lines (wrap width t) = wrapRows width (lines t) := by
  by_cases hne : wrapRows width (lines t) = []
  · rw [lines_wrap, hne]
    rfl
  · have hps : (runs isBlank (lines t)).map (wrapParagraph (max width 1)) ≠ [] := by
      intro hnil
      rw [wrapRows, hnil] at hne
      exact hne rfl
    obtain ⟨front, last, hrows, hlast⟩ :=
      exists_intercalate_eq_concat hps fun p hp => paragraph_of_mem_map hp
    have hfull : last ≠ [] := by
      rintro rfl
      cases hlast
    rw [lines_eq_rows_of_last ((rows_wrap hne).trans hrows) hfull h, rows_wrap hne]

/-- The paragraphs of wrapped text are the wrapped ones, if no row loses a return. -/
theorem paragraphs_wrap (h : ReturnsBelow 1 (wrap width t)) :
    paragraphs (wrap width t) = (paragraphs t).map (wrapParagraph (max width 1)) := by
  rw [paragraphs, lines_wrap_eq_wrapRows h, wrapRows,
    runs_intercalate_paragraphs fun p hp => paragraph_of_mem_map hp]
  rfl

theorem length_le_of_mem_wrapParagraph (hw : 0 < width) (hl : l ∈ wrapParagraph width ls) :
    l.length ≤ width := by
  rw [wrapParagraph_eq] at hl
  obtain ⟨line, -, hrow⟩ := List.mem_flatMap.mp hl
  exact (of_mem_wrapLine hw hrow).1

/-- Wrapping again, to the same width or to a larger one, changes nothing. A text with two returns
before a newline is left out: one of them is kept, and the next pass takes it away. -/
theorem wrap_wrap (h : ReturnsBelow 2 t) (hle : width ≤ wider) :
    wrap wider (wrap width t) = wrap width t := by
  have hreturns : ReturnsBelow 1 (wrap width t) := returnsBelow_wrap Nat.one_pos h
  have hkeep : ∀ p ∈ paragraphs t,
      unlines (wrapParagraph (max wider 1) (wrapParagraph (max width 1) p)) =
        unlines (wrapParagraph (max width 1) p) := by
    intro p _
    rw [wrapParagraph_eq_self fun l hl => ?_]
    have hfits := length_le_of_mem_wrapParagraph (by omega) hl
    omega
  rw [wrap, paragraphs_wrap hreturns, List.map_map, wrap]
  exact congrArg _ (List.map_congr_left hkeep)

/-- A long line with a return in its indentation, between two gaps of blank lines. -/
theorem wrap_wrap_indented :
    let t := "a\r\n\n\n \rone two\n\n \n".toList
    ReturnsBelow 2 t ∧ 5 ≤ 9 ∧ wrap 9 (wrap 5 t) = wrap 5 t := by
  intro t
  have h : ReturnsBelow 2 t := by
    unfold ReturnsBelow
    decide +kernel
  have hle : 5 ≤ 9 := by decide
  exact ⟨h, hle, wrap_wrap h hle⟩

end Text

end ConventionalCommit
