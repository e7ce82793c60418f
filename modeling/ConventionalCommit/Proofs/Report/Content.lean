import ConventionalCommit.Proofs.Report.Frame
import ConventionalCommit.Proofs.Text.Paragraphs

/-!
# ConventionalCommit — the content of a framed text

Wrapping drops blank lines and takes a text for paragraphs, so a frame does not wrap its content
as a whole. It wraps each line by itself, and a blank line gets a row without being wrapped. A
line that is not blank is one paragraph of one line, which loses nothing, and filling up a row
adds nothing that shows.

* `rows_wrap_line`: the rows of a line that is wrapped by itself;
* `shows_lineInteriors`: what the rows of a line have inside shows that line;
* `render_shows_content`: what all rows of a frame have inside shows the content, line by line.
-/

namespace ConventionalCommit

namespace Text

/-- A line that is not blank is a paragraph, and its rows are all that it is wrapped to. -/
theorem rows_wrap_line {l : Text} (width : Nat) (hl : isBlank l = false) (hn : '\n' ∉ l) :
    rows (wrap width l) = wrapLine (max width 1) l := by
  have hne : l ≠ [] := by
    rintro rfl
    cases hl
  have halone : rows l = [] ++ [l] := rows_of_not_mem hn
  have hlines : lines l = [l] := lines_of_rows halone hne
  -- one run of lines, which is the line
  have hsolid : ∀ x ∈ [l], isBlank x = false := by
    intro x hx
    rwa [List.mem_singleton.mp hx]
  have hrows : wrapRows width (lines l) = wrapLine (max width 1) l := by
    rw [hlines, wrapRows, runs_of_solid (List.cons_ne_nil _ _) hsolid, List.map_singleton,
      List.intercalate_singleton, wrapParagraph_eq, List.flatMap_singleton]
  have hsome : wrapRows width (lines l) ≠ [] := by
    rw [hrows]
    exact wrapLine_ne_nil hl
  rw [rows_wrap hsome, hrows]

end Text

namespace Frame

open Text (isBlank lines visible visible_eq_nil_iff)

variable {title content l t : Text} {ls : List Text} {shown : Text → List Text} {width : Nat}

-- ---------------------------------------------------------------------------
-- The inside of a row
-- ---------------------------------------------------------------------------

/-- What stands between the sides of a frame, and the spaces next to them. -/
def enclosed (inside : Text) : Text := '\u2502' :: ' ' :: (inside ++ [' ', '\u2502'])

/-- A row without its first two and its last two characters. -/
def interior (row : Text) : Text := (row.drop 2).take (row.length - 4)

/-- The insides of the rows, which are all lines of a frame but the first and the last. -/
def interiors (frame : Text) : List Text := (lines frame).tail.dropLast.map interior

/-- A text with the spaces that fill up its row. -/
def filled (width : Nat) (t : Text) : Text :=
  t ++ List.replicate (innerWidth width - t.length) ' '

/-- A row of a frame is a text that is filled up and enclosed. -/
theorem row_eq_enclosed (width : Nat) (t : Text) : row width t = enclosed (filled width t) := rfl

@[simp] theorem interior_enclosed (t : Text) : interior (enclosed t) = t := by
  have hlength : (enclosed t).length - 4 = t.length := by
    simp [enclosed]
  rw [interior, hlength]
  exact List.take_left

/-- The spaces at the end of a row do not show. -/
theorem visible_filled (width : Nat) (t : Text) : visible (filled width t) = visible t := by
  have hspaces : isBlank (List.replicate (innerWidth width - t.length) ' ') = true := by
    rw [Text.isBlank_iff]
    intro c hc
    rw [List.eq_of_mem_replicate hc]
    exact Unicode.isWhite_space
  unfold filled
  rw [Text.visible_append, visible_eq_nil_iff.mpr hspaces, List.append_nil]

/-- Filling up a row does not make it blank, nor does it make a blank one anything else. -/
theorem isBlank_filled (width : Nat) (t : Text) : isBlank (filled width t) = isBlank t := by
  rw [Bool.eq_iff_iff, ← visible_eq_nil_iff, ← visible_eq_nil_iff, visible_filled]

-- ---------------------------------------------------------------------------
-- The rows of a line
-- ---------------------------------------------------------------------------

/-- A blank line is shown by a single blank row. Another line is shown by rows of which none is
blank, and the characters on them that are not white space are those of the line, in order. -/
inductive Shows : Text → List Text → Prop
  | blank {l t : Text} (hl : isBlank l = true) (ht : isBlank t = true) : Shows l [t]
  | full {l : Text} {ts : List Text} (hl : isBlank l = false) (hne : ts ≠ [])
    (hts : ∀ t ∈ ts, isBlank t = false) (hshow : ts.flatMap visible = visible l) : Shows l ts

/-- What the rows of a line have inside. -/
def lineInteriors (width : Nat) (l : Text) : List Text := (rowTexts width l).map (filled width)

/-- The rows of a line show it, whatever room there is on them. A line that is not blank is wrapped
by itself, and a blank line has a row of its own. -/
theorem shows_lineInteriors (width : Nat) (hn : '\n' ∉ l) : Shows l (lineInteriors width l) := by
  have hroom : 0 < innerWidth width := Nat.lt_of_lt_of_le Nat.one_pos (Nat.le_max_right _ _)
  unfold lineInteriors rowTexts
  -- a blank line is not wrapped, because wrapping would drop it
  cases hl : isBlank l with
  | true =>
    rw [if_pos rfl, List.map_singleton]
    exact .blank hl (isBlank_filled width [])
  | false =>
    rw [if_neg Bool.false_ne_true, Text.rows_wrap_line _ hl hn, Nat.max_eq_left hroom]
    refine .full hl ?_ ?_ ?_
    · rw [ne_eq, List.map_eq_nil_iff]
      exact Text.wrapLine_ne_nil hl
    · intro t ht
      obtain ⟨row, hrow, rfl⟩ := List.mem_map.mp ht
      rw [isBlank_filled]
      exact Text.isBlank_of_mem_wrapLine hroom hl hrow
    · rw [List.flatMap_map]
      simp only [visible_filled]
      exact Text.flatMap_visible_wrapLine hroom l

/-- What a line shows is on its rows once. A row that is wrapped shows its tokens, and a blank row
shows nothing. -/
theorem Shows.flatMap_visible {ts : List Text} (h : Shows l ts) :
    ts.flatMap visible = visible l := by
  cases h with
  | blank hl ht =>
    rw [List.flatMap_singleton, visible_eq_nil_iff.mpr ht, visible_eq_nil_iff.mpr hl]
  | full _ _ _ hshow => exact hshow

/-- Only a blank line has a blank row, and it has one. -/
theorem Shows.countP_isBlank {ts : List Text} (h : Shows l ts) :
    ts.countP isBlank = [l].countP isBlank := by
  cases h with
  | blank hl ht => rw [List.countP_singleton, List.countP_singleton, hl, ht]
  | full hl _ hts _ =>
    rw [List.countP_singleton, hl, List.countP_eq_zero.mpr fun t ht => by rw [hts t ht]; nofun]
    rfl

-- ---------------------------------------------------------------------------
-- The rows of a text
-- ---------------------------------------------------------------------------

theorem flatMap_visible_shown (h : ∀ l ∈ ls, Shows l (shown l)) :
    (ls.flatMap shown).flatMap visible = ls.flatMap visible := by
  rw [List.flatMap_assoc]
  exact List.flatMap_congr fun l hl => (h l hl).flatMap_visible

/-- The rows of a text have as many blank ones as it has blank lines. -/
theorem countP_isBlank_shown (h : ∀ l ∈ ls, Shows l (shown l)) :
    (ls.flatMap shown).countP isBlank = ls.countP isBlank := by
  induction ls with
  | nil => rfl
  | cons l rest ih =>
    have hrest := ih fun x hx => h x (List.mem_cons_of_mem _ hx)
    rw [List.flatMap_cons, List.countP_append, hrest,
      (h l (List.mem_cons_self ..)).countP_isBlank, ← List.countP_append, List.singleton_append]

/-- Enclosing the insides of all lines gives the rows of the frame, in the order of the lines. -/
theorem map_enclosed_lineInteriors (width : Nat) (content : Text) :
    ((lines content).flatMap (lineInteriors width)).map enclosed =
      (contentRows width content).map (row width) := by
  rw [contentRows, List.map_flatMap, List.map_flatMap]
  refine List.flatMap_congr fun l _ => ?_
  rw [lineInteriors, List.map_map]
  exact List.map_congr_left fun t _ => (row_eq_enclosed width t).symm

/-- The insides of the rows of a frame are those of the lines of its content, line by line. -/
theorem interiors_render (h : '\n' ∉ title) (content : Text) (width : Nat) :
    interiors (render false title content width) =
      (lines content).flatMap (lineInteriors width) := by
  rw [interiors, lines_render h, List.tail_cons, List.dropLast_concat,
    ← map_enclosed_lineInteriors, List.map_map]
  exact List.map_id'' interior_enclosed _

/--
Inside the rows of a frame without colours stands what shows its content: the lines in order, a
blank one on one blank row, and any other on one or more rows that are not blank. So nothing that
shows is lost, repeated or moved, and there is a blank row for each blank line and for nothing else.
-/
theorem render_shows_content (h : '\n' ∉ title) (content : Text) (width : Nat) :
    (∃ first last, lines (render false title content width) =
      first :: ((interiors (render false title content width)).map enclosed ++ [last])) ∧
    ∃ shown : Text → List Text,
      interiors (render false title content width) = (lines content).flatMap shown ∧
      (∀ l ∈ lines content, Shows l (shown l)) ∧
      (interiors (render false title content width)).flatMap visible = visible content ∧
      (interiors (render false title content width)).countP isBlank =
        (lines content).countP isBlank := by
  have hinside := interiors_render h content width
  have hshows : ∀ l ∈ lines content, Shows l (lineInteriors width l) :=
    fun l hl => shows_lineInteriors width (Text.not_mem_of_mem_lines hl)
  refine ⟨⟨top false title width, bottom width, ?_⟩, lineInteriors width, hinside, hshows, ?_, ?_⟩
  · rw [hinside, lines_render h, map_enclosed_lineInteriors]
  · rw [hinside, flatMap_visible_shown hshows, Text.flatMap_visible_lines]
  · rw [hinside, countP_isBlank_shown hshows]

/-- Room for one character on each row, an indented line with a return in it that has three, and
two blank lines. -/
theorem render_shows_content_narrow :
    let title := "fix".toList
    let content := "  ab\r c\n \t\n\nd".toList
    let inside := interiors (render false title content 0)
    '\n' ∉ title ∧ inside = ["a", "b", "c", " ", " ", "d"].map String.toList ∧
      inside.flatMap visible = "abcd".toList ∧ inside.countP isBlank = 2 := by
  intro title content inside
  have htitle : '\n' ∉ title := by decide
  have hinside : inside = ["a", "b", "c", " ", " ", "d"].map String.toList := by decide +kernel
  obtain ⟨-, shown, -, -, hvisible, hblank⟩ := render_shows_content htitle content 0
  exact ⟨htitle, hinside, hvisible, hblank⟩

end Frame

end ConventionalCommit
