import ConventionalCommit.Proofs.Text.Wrapping
import ConventionalCommit.Report.Frame

/-!
# ConventionalCommit — the shape of a framed text

The edges and the rows of a frame get their lengths from the width that is asked for, each
by a subtraction of its own that stops at zero. They agree as soon as there is room for the
title and for one character on a row. No row needs more than that, because a wrapped line
fits its width.

* `length_top`, `length_row`, `length_bottom`: how long each part of a frame is;
* `lines_render`: the lines of a framed text are its edges with the rows between them;
* `render_rectangular`: when all of them have the width that was asked for.
-/

namespace ConventionalCommit.Frame

open Text (lines unlines)

variable {title content t : Text} {width : Nat}

-- ---------------------------------------------------------------------------
-- The parts of a frame
-- ---------------------------------------------------------------------------

/-- The upper edge grows with its title. -/
theorem length_top (title : Text) (width : Nat) :
    (top false title width).length = max width (title.length + 4) := by
  unfold top edgeWidth edge Paint.apply
  simp only [Bool.false_eq_true, if_false, List.length_cons, List.length_append,
    List.length_replicate, List.length_nil]
  omega

/-- The bottom of a frame has its width, but two corners at least. -/
theorem length_bottom (width : Nat) : (bottom width).length = max width 2 := by
  unfold bottom edgeWidth edge
  simp only [List.length_cons, List.length_append, List.length_replicate, List.length_nil]
  omega

/-- A text that fits is filled up to the width inside the frame. -/
theorem length_row (h : t.length ≤ innerWidth width) : (row width t).length = max width 5 := by
  unfold innerWidth at h
  unfold row innerWidth
  simp only [List.length_cons, List.length_append, List.length_replicate, List.length_nil]
  omega

/-- What stands on a row of the frame is one row of text, and it fits. -/
theorem of_mem_contentRows (h : t ∈ contentRows width content) :
    '\n' ∉ t ∧ t.length ≤ innerWidth width := by
  obtain ⟨line, -, ht⟩ := List.mem_flatMap.mp h
  unfold rowTexts at ht
  split at ht
  · rw [List.mem_singleton.mp ht]
    exact ⟨List.not_mem_nil, Nat.zero_le _⟩
  · have hfits := Text.rows_wrap_fit (innerWidth width) line t ht
    have hroom : 1 ≤ innerWidth width := Nat.le_max_right _ _
    exact ⟨Text.not_mem_of_mem_rows ht, by omega⟩

/-- Every line has a row, a blank one too, so only an empty text has none. -/
theorem contentRows_eq_nil_iff : contentRows width content = [] ↔ content = [] := by
  have hrow : ∀ line, rowTexts width line ≠ [] := by
    intro line
    unfold rowTexts
    split
    · exact List.cons_ne_nil _ _
    · exact Text.rows_ne_nil _
  unfold contentRows
  rw [List.flatMap_eq_nil_iff, ← Text.lines_eq_nil_iff, List.eq_nil_iff_forall_not_mem]
  constructor
  · exact fun h line hline => hrow line (h line hline)
  · exact fun h line hline => absurd hline (h line)

-- ---------------------------------------------------------------------------
-- The lines of a frame
-- ---------------------------------------------------------------------------

/-- An edge has no newline, so the rows of a frame are its lines. -/
theorem not_mem_edge (n : Nat) : '\n' ∉ edge n := fun h =>
  absurd (List.eq_of_mem_replicate h) (by decide)

/-- Each edge and each row of a frame is a line of its own: it has no newline, and it ends in a
character of the frame. -/
theorem lines_render (h : '\n' ∉ title) (content : Text) (width : Nat) :
    lines (render false title content width) =
      top false title width :: ((contentRows width content).map (row width) ++ [bottom width]) := by
  -- a line that ends in a character of the frame is not empty and has no return to lose
  have hclosed : ∀ {l : Text} {c : Char}, l.getLast? = some c → c ≠ '\r' →
      l ≠ [] ∧ l.getLast? ≠ some '\r' := by
    intro l c hlast hc
    refine ⟨?_, ?_⟩
    · rintro rfl
      cases hlast
    · rw [hlast]
      exact fun hreturn => hc (Option.some.inj hreturn)
  refine Text.lines_unlines fun l hl => ?_
  simp only [List.mem_cons, List.mem_append, List.mem_map, List.not_mem_nil, or_false] at hl
  rcases hl with rfl | ⟨t, ht, rfl⟩ | rfl
  · -- the upper edge
    have hlast : (top false title width).getLast? = some '\u256e' := by
      simp [top, Paint.apply, List.getLast?_append, List.getLast?_cons]
    exact ⟨by simp [top, Paint.apply, not_mem_edge, h], hclosed hlast (by decide)⟩
  · -- a row
    have hlast : (row width t).getLast? = some '\u2502' := by
      simp [row, List.getLast?_append, List.getLast?_cons]
    have hnewline := (of_mem_contentRows ht).1
    exact ⟨by simp [row, hnewline], hclosed hlast (by decide)⟩
  · -- the lower edge
    have hlast : (bottom width).getLast? = some '\u256f' := by
      simp [bottom, List.getLast?_append, List.getLast?_cons]
    exact ⟨by simp [bottom, not_mem_edge], hclosed hlast (by decide)⟩

/--
A frame without colours is as wide as asked for, but its upper edge has room for the title at
least, its rows have room for a character, and its lower edge has two corners. So all its lines
have the width that was asked for exactly if there is room for the title and, if there is any
row, for a character on it.
-/
theorem render_rectangular (h : '\n' ∉ title) (content : Text) (width : Nat) :
    ∃ first between last,
      lines (render false title content width) = first :: (between ++ [last]) ∧
      first.length = max width (title.length + 4) ∧
      (∀ l ∈ between, l.length = max width 5) ∧
      last.length = max width 2 ∧
      (between = [] ↔ content = []) ∧
      ((∀ l ∈ lines (render false title content width), l.length = width) ↔
        if between = [] then title.length + 4 ≤ width else max 5 (title.length + 4) ≤ width) := by
  have hlines := lines_render h content width
  have hrow : ∀ l ∈ (contentRows width content).map (row width), l.length = max width 5 := by
    intro l hl
    obtain ⟨t, ht, rfl⟩ := List.mem_map.mp hl
    exact length_row (of_mem_contentRows ht).2
  have hempty : (contentRows width content).map (row width) = [] ↔ content = [] := by
    rw [List.map_eq_nil_iff, contentRows_eq_nil_iff]
  have htop := length_top title width
  have hbottom := length_bottom width
  rw [hlines]
  -- from here on only the three widths and whether there is a row count
  generalize (contentRows width content).map (row width) = between at hrow hempty ⊢
  refine ⟨_, between, _, rfl, htop, hrow, hbottom, hempty, ?_⟩
  constructor
  · intro hall
    -- the upper edge asks for room for the title, a row for room for a character
    have hfirst := hall _ (List.mem_cons_self ..)
    split
    · omega
    · next hne =>
      obtain ⟨l, hl⟩ := List.exists_mem_of_ne_nil _ hne
      have hwidth := hall l (by simp [hl])
      have hlength := hrow l hl
      omega
  · intro hroom l hl
    simp only [List.mem_cons, List.mem_append, List.not_mem_nil, or_false] at hl
    rcases hl with rfl | hl | rfl
    · split at hroom <;> omega
    · rw [if_neg (List.ne_nil_of_mem hl)] at hroom
      have hlength := hrow l hl
      omega
    · split at hroom <;> omega

/-- A title of odd length in an edge, and an empty row between two texts. -/
theorem render_rectangular_titled :
    '\n' ∉ "Suggested fix".toList ∧
      ∀ l ∈ lines (render false "Suggested fix".toList "feat: add x\n\nbody".toList 30),
        l.length = 30 := by
  have htitle : '\n' ∉ "Suggested fix".toList := by decide
  obtain ⟨-, between, -, -, -, -, -, -, hwidth⟩ :=
    render_rectangular htitle "feat: add x\n\nbody".toList 30
  refine ⟨htitle, hwidth.mpr ?_⟩
  split <;> decide

end ConventionalCommit.Frame
