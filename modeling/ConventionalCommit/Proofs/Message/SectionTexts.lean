import ConventionalCommit.Message.Basic
import ConventionalCommit.Proofs.Message.Footer

/-!
# ConventionalCommit — the texts of the sections

The lines under a header are read as the texts of a body and a footer
(`Sections.Reads`). This module says what the two texts look like, and where
texts that are put together again are cut.

* `header_parse`: the header is the first line;
* `footerRead_of_reads`, `bodyRead_of_reads`: trimming a section changes its
  first and its last line only, so the other rows are the lines that were read;
* `reads_append_blank`: a footer after a blank line is found again;
* `reads_of_no_trailer`: without a trailer at the end there is only a body.
-/

namespace ConventionalCommit

open Text (trimmed? Tight lines rows unlines isBlank)
open Trailer (isTrailerLine)

-- ---------------------------------------------------------------------------
-- The first line
-- ---------------------------------------------------------------------------

/-- The first line of a text, which is empty if there are no lines. -/
def Text.firstLine (t : Text) : Text := t.lines.headD []

/-- The first line is a line of the text, unless there is none. -/
theorem Text.firstLine_cases (t : Text) : t.firstLine = [] ∨ t.firstLine ∈ lines t := by
  unfold firstLine
  cases lines t with
  | nil => exact Or.inl rfl
  | cons l rest => exact Or.inr (List.mem_cons_self ..)

/-- The first line has no newline, also if it is empty for want of any. -/
theorem Text.not_mem_firstLine (t : Text) : '\n' ∉ t.firstLine := by
  rcases t.firstLine_cases with h | h
  · rw [h]
    exact List.not_mem_nil
  · exact Text.not_mem_of_mem_lines h

/-- The header of a message is its first line, whatever the line says. -/
theorem Message.header_parse (raw : Text) : (parse raw).header = raw.firstLine := by
  show ((lines raw).take 1).flatten = (lines raw).headD []
  cases lines raw with
  | nil => rfl
  | cons l rest => simp

/-- A message is a breaking change by the mark in its header or by what its footer announces. The
body has no part in it. -/
theorem Message.isBreaking_parse (raw : Text) : (parse raw).isBreaking =
    ((parse raw).marked || (parse raw).footer.any Trailer.footerBreaks) := rfl

-- ---------------------------------------------------------------------------
-- The lines under it
-- ---------------------------------------------------------------------------

namespace Sections

variable {ls xs ys : List Text} {T b f l t : Text} {body footer : Option Text}

/-- Lines without blank ones at the ends are read as a body and a footer. -/
def Reads (ls : List Text) (body footer : Option Text) : Prop :=
  body = trimmed? (unlines (beforeFooter ls)) ∧ footer = trimmed? (unlines (footerOf ls))

/-- The sections of a message are read from the lines between the blank ones at both ends. -/
theorem reads_core (raw : Text) : Reads (core ((lines raw).drop 1)) (Message.parse raw).body
    (Message.parse raw).footer := by
  simp only [Reads, Message.parse, ofLines_body, ofLines_footer, and_self]

theorem reads_nil : Reads [] none none := ⟨rfl, rfl⟩

/-- What stands before the footer is known as soon as the footer is, since the two are all lines. -/
theorem beforeFooter_eq (h : footerOf ls = ys) (happ : ls = xs ++ ys) : beforeFooter ls = xs := by
  have := beforeFooter_append_footerOf ls
  rw [h] at this
  exact List.append_cancel_right (this.trans happ)

theorem Reads.isInfix_body (h : Reads ls body footer) (hb : b ∈ body) : b <:+: unlines ls := by
  have hsplit := beforeFooter_append_footerOf ls
  have hpart := Text.unlines_isInfix [] (beforeFooter ls) (footerOf ls)
  rw [List.nil_append, hsplit] at hpart
  rw [h.1] at hb
  exact (Text.infix_of_trimmed? hb).trans hpart

theorem Reads.isInfix_footer (h : Reads ls body footer) (hf : f ∈ footer) : f <:+: unlines ls := by
  have hsplit := beforeFooter_append_footerOf ls
  have hpart := Text.unlines_isInfix (beforeFooter ls) (footerOf ls) []
  rw [List.append_nil, hsplit] at hpart
  rw [h.2] at hf
  exact (Text.infix_of_trimmed? hf).trans hpart

theorem reads_of_no_trailer (h : ls.getLast?.any isTrailerLine = false) :
    Reads ls (trimmed? (unlines ls)) none := by
  have hnil := footerOf_eq_nil h
  rw [Reads, beforeFooter_eq hnil (List.append_nil ls).symm, hnil]
  exact ⟨rfl, rfl⟩

theorem reads_of_footerOf_eq_self (h : footerOf ls = ls) :
    Reads ls none (trimmed? (unlines ls)) := by
  rw [Reads, beforeFooter_eq h (List.nil_append ls).symm, h]
  exact ⟨rfl, rfl⟩

/-- Before a footer that follows a blank line stands what was there, and that line. -/
theorem beforeFooter_append_blank (hl : isBlank l = true) (h : footerOf ys = ys) (xs : List Text) :
    beforeFooter (xs ++ l :: ys) = xs ++ [l] :=
  beforeFooter_eq ((footerOf_append_blank hl xs ys).trans h) (by simp)

/-- A footer that follows a blank line is found again, and the body before it is what stands above
that line. -/
theorem reads_append_blank (hb : Tight b) (hl : isBlank l = true) (hx : rows b = xs)
    (h : footerOf ys = ys) : Reads (xs ++ l :: ys) (some b) (trimmed? (unlines ys)) := by
  have hfooter : footerOf (xs ++ l :: ys) = ys := (footerOf_append_blank hl xs ys).trans h
  have hbody : unlines (xs ++ [l]) = b ++ '\n' :: l := by
    subst hx
    rw [Text.unlines_append (Text.rows_ne_nil b) (List.cons_ne_nil _ _), Text.unlines_rows,
      Text.unlines_singleton]
  rw [Reads, beforeFooter_append_blank hl h, hfooter, hbody,
    Text.trimmed?_append_of_isBlank b (by simpa [isBlank] using hl), hb.trimmed?_eq]
  exact ⟨rfl, rfl⟩

-- ---------------------------------------------------------------------------
-- What reading yields
-- ---------------------------------------------------------------------------

/-- The rows of a footer: none is blank, and the first is a trailer unless it is
the only one and lost its value. -/
structure FooterRead (f : Text) : Prop where
  not_blank : ∀ row ∈ rows f, isBlank row = false
  first : (rows f).head?.any isTrailerLine = true ∨ rows f = [f]

/-- The rows of a body that no footer follows: the last is no trailer, unless it is
the only one and lost its indentation. -/
def BodyRead (b : Text) : Prop := (rows b).getLast?.any isTrailerLine = false ∨ rows b = [b]

/-- Trimming joined lines trims the first and the last of them. Neither is blank, so trimming does
not reach beyond them. -/
theorem trimmed?_unlines {x : Text} (hx : isBlank x = false) (hl : isBlank l = false) :
    trimmed? (unlines (x :: xs ++ [l])) = some (unlines (x.trimStart :: xs ++ [l.trimEnd])) := by
  have hstart := Text.trimStart_append_spaces x
  have hend := Text.trimEnd_append_spaces l
  have hne : x.trimStart ≠ [] := fun h => by
    rw [h, List.append_nil] at hstart
    rw [← hstart, ← Bool.not_eq_true, Text.isBlank_iff] at hx
    exact hx fun c hc => Text.of_mem_takeWhile hc
  have hne' : l.trimEnd ≠ [] := fun h => by
    rw [h, List.nil_append] at hend
    rw [← hend, ← Bool.not_eq_true, Text.isBlank_iff] at hl
    exact hl fun c hc => Text.of_mem_takeWhile (List.mem_reverse.mp hc)
  -- what is left is tight, so the trimmed text is just this
  have htight : Tight (unlines (x.trimStart :: xs ++ [l.trimEnd])) := by
    refine Text.tight_unlines (by simp) (fun y hy => ?_) fun y hy => ?_
    · obtain rfl : x.trimStart = y := Option.some.inj hy
      exact ⟨hne, Text.isWhite_head_trimStart⟩
    · rw [List.getLast?_concat] at hy
      obtain rfl := Option.some.inj hy
      exact ⟨hne', Text.isWhite_last_trimEnd⟩
  have hsplit : unlines (x :: xs ++ [l]) = x.takeWhile Unicode.isWhite ++
      unlines (x.trimStart :: xs ++ [l.trimEnd]) ++
        (l.reverse.takeWhile Unicode.isWhite).reverse := by
    rw [List.append_assoc, Text.unlines_concat_append, hend, List.cons_append,
      List.cons_append, Text.unlines_cons _ (by simp), Text.unlines_cons _ (by simp),
      ← List.append_assoc, hstart]
  rw [hsplit]
  refine htight.trimmed?_surround (Text.isBlank_iff.mpr fun c hc => Text.of_mem_takeWhile hc)
    (Text.isBlank_iff.mpr fun c hc => Text.of_mem_takeWhile (List.mem_reverse.mp hc))

/-- The rows of trimmed lines are the lines, with the first and the last trimmed. -/
theorem rows_of_trimmed? {x : Text} (hx : isBlank x = false) (hl : isBlank l = false)
    (hno : ∀ y ∈ x :: xs ++ [l], '\n' ∉ y) (ht : trimmed? (unlines (x :: xs ++ [l])) = some t) :
    rows t = x.trimStart :: xs ++ [l.trimEnd] := by
  rw [trimmed?_unlines hx hl] at ht
  refine Text.rows_eq_iff.mpr ⟨by simp, fun y hy => ?_, Option.some.inj ht⟩
  simp only [List.cons_append, List.mem_cons, List.mem_append, List.not_mem_nil, or_false] at hy
  rcases hy with rfl | hy | rfl
  · exact fun hn => hno x (by simp) ((Text.trimStart_isSuffix x).subset hn)
  · exact hno y (by simp [hy])
  · exact fun hn => hno l (by simp) ((Text.trimEnd_isPrefix l).subset hn)

/-- Trimming the end of a line does not make it blank, nor does it make a blank line anything else.
-/
theorem isBlank_trimEnd (l : Text) : isBlank l.trimEnd = isBlank l := by
  have hend := Text.trimEnd_append_spaces l
  have hspaces : isBlank (l.reverse.takeWhile Unicode.isWhite).reverse = true :=
    Text.isBlank_iff.mpr fun c hc => Text.of_mem_takeWhile (List.mem_reverse.mp hc)
  conv_rhs => rw [← hend, Text.isBlank_append, hspaces, Bool.and_true]

theorem isBlank_trimStart (l : Text) : isBlank l.trimStart = isBlank l := by
  have hstart := Text.trimStart_append_spaces l
  have hspaces : isBlank (l.takeWhile Unicode.isWhite) = true :=
    Text.isBlank_iff.mpr fun c hc => Text.of_mem_takeWhile hc
  conv_rhs => rw [← hstart, Text.isBlank_append, hspaces, Bool.true_and]

theorem rows_eq_singleton_of_isInfix (hl : '\n' ∉ l) (h : b <:+: l) : rows b = [b] :=
  Text.rows_of_not_mem fun hn => hl (h.subset hn)

/-- Trimming lines that are not blank leaves no blank row. The first and the last one lose white
space only, and a single one is what the text is trimmed to. -/
theorem not_blank_of_trimmed? (hno : ∀ l ∈ ls, '\n' ∉ l) (hblank : ∀ l ∈ ls, isBlank l = false)
    (ht : trimmed? (unlines ls) = some t) : ∀ row ∈ rows t, isBlank row = false := by
  intro row hrow
  cases ls with
  | nil => cases ht
  | cons x rest =>
    have hx := hblank x (List.mem_cons_self ..)
    rcases List.eq_nil_or_concat' rest with rfl | ⟨xs, l, rfl⟩
    · rw [Text.unlines_singleton] at ht
      rw [rows_eq_singleton_of_isInfix (hno x (List.mem_cons_self ..))
        (Text.infix_of_trimmed? ht), List.mem_singleton] at hrow
      rw [hrow]
      exact (Tight.of_trimmed? ht).isBlank_eq_false
    · have hl := hblank l (by simp)
      -- only the first and the last row lose white space, and neither loses all
      rw [rows_of_trimmed? hx hl hno ht, List.cons_append, List.mem_cons, List.mem_append,
        List.mem_singleton] at hrow
      rcases hrow with rfl | hrow | rfl
      · rwa [isBlank_trimStart]
      · exact hblank row (by simp [hrow])
      · rwa [isBlank_trimEnd]

theorem footerOf_ne_nil (hf : trimmed? (unlines (footerOf ls)) = some f) : footerOf ls ≠ [] := by
  intro hnil
  rw [hnil] at hf
  cases hf

/-- A footer as it is read has no blank row and begins with a trailer. If it is a single line,
trimming may take the white space that made it a trailer, and then only its single row is known. -/
theorem footerRead_of_reads (hno : ∀ l ∈ ls, '\n' ∉ l)
    (hf : trimmed? (unlines (footerOf ls)) = some f) : FooterRead f := by
  have hne := footerOf_ne_nil hf
  obtain ⟨hfirst, _⟩ := footerOf_ends hne
  have hblank : ∀ l ∈ footerOf ls, isBlank l = false := fun _ h => isBlank_of_mem_footerOf h
  have hno : ∀ l ∈ footerOf ls, '\n' ∉ l := fun l hl => hno l ((footerOf_suffix ls).subset hl)
  refine ⟨not_blank_of_trimmed? hno hblank hf, ?_⟩
  generalize footerOf ls = lines at *
  obtain ⟨x, rest, rfl⟩ := List.exists_cons_of_ne_nil hne
  -- one line is trimmed at both ends, and of several each at one end at most
  rcases List.eq_nil_or_concat' rest with rfl | ⟨xs, l, rfl⟩
  · rw [Text.unlines_singleton] at hf
    exact Or.inr (rows_eq_singleton_of_isInfix (hno x (List.mem_cons_self ..))
      (Text.infix_of_trimmed? hf))
  · left
    have hx : isTrailerLine x = true := by simpa using hfirst
    obtain ⟨c, tail, rfl, hc⟩ := Trailer.isTrailerLine_head hx
    have hstart : Text.trimStart (c :: tail) = c :: tail :=
      Text.trimStart_eq_self fun d hd => by rwa [← Option.some.inj hd]
    rw [rows_of_trimmed? (hblank _ (List.mem_cons_self ..)) (hblank l (by simp)) hno hf, hstart]
    simpa using hx

/-- The last row of a body without a footer is no trailer. Its white space at the end may have been
trimmed, but a trailer stays one however it goes on. -/
theorem bodyRead_of_reads (hno : ∀ l ∈ ls, '\n' ∉ l) (hfirst : ∀ l ∈ ls.head?, isBlank l = false)
    (hlast : ∀ l ∈ ls.getLast?, isBlank l = false) (htrailer : footerOf ls = [])
    (hb : trimmed? (unlines ls) = some b) : BodyRead b := by
  rw [footerOf_eq_nil_iff] at htrailer
  cases ls with
  | nil => cases hb
  | cons x rest =>
    -- a single line stays a single row; of several, the last one is looked at
    rcases List.eq_nil_or_concat' rest with rfl | ⟨xs, l, rfl⟩
    · rw [Text.unlines_singleton] at hb
      exact Or.inr (rows_eq_singleton_of_isInfix (hno x (List.mem_cons_self ..))
        (Text.infix_of_trimmed? hb))
    · left
      have hl := hlast l (by rw [← List.cons_append, List.getLast?_concat]; rfl)
      have hrows := rows_of_trimmed? (hfirst x rfl) hl hno hb
      rw [← List.cons_append, List.getLast?_concat] at htrailer
      rw [hrows, List.getLast?_concat, Option.any_some, Bool.eq_false_iff]
      intro ht
      -- the trimmed row would be a trailer, and then the whole line is one
      have := Trailer.isTrailerLine_append ht (l.reverse.takeWhile Unicode.isWhite).reverse
      rw [Text.trimEnd_append_spaces] at this
      rw [Option.any_some, this] at htrailer
      cases htrailer

/-- Every footer that is read has some line left. It has a trailer, and a trailer is not blank, so
trimming does not take all of it. -/
theorem footerOf_eq_nil_of_reads (hf : trimmed? (unlines (footerOf ls)) = none) :
    footerOf ls = [] := by
  rw [Text.trimmed?_eq_none_iff_isBlank, Text.isBlank_unlines] at hf
  cases hfooter : footerOf ls with
  | nil => rfl
  | cons l rest =>
    have hmem : l ∈ footerOf ls := by rw [hfooter]; exact List.mem_cons_self ..
    have hl := isBlank_of_mem_footerOf hmem
    rw [hfooter, List.all_cons, hl] at hf
    cases hf

end Sections

end ConventionalCommit
