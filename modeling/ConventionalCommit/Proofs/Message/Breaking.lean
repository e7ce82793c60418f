import ConventionalCommit.Proofs.Message.HeaderGrammar
import ConventionalCommit.Proofs.Message.SectionPositions
import ConventionalCommit.Proofs.Text.Wrapping
import Mathlib.Data.List.Sections

/-!
# ConventionalCommit — which lines announce a breaking change

A footer is searched for the words `BREAKING CHANGE:` at the start of its rows, after its lines
have been joined and trimmed. What counts for a reader is the lines of the message. The two agree:
the rows of the joined text are the lines, the first of them begins with a capital, and the words
end in a colon, so no white space that is trimmed belongs to them.

The words are compared without case, by folding one character at a time. Outside ASCII only the
kelvin sign and the long s fold to an ASCII letter, and the words have no `s`.

* `announcesBreaking_iff`: the words that a line has to begin with;
* `any_footerBreaks`: a footer announces a breaking change if one of its lines does;
* `isBreaking_parse_iff`: when a message is a breaking change, by its lines.
-/

namespace ConventionalCommit

open Unicode (isWhite)

namespace Trailer

variable {forms folded : List (List Char)} {t u line : Text} {c x : Char}

-- ---------------------------------------------------------------------------
-- Words without case
-- ---------------------------------------------------------------------------

/-- The simple case folding of a character, as far as it matters to ASCII: the characters that fold
to an ASCII letter are all here, and any other character stays as it is. -/
def foldCase (c : Char) : Char :=
  if c = '\u212a' then 'k' else if c = '\u017f' then 's' else c.toLower

/-- The words that announce a breaking change, in lower case. -/
def breakingWords : List Text := ["breaking change:".toList, "breaking-change:".toList]

/-- A line begins with words that announce a breaking change, in any case. -/
def BeginsBreaking (line : Text) : Prop := ∃ w ∈ breakingWords, w <+: line.map foldCase

/-- Lower case of ASCII, by code points. The letters are one block, so bounds and a distance say all
of it. -/
theorem toNat_toLower (c : Char) : c.toLower.toNat =
    if 65 ≤ c.toNat ∧ c.toNat ≤ 90 then c.toNat + 32 else c.toNat := by
  unfold Char.toLower
  split
  · next h =>
    have hc : 65 ≤ c.toNat ∧ c.toNat ≤ 90 := h
    have hval : c.val.toNat = c.toNat := rfl
    rw [if_pos hc]
    show (c.val + 32).toNat = _
    rw [UInt32.toNat_add]
    simp only [hval, UInt32.reduceToNat]
    omega
  · next h =>
    have hc : ¬ (65 ≤ c.toNat ∧ c.toNat ≤ 90) := h
    rw [if_neg hc]

/-- Folding by code points. The two characters outside ASCII fold to `k` and `s`. -/
theorem toNat_foldCase (c : Char) : (foldCase c).toNat =
    if c.toNat = 0x212a then 107 else if c.toNat = 0x17f then 115
    else if 65 ≤ c.toNat ∧ c.toNat ≤ 90 then c.toNat + 32 else c.toNat := by
  have hkelvin : c = '\u212a' ↔ c.toNat = 0x212a := Char.toNat_inj.symm
  have hlong : c = '\u017f' ↔ c.toNat = 0x17f := Char.toNat_inj.symm
  unfold foldCase
  simp only [hkelvin, hlong]
  split
  · rfl
  · split
    · rfl
    · exact toNat_toLower c

/-- What is not a letter folds from itself alone, so the colon and the space of an announcement are
not folded from anything else. -/
theorem foldCase_eq_iff (hx : x.toNat < 65) : foldCase c = x ↔ c = x := by
  have hfold := toNat_foldCase c
  rw [← Char.toNat_inj, ← Char.toNat_inj]
  split at hfold
  · omega
  · split at hfold
    · omega
    · split at hfold <;> omega

/-- The forms of a capital are the characters that fold alike. An `S` would have the long s as
well. -/
theorem mem_caseForms_iff (hx : isCapital x = true) (hs : x ≠ 'S') :
    c ∈ caseForms x ↔ foldCase c = x.toLower := by
  have hcapital := toNat_of_isCapital hx
  have hlower := toNat_toLower x
  have hfold := toNat_foldCase c
  have hK : x = 'K' ↔ x.toNat = 75 := Char.toNat_inj.symm
  have hS : x.toNat ≠ 83 := fun h => hs (Char.toNat_inj.mp h)
  rw [if_pos hcapital] at hlower
  -- only `K` has a third form, the kelvin sign
  have hforms : c ∈ caseForms x ↔ c.toNat = x.toNat ∨ c.toNat = x.toNat + 32 ∨
      (x.toNat = 75 ∧ c.toNat = 0x212a) := by
    unfold caseForms
    split
    · next hk =>
      subst hk
      simp [← Char.toNat_inj]
    · next hk =>
      rw [hK] at hk
      simp only [List.mem_cons, List.not_mem_nil, or_false, ← Char.toNat_inj, hlower]
      omega
  rw [hforms, ← Char.toNat_inj, hlower]
  split at hfold
  · omega
  · split at hfold
    · omega
    · split at hfold <;> omega

-- ---------------------------------------------------------------------------
-- The start of a line
-- ---------------------------------------------------------------------------

/-- A text begins with admitted characters if it begins with a choice of them, one for each
position. -/
theorem startsWithForms_iff :
    startsWithForms forms t = true ↔ ∃ w ∈ forms.sections, w <+: t := by
  induction forms generalizing t with
  | nil => simp [startsWithForms]
  | cons cs rest ih =>
    cases t with
    | nil => simp [startsWithForms, List.sections]
    | cons c t =>
      rw [startsWithForms, Bool.and_eq_true, ih, List.contains_iff_mem]
      simp only [List.sections, List.mem_flatMap, List.mem_map]
      constructor
      · rintro ⟨hc, w, hw, hpre⟩
        exact ⟨c :: w, ⟨w, hw, c, hc, rfl⟩, List.cons_prefix_cons.mpr ⟨rfl, hpre⟩⟩
      · rintro ⟨_, ⟨w, hw, x, hx, rfl⟩, hpre⟩
        obtain ⟨rfl, htail⟩ := List.cons_prefix_cons.mp hpre
        exact ⟨hx, w, hw, htail⟩

/-- Place by place, the characters on the left are all those that fold to one on the right. -/
def Folded (forms folded : List (List Char)) : Prop :=
  List.Forall₂ (fun cs xs => ∀ c, c ∈ cs ↔ foldCase c ∈ xs) forms folded

/-- The forms of capitals fold to the small letters, place by place. An `S` is left out, because the
long s folds to the same letter. -/
theorem folded_map_caseForms {w : Text} (h : w.all (fun x => isCapital x && x != 'S') = true) :
    Folded (w.map caseForms) (w.map fun x => [x.toLower]) := by
  induction w with
  | nil => exact List.Forall₂.nil
  | cons x rest ih =>
    rw [List.all_cons, Bool.and_eq_true, Bool.and_eq_true, bne_iff_ne] at h
    refine List.Forall₂.cons (fun c => ?_) (ih h.2)
    rw [mem_caseForms_iff h.1.1 h.1.2, List.mem_singleton]

/-- The admitted characters are those that fold to one of the words, at each of the places. -/
theorem folded_announcement : Folded announcement
    ("BREAKING".toList.map (fun x => [x.toLower]) ++ [[' ', '-']] ++
      "CHANGE".toList.map (fun x => [x.toLower]) ++ [[':']]) := by
  have hspace : Folded [[' ', '-']] [[' ', '-']] := by
    refine List.Forall₂.cons (fun c => ?_) List.Forall₂.nil
    simp only [List.mem_cons, List.not_mem_nil, or_false]
    rw [foldCase_eq_iff (by decide), foldCase_eq_iff (by decide)]
  have hcolon : Folded [[':']] [[':']] := by
    refine List.Forall₂.cons (fun c => ?_) List.Forall₂.nil
    rw [List.mem_singleton, List.mem_singleton, foldCase_eq_iff (by decide)]
  exact List.rel_append (List.rel_append (List.rel_append (folded_map_caseForms (by decide)) hspace)
    (folded_map_caseForms (by decide))) hcolon

/-- A line begins with admitted characters exactly if the folded line begins with folded ones. -/
theorem startsWithForms_map_foldCase (h : Folded forms folded) (line : Text) :
    startsWithForms folded (line.map foldCase) = startsWithForms forms line := by
  induction h generalizing line with
  | nil => rfl
  | @cons cs xs _ _ hc _ ih =>
    cases line with
    | nil => rfl
    | cons c rest =>
      rw [List.map_cons, startsWithForms, startsWithForms, ih, Bool.eq_iff_iff]
      simp only [Bool.and_eq_true, List.contains_iff_mem, hc]

/-- A line announces a breaking change if it begins with the words, in any case. -/
theorem announcesBreaking_iff : announcesBreaking line = true ↔ BeginsBreaking line := by
  rw [announcesBreaking, ← startsWithForms_map_foldCase folded_announcement, startsWithForms_iff]
  rfl

/-- White space is no colon in any case. -/
theorem foldCase_ne_of_isWhite (h : isWhite c = true) : foldCase c ≠ ':' := by
  rw [Ne, foldCase_eq_iff (by decide)]
  rintro rfl
  exact absurd h (by decide)

-- ---------------------------------------------------------------------------
-- White space at the end
-- ---------------------------------------------------------------------------

/-- White space at the end makes no announcement, and takes none away. So it does not matter that
the last line of a footer has been trimmed. -/
theorem announcesBreaking_append (hu : Text.isBlank u = true) (t : Text) :
    announcesBreaking (t ++ u) = announcesBreaking t := by
  rw [Bool.eq_iff_iff, announcesBreaking_iff, announcesBreaking_iff]
  constructor
  · rintro ⟨w, hw, hpre⟩
    refine ⟨w, hw, ?_⟩
    rw [List.map_append] at hpre
    rcases List.prefix_or_prefix_of_prefix hpre (List.prefix_append _ _) with h | ⟨x, rfl⟩
    · exact h
    · -- the words end in a colon, and so would the white space
      by_cases hx : x = []
      · rw [hx, List.append_nil]
      · have hcolon : ∀ w ∈ breakingWords, w.getLast? = some ':' := by decide
        have hlast := hcolon _ hw
        rw [List.getLast?_append_of_ne_nil _ hx] at hlast
        have hmem := ((List.prefix_append_right_inj _).mp hpre).subset (List.mem_of_getLast? hlast)
        obtain ⟨c, hc, hfold⟩ := List.mem_map.mp hmem
        exact absurd hfold (foldCase_ne_of_isWhite (Text.isBlank_iff.mp hu c hc))
  · rintro ⟨w, hw, hpre⟩
    refine ⟨w, hw, hpre.trans ?_⟩
    rw [List.map_append]
    exact List.prefix_append _ _

theorem announcesBreaking_of_isBlank (hu : Text.isBlank u = true) : announcesBreaking u = false :=
  announcesBreaking_append hu []

/-- White space at the end of a footer makes no announcement, though it may have newlines. -/
theorem footerBreaks_append (hu : Text.isBlank u = true) (t : Text) :
    footerBreaks (t ++ u) = footerBreaks t := by
  obtain ⟨front, a, b, back, ht, hrows, happend⟩ := Text.exists_rows_append t u
  have hblank : ∀ row ∈ Text.rows u, Text.isBlank row = true := by
    rw [← Text.unlines_rows u, Text.isBlank_unlines] at hu
    exact List.all_eq_true.mp hu
  have hb : Text.isBlank b = true := hblank b (by rw [hrows]; exact List.mem_cons_self ..)
  -- the rows that the white space adds are blank, and the one that it goes on is no different
  have hback : back.any announcesBreaking = false := by
    rw [List.any_eq_false]
    intro row hrow
    rw [announcesBreaking_of_isBlank (hblank row (by rw [hrows]; exact List.mem_cons_of_mem _ hrow))]
    decide
  rw [footerBreaks, footerBreaks, happend, ht, List.any_append, List.any_append, List.any_cons,
    List.any_cons, announcesBreaking_append hb, hback]
  rfl

end Trailer

-- ---------------------------------------------------------------------------
-- The lines of the footer
-- ---------------------------------------------------------------------------

namespace Message

open Text (lines trimmed? unlines)
open Trailer

variable {raw : Text}

theorem footer_parse (raw : Text) :
    (parse raw).footer = trimmed? (unlines (Sections.ofLines (lines raw)).footer) := rfl

/-- A footer announces a breaking change if one of its lines does. The footer is trimmed, so its
rows are those lines but for white space at the end of the last one. -/
theorem any_footerBreaks (raw : Text) : (parse raw).footer.any footerBreaks =
    (Sections.ofLines (lines raw)).footer.any announcesBreaking := by
  have hsub : ∀ l ∈ (Sections.ofLines (lines raw)).footer, l ∈ lines raw := fun l hl =>
    List.mem_of_mem_drop (Sections.footer_subset _ hl)
  have htrailer : ∀ l ∈ (Sections.ofLines (lines raw)).footer.head?, isTrailerLine l = true := by
    rw [Sections.ofLines_footer]
    intro l hl
    have hne : Sections.footerOf (Sections.core ((lines raw).drop 1)) ≠ [] :=
      List.ne_nil_of_mem (List.mem_of_mem_head? hl)
    have hhead := (Sections.footerOf_ends hne).1
    rwa [hl, Option.any_some] at hhead
  rw [footer_parse]
  generalize (Sections.ofLines (lines raw)).footer = footer at *
  cases footer with
  | nil => rfl
  | cons l rest =>
    have hfirst : isTrailerLine l = true := htrailer l rfl
    obtain ⟨c, tail, rfl, hc⟩ := isTrailerLine_head hfirst
    have hhead : ∀ d ∈ (unlines ((c :: tail) :: rest)).head?, isWhite d = false := by
      rw [Text.head?_unlines_cons (List.cons_ne_nil _ _)]
      intro d hd
      rwa [← Option.some.inj hd]
    have hrows := Text.rows_unlines (List.cons_ne_nil (c :: tail) rest) fun l hl =>
      Text.not_mem_of_mem_lines (hsub l hl)
    have hbreaks : footerBreaks (unlines ((c :: tail) :: rest)) =
        ((c :: tail) :: rest).any announcesBreaking := by rw [footerBreaks, hrows]
    cases hf : trimmed? (unlines ((c :: tail) :: rest)) with
    | none =>
      rw [Text.trimmed?_eq_none_iff_isBlank, Text.isBlank_unlines, List.all_cons,
        isBlank_eq_false hfirst] at hf
      cases hf
    | some f =>
      -- the first line begins with a capital, so trimming takes from the end alone
      obtain ⟨back, hsplit, hback⟩ := Text.exists_append_of_trimmed? hhead hf
      rw [hsplit, footerBreaks_append hback] at hbreaks
      exact hbreaks

end Message

-- ---------------------------------------------------------------------------
-- The run at the end of the lines
-- ---------------------------------------------------------------------------

namespace Sections

open Text (hasText)
open Trailer (isTrailerLine BeginsBreaking)

/-- A line announces a breaking change for the message: it stands under the header in a run of lines
with text, where a trailer is before it or the line itself is one. The run ends in a trailer, and no
line after it has text. -/
structure BreakingAt (ls : List Text) (first line last : Nat) : Prop where
  under_header : 0 < first
  first_le_line : first ≤ line
  line_le_last : line ≤ last
  run : ∀ i, first ≤ i → i ≤ last → lineAt ls hasText i = true
  after : ∀ i, last < i → lineAt ls hasText i = false
  first_trailer : lineAt ls isTrailerLine first = true
  last_trailer : lineAt ls isTrailerLine last = true
  words : ∃ l ∈ ls[line]?, BeginsBreaking l

variable {ls : List Text} {bodyStart footerStart stop first line last : Nat}

/-- A run between two trailers ends where the footer ends, and begins in the footer. -/
theorem Placed.of_breakingAt (h : Placed ls bodyStart footerStart stop)
    (hb : BreakingAt ls first line last) : footerStart ≤ first ∧ stop = last + 1 := by
  have hlength := lt_length_of_lineAt hb.first_trailer
  have hheader := hb.under_header
  have hle : first ≤ last := Nat.le_trans hb.first_le_line hb.line_le_last
  have hbody : bodyStart ≤ first :=
    h.first_text.2 ⟨by omega, Or.inl (hb.run first (Nat.le_refl _) hle)⟩
  have hlast : last + 1 ≤ stop :=
    h.last_text.2 (Or.inl ⟨last, by omega, hb.run last hle (Nat.le_refl _), rfl⟩)
  -- no line behind the run has text, so the sections stop with it
  have hstop : stop = last + 1 := by
    rcases h.last_text.1 with ⟨i, -, htext, hi⟩ | hbodyStart
    · by_contra hne
      rw [hb.after i (by omega)] at htext
      cases htext
    · omega
  refine ⟨?_, hstop⟩
  have htrailer : lineAt ls isTrailerLine (stop - 1) = true := by
    rw [hstop, Nat.add_sub_cancel]
    exact hb.last_trailer
  exact (h.footer (by omega) htrailer).2 ⟨hbody, by omega, hb.first_trailer,
    fun j hj hlt => hb.run j hj (by omega)⟩

/-- The lines of a footer stand between two trailers, its first line and the last line with text,
and there is no blank line among them. -/
theorem Placed.breakingAt (h : Placed ls bodyStart footerStart stop) (hfirst : footerStart ≤ line)
    (hlast : line < stop) (hwords : ∃ l ∈ ls[line]?, BeginsBreaking l) :
    BreakingAt ls footerStart line (stop - 1) := by
  rcases h.footerStart_cases with ⟨hlt, htrailer, hleast⟩ | hstop
  · refine
      { under_header := ?_
        first_le_line := hfirst
        line_le_last := by omega
        run := fun i hi hle => h.text_of_footer hi (by omega)
        after := fun i hi => ?_
        first_trailer := hleast.1.2.2.1
        last_trailer := htrailer
        words := hwords }
    · -- under the header
      have hheader := h.first_text.1.1
      have hbody := h.bodyStart_le_footerStart
      have hlength := h.stop_le_length
      omega
    · -- nothing follows the footer: text there would be the last line
      rw [← Bool.not_eq_true]
      intro htext
      have hbody := h.bodyStart_le_footerStart
      have hle := h.last_text.2 (Or.inl ⟨i, by omega, htext, rfl⟩)
      omega
  · omega

/-- Some line announces the change for the message exactly if a line of the footer does. The footer
begins at the first trailer of the run, and ends with it. -/
theorem exists_breakingAt_iff :
    (∃ first line last, BreakingAt ls first line last) ↔
      ∃ l ∈ (ofLines ls).footer, BeginsBreaking l := by
  have hplaced := placed_ofLines ls
  constructor
  · rintro ⟨first, line, last, hb⟩
    obtain ⟨hfooter, hstop⟩ := hplaced.of_breakingAt hb
    obtain ⟨l, hl, hwords⟩ := hb.words
    have hfirst := hb.first_le_line
    have hlast := hb.line_le_last
    exact ⟨l, mem_footer_iff.mpr ⟨line, by omega, by omega, hl⟩, hwords⟩
  · rintro ⟨l, hl, hwords⟩
    obtain ⟨i, hfirst, hlast, hi⟩ := mem_footer_iff.mp hl
    exact ⟨_, i, _, hplaced.breakingAt hfirst hlast ⟨l, hi, hwords⟩⟩

end Sections

-- ---------------------------------------------------------------------------
-- Breaking changes
-- ---------------------------------------------------------------------------

namespace Message

open Text (lines)
open Trailer (BeginsBreaking footerBreaks announcesBreaking announcesBreaking_iff)

variable {raw : Text}

/-- A message is marked exactly if its first line is a header with a mark. -/
theorem marked_parse_iff (raw : Text) : (parse raw).marked = true ↔
    ∃ p : Header, p.WellFormed ∧ p.text = raw.firstLine ∧ p.marked = true := by
  constructor
  · intro hmarked
    by_cases hfits : Header.Fits raw.firstLine
    · obtain ⟨p, wf, htext⟩ := hfits
      rw [(headerFields_of_header wf htext).2.2.1] at hmarked
      exact ⟨p, wf, htext, hmarked⟩
    · rw [(headerFields_of_no_header hfits).2.2.1] at hmarked
      cases hmarked
  · rintro ⟨p, wf, htext, hmarked⟩
    rw [(headerFields_of_header wf htext).2.2.1, hmarked]

/-- The footer announces a breaking change exactly if one of its lines begins with the words. -/
theorem any_footerBreaks_iff (raw : Text) : (parse raw).footer.any footerBreaks = true ↔
    ∃ l ∈ (Sections.ofLines (lines raw)).footer, BeginsBreaking l := by
  rw [any_footerBreaks, List.any_eq_true]
  simp only [announcesBreaking_iff]

/--
A message is a breaking change exactly if its first line is a header with a mark, or if the run of
lines with text at its end, below the header, ends in a trailer and has a line that announces the
change at or after its first trailer. So the body does not count, nor do the words inside a line.
-/
theorem isBreaking_parse_iff (raw : Text) :
    ((parse raw).isBreaking = true ↔
      (∃ p : Header, p.WellFormed ∧ p.text = raw.firstLine ∧ p.marked = true) ∨
        ∃ first line last, Sections.BreakingAt (lines raw) first line last) ∧
      ((parse raw).footer = none → (parse raw).isBreaking = (parse raw).marked) ∧
      ((∀ l ∈ (lines raw).drop 1, ¬ BeginsBreaking l) →
        (parse raw).isBreaking = (parse raw).marked) := by
  refine ⟨?_, fun hnone => ?_, fun hno => ?_⟩
  · rw [isBreaking_parse, Bool.or_eq_true, marked_parse_iff, any_footerBreaks_iff,
      Sections.exists_breakingAt_iff]
  · rw [isBreaking_parse, hnone, Option.any_none, Bool.or_false]
  · have hfooter : (parse raw).footer.any footerBreaks = false := by
      rw [← Bool.not_eq_true, any_footerBreaks_iff]
      rintro ⟨l, hl, hwords⟩
      exact hno l (Sections.footer_subset _ hl) hwords
    rw [isBreaking_parse, hfooter, Bool.or_false]

/-- The kelvin sign counts as a `K`, and a line between two trailers need not be one. -/
example : (parse "fix: a\n\nCloses: #1\nBrea\u212aing-change:b\nRefs: #2".toList).isBreaking =
    true := by
  decide +kernel

end Message

end ConventionalCommit
