import ConventionalCommit.Proofs.Message.RoundTrip

/-!
# ConventionalCommit — clean messages

A message is clean if no line of it begins or ends with white space. Reading a clean
message has nothing to trim, apart from blank lines: the header line is its own subject or
ends in it, and the rows of the sections are lines of the message. So everything that is
read from it shows again when it is written, which is what a canonical draft asks for.

* `Draft.readHeader_header_of_ends`: a header line without white space at its ends;
* `Sections.CleanLines.rows_eq`: the rows of a section;
* `Message.Clean.canonical`: the fields of a clean message are a canonical draft.
-/

namespace ConventionalCommit

open Text (trimmed? Tight lines rows unlines isBlank)
open Trailer (isTrailerLine)
open Unicode (isWhite)

variable {raw line t : Text} {ls : List Text} {body footer : Option Text}

/-- No line of the message begins or ends with white space. -/
structure Message.Clean (raw : Text) : Prop where
  head : ∀ l ∈ lines raw, ∀ c ∈ l.head?, isWhite c = false
  last : ∀ l ∈ lines raw, ∀ c ∈ l.getLast?, isWhite c = false

/-- Whether a message is clean can be tested line by line. This is what makes the examples below
computable. -/
theorem Message.clean_iff : Clean raw ↔ ((lines raw).all fun l =>
    l.head?.all (fun c => !isWhite c) && l.getLast?.all fun c => !isWhite c) = true := by
  simp only [List.all_eq_true, Bool.and_eq_true, Option.all_eq_true, Bool.not_eq_true']
  exact ⟨fun h l hl => ⟨h.head l hl, h.last l hl⟩,
    fun h => ⟨fun l hl => (h l hl).1, fun l hl => (h l hl).2⟩⟩

instance (raw : Text) : Decidable (Message.Clean raw) := decidable_of_iff _ Message.clean_iff.symm

-- ---------------------------------------------------------------------------
-- The header
-- ---------------------------------------------------------------------------

/-- The fields of a line without white space at its ends are read from their own header. -/
theorem Draft.readHeader_header_of_ends (hn : '\n' ∉ line)
    (hstart : ∀ c ∈ line.head?, isWhite c = false)
    (hend : ∀ c ∈ line.getLast?, isWhite c = false) :
    readHeader (readHeader line body footer).header body footer =
      readHeader line body footer := by
  cases hr : Header.read? line with
  | none =>
    by_cases hne : line = []
    · rw [hne]
      rfl
    · -- a line that is no header is its own subject
      have htight : Tight line := ⟨hne, hstart, hend⟩
      have hheader : (readHeader line body footer).header = line := by
        rw [readHeader_untyped hr, htight.trimmed?_eq]
        rfl
      rw [hheader]
  | some p =>
    -- the header may lose padding when it is written, but its fields are read as before
    obtain ⟨wf, htext⟩ := Header.read?_eq_some_iff.mp hr
    have htight : Tight p.subject := wf.tight_subject (htext ▸ hend)
    have hd := headerRead_readHeader hn body footer
    have hsubject : (readHeader line body footer).subject = some p.subject := by
      rw [readHeader_of_read? hr, htight.trimmed?_eq]
    have htype : (readHeader line body footer).type = some p.type := by
      rw [readHeader_of_read? hr]
    rw [header_of_subject hsubject, readHeader_typed hd htype htight.head, htight.trimmed?_eq,
      ← hsubject]
    rw [readHeader_of_read? hr]

-- ---------------------------------------------------------------------------
-- The sections
-- ---------------------------------------------------------------------------

namespace Sections

/-- Lines, none of which begins or ends with white space. -/
structure CleanLines (ls : List Text) : Prop where
  head : ∀ l ∈ ls, ∀ c ∈ l.head?, isWhite c = false
  last : ∀ l ∈ ls, ∀ c ∈ l.getLast?, isWhite c = false
  no_newline : ∀ l ∈ ls, '\n' ∉ l

/-- Some of the lines are clean if all are, so the sections of a clean message are. -/
theorem CleanLines.of_subset (h : CleanLines ls) {xs : List Text} (hsub : xs ⊆ ls) :
    CleanLines xs :=
  ⟨fun l hl => h.head l (hsub hl), fun l hl => h.last l (hsub hl),
    fun l hl => h.no_newline l (hsub hl)⟩

/-- Clean lines without a blank one at either end are the rows of the section that is read
from them. -/
theorem CleanLines.rows_eq (h : CleanLines ls) (hfirst : ∀ l ∈ ls.head?, isBlank l = false)
    (hlast : ∀ l ∈ ls.getLast?, isBlank l = false) (ht : trimmed? (unlines ls) = some t) :
    rows t = ls := by
  have hne : ls ≠ [] := by
    rintro rfl
    cases ht
  have hsolid : ∀ l : Text, isBlank l = false → l ≠ [] := by
    rintro l hl rfl
    cases hl
  have htight : Tight (unlines ls) := by
    refine Text.tight_unlines hne (fun l hl => ?_) fun l hl => ?_
    · exact ⟨hsolid l (hfirst l hl), h.head l (List.mem_of_mem_head? hl)⟩
    · exact ⟨hsolid l (hlast l hl), h.last l (List.mem_of_mem_getLast? hl)⟩
  rw [htight.trimmed?_eq] at ht
  rw [← Option.some.inj ht, Text.rows_unlines hne h.no_newline]

/-- A line that does not end in white space does not end in a return. -/
theorem CleanLines.returnsBelow (h : CleanLines ls) : Text.ReturnsBelow 1 (unlines ls) := by
  rcases List.eq_nil_or_concat' ls with rfl | ⟨xs, l, rfl⟩
  · intro hi
    simpa using hi.length_le
  · rw [Text.returnsBelow_iff (Text.rows_unlines (by simp) h.no_newline)]
    intro x hx hsuffix
    have hreturn := Text.getLast?_of_returns Nat.one_pos hsuffix
    have hwhite := h.last x (List.mem_append_left _ hx) '\r' hreturn
    simp at hwhite

/-- A footer that is read from clean lines begins and ends with a trailer. -/
theorem CleanLines.footer_ends (h : CleanLines ls) (hf : trimmed? (unlines (footerOf ls)) = some t) :
    (∀ row ∈ rows t, isBlank row = false) ∧ (rows t).head?.any isTrailerLine = true ∧
      (rows t).getLast?.any isTrailerLine = true := by
  have hsolid : ∀ l ∈ footerOf ls, isBlank l = false := fun _ hl => isBlank_of_mem_footerOf hl
  have hrows : rows t = footerOf ls := (h.of_subset (footerOf_suffix ls).subset).rows_eq
    (fun l hl => hsolid l (List.mem_of_mem_head? hl))
    (fun l hl => hsolid l (List.mem_of_mem_getLast? hl)) hf
  rw [hrows]
  exact ⟨hsolid, footerOf_ends (footerOf_ne_nil hf)⟩

/-- A body that no footer follows does not end in a trailer. -/
theorem CleanLines.boundary (h : CleanLines ls) (hfirst : ∀ l ∈ ls.head?, isBlank l = false)
    (hlast : ∀ l ∈ ls.getLast?, isBlank l = false) (hreads : Reads ls (some t) none) :
    (rows t).getLast?.any isTrailerLine = false := by
  have hnil := footerOf_eq_nil_of_reads hreads.2.symm
  have hbody := hreads.1
  rw [beforeFooter_eq hnil (List.append_nil ls).symm] at hbody
  rw [h.rows_eq hfirst hlast hbody.symm]
  exact footerOf_eq_nil_iff.mp hnil

end Sections

-- ---------------------------------------------------------------------------
-- The draft
-- ---------------------------------------------------------------------------

namespace Message.Clean

/-- The header line has no white space at its ends, like all lines. -/
theorem header_ends (h : Clean raw) : (∀ c ∈ (parse raw).header.head?, isWhite c = false) ∧
    ∀ c ∈ (parse raw).header.getLast?, isWhite c = false := by
  rw [header_parse]
  rcases raw.firstLine_cases with hnil | hmem
  · rw [hnil]
    exact ⟨fun _ hc => absurd hc (Option.not_mem_none _),
      fun _ hc => absurd hc (Option.not_mem_none _)⟩
  · exact ⟨h.head _ hmem, h.last _ hmem⟩

/-- What is left of the lines under the header without blank lines at the ends. -/
theorem cleanLines_core (h : Clean raw) :
    Sections.CleanLines (Sections.core ((lines raw).drop 1)) := by
  have hlines : Sections.CleanLines (lines raw) :=
    ⟨h.head, h.last, fun _ hl => Text.not_mem_of_mem_lines hl⟩
  exact hlines.of_subset (Sections.core_drop_subset (lines raw))

/-- The fields of a clean message show where they are written and nowhere else. Each condition on
the fields is a condition on the lines that they were read from. -/
theorem canonical (h : Clean raw) : (Draft.ofMessage (parse raw)).Canonical := by
  have hd := Draft.headerRead_ofMessage raw
  have hs := (Draft.sectionsRead_ofMessage raw).toSectionsFit
  have hclean := h.cleanLines_core
  have hreads := Sections.reads_core raw
  have hfirst := Sections.isBlank_head_core ((lines raw).drop 1)
  have hlast := Sections.isBlank_getLast_core ((lines raw).drop 1)
  have hheader : Draft.readHeader (Draft.ofMessage (parse raw)).header (parse raw).body
      (parse raw).footer = Draft.ofMessage (parse raw) := by
    obtain ⟨hstart, hend⟩ := h.header_ends
    rw [Draft.ofMessage_parse]
    exact Draft.readHeader_header_of_ends (Draft.not_mem_header_parse raw) hstart hend
  -- a return that is kept would be lost with the next pass
  have hbelow : (Draft.ofMessage (parse raw)).ReturnsBelow 1 := by
    rw [Draft.ofMessage_parse]
    exact Draft.returnsBelow_of_reads hreads hclean.returnsBelow
  generalize parse raw = m at *
  generalize Sections.core ((lines raw).drop 1) = ls at *
  -- header, body, footer, and the border between the two
  refine ⟨Draft.canonical_header_of_eq hd hheader, fun b hb => ?_, fun f hf => ?_, ?_⟩
  · exact ⟨hs.body_tight b hb, hbelow.body b hb⟩
  · exact ⟨hs.footer_tight f hf, hbelow.footer f hf, hclean.footer_ends (hreads.2.symm.trans hf)⟩
  · intro hnone b hb
    have hnone : m.footer = none := hnone
    have hb : m.body = some b := hb
    rw [hb, hnone] at hreads
    exact hclean.boundary hfirst hlast hreads

end Message.Clean

end ConventionalCommit
