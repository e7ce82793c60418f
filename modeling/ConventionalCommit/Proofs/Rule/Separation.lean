import ConventionalCommit.Proofs.Fix.Termination
import ConventionalCommit.Proofs.Fix.Rereading
import ConventionalCommit.Proofs.Message.SectionPositions
import ConventionalCommit.Proofs.Rule.Failures

/-!
# ConventionalCommit — the blank lines of a written message

A draft is written with a blank line in front of each section. The rules about these lines look at
the sections of the written text, which may be cut at another place: a trailer that lost its value
ends no footer any more, and a body of one row that lost its indentation may be a trailer by now.
Wherever the text is cut, the footer has a blank line in front of it, or it is the whole text under
the header.

* `SectionsRead.footerApart_under`: the footer stands apart in the text under the header;
* `crowdsHeader_render`, `crowdsFooter_render`: what the two rules look for is not there;
* `render_separates`: a message that was written, fixed or not, fails neither rule.
-/

namespace ConventionalCommit

open Text (lines rows isBlank)
open Trailer (isTrailerLine)

namespace Sections

variable {ls xs ys : List Text} {l : Text}

/-- The last line before a footer is blank, if there is any. -/
def FooterApart (ls : List Text) : Prop :=
  footerOf ls ≠ [] → ∀ l ∈ (beforeFooter ls).getLast?, isBlank l = true

theorem footerApart_of_no_trailer (h : ls.getLast?.any isTrailerLine = false) : FooterApart ls :=
  fun hne => absurd (footerOf_eq_nil h) hne

/-- If all lines are the footer, no line is in front of it. -/
theorem footerApart_of_footerOf_eq_self (h : footerOf ls = ls) : FooterApart ls := by
  intro _ l hl
  rw [beforeFooter_eq h (List.nil_append ls).symm] at hl
  cases hl

theorem footerApart_singleton (l : Text) : FooterApart [l] := by
  intro hne x hx
  have hlength := congrArg List.length (beforeFooter_append_footerOf [l])
  have hpos := List.length_pos_iff.mpr hne
  rw [List.length_append, List.length_singleton] at hlength
  rw [List.length_eq_zero_iff.mp (by omega : (beforeFooter [l]).length = 0)] at hx
  cases hx

/-- A footer behind a blank line stands apart. -/
theorem footerApart_append_blank (hl : isBlank l = true) (h : footerOf ys = ys) :
    FooterApart (xs ++ l :: ys) := by
  intro _ x hx
  rw [beforeFooter_append_blank hl h, List.getLast?_concat] at hx
  rwa [← Option.some.inj hx]

end Sections

namespace Message

variable {m : Message}

/-- A footer that stands apart follows a blank line, because the body or the gap does. -/
theorem crowdsFooter_eq_false (hgap : (Sections.ofLines m.raw.lines).gap ≠ [])
    (hapart : Sections.FooterApart (Sections.core (m.raw.lines.drop 1))) :
    m.crowdsFooter = false := by
  show (!(Sections.ofLines m.raw.lines).footer.isEmpty && Option.any (fun l => !isBlank l)
    ((Sections.ofLines m.raw.lines).header ++ (Sections.ofLines m.raw.lines).gap ++
      (Sections.ofLines m.raw.lines).body).getLast?) = false
  rw [Bool.and_eq_false_iff]
  by_cases hfooter : (Sections.ofLines m.raw.lines).footer = []
  · left
    rw [hfooter]
    rfl
  · right
    rw [Option.any_eq_false]
    intro l hl
    have hblank : isBlank l = true := by
      -- the line above the footer ends the body, or the gap if there is no body
      by_cases hbody : (Sections.ofLines m.raw.lines).body = []
      · rw [hbody, List.append_nil, List.getLast?_append_of_ne_nil _ hgap] at hl
        exact Sections.isBlank_of_mem_gap (List.mem_of_getLast? hl)
      · rw [List.getLast?_append_of_ne_nil _ hbody] at hl
        exact hapart hfooter l hl
    rw [hblank]
    decide

end Message

namespace Draft

open Sections (FooterApart)

variable {d e : Draft} {T : Text} {o : FixOptions} {c : Config}

-- ---------------------------------------------------------------------------
-- The text under the header
-- ---------------------------------------------------------------------------

/-- What is read as a footer in the text under the header follows a blank line, or nothing. -/
theorem SectionsRead.footerApart_under (hs : d.SectionsRead) (hu : d.under = some T) :
    FooterApart (rows T) := by
  cases hf : d.footer with
  | none =>
    rw [under_eq_body hf] at hu
    rcases hs.body_read hf T hu with hlast | hsingle
    · exact Sections.footerApart_of_no_trailer hlast
    · rw [hsingle]
      exact Sections.footerApart_singleton T
  | some f =>
    cases hlast : (rows f).getLast?.any isTrailerLine with
    | false =>
      -- the last trailer lost its value, so the whole text is a body
      rw [← getLast?_rows_under hf hu] at hlast
      exact Sections.footerApart_of_no_trailer hlast
    | true =>
      have hstands := footerOf_rows (hs.footer_read f hf) hlast
      rw [under, hf] at hu
      cases hb : d.body with
      | none =>
        rw [hb] at hu
        obtain rfl := Option.some.inj hu
        exact Sections.footerApart_of_footerOf_eq_self hstands
      | some b =>
        rw [hb] at hu
        obtain rfl := Option.some.inj hu
        rw [rows_blank_between]
        exact Sections.footerApart_append_blank rfl hstands

/-- Only wrapping edits a section. -/
theorem sections_fixDraft (hd : d.HeaderRead) (hwrap : o.wrapBody = false) :
    (fixDraft o c d).body = d.body ∧ (fixDraft o c d).footer = d.footer := by
  have h := fixDraft_sections (o := o) (c := c) hd
  rwa [fixedBody, hwrap] at h

/-- The condition is about body and footer only, so a draft with the same ones meets it too. -/
theorem SectionsRead.of_sections (h : d.SectionsRead) (hbody : e.body = d.body)
    (hfooter : e.footer = d.footer) : e.SectionsRead := by
  refine ⟨h.toSectionsFit.of_body hfooter ?_, ?_⟩
  · rw [hbody]
    exact h.body_tight
  · rw [hbody, hfooter]
    exact h.body_read

-- ---------------------------------------------------------------------------
-- The written text
-- ---------------------------------------------------------------------------

/-- Under the header of a written draft there is a blank line, or nothing. -/
theorem crowdsHeader_render (hh : '\n' ∉ d.header) :
    (Message.parse d.render).crowdsHeader = false := by
  show (lines d.render)[1]?.any (fun l => !isBlank l) = false
  rw [render_eq]
  cases hu : d.under with
  | none =>
    rw [lines_section_none hh]
    split <;> rfl
  | some T =>
    rw [lines_section_some hh]
    rfl

/-- Without returns to take, the footer of a written draft follows a blank line. If it is found
where it was written, the line is the one that was written; otherwise there is no footer or nothing
in front of it. -/
theorem crowdsFooter_render (hh : '\n' ∉ d.header) (hs : d.SectionsRead)
    (hr : d.ReturnsBelow 1) : (Message.parse d.render).crowdsFooter = false := by
  have hlines : (Message.parse d.render).raw.lines = lines (d.header ++ sectionText d.under) := by
    rw [← render_eq]
    rfl
  cases hu : d.under with
  | none =>
    rw [hu, lines_section_none hh] at hlines
    unfold Message.crowdsFooter
    rw [hlines]
    split <;> rfl
  | some T =>
    have hT := tight_under hs.toSectionsFit hu
    have hbelow := returnsBelow_under Nat.one_pos hs.toSectionsFit hr hu
    rw [hu] at hlines
    refine Message.crowdsFooter_eq_false ?_ ?_
    · rw [hlines, lines_section_some hh]
      exact List.cons_ne_nil _ _
    · -- the lines under the header are its rows, because no return is lost
      rw [hlines, core_section_some hh hT, hT.lines_eq_rows hbelow]
      exact hs.footerApart_under hu

/-- A written draft fails neither of the two rules: one looks at the line under the header, the
other at the line above the footer. -/
theorem rule_ne_of_mem_check (hh : '\n' ∉ d.header) (hs : d.SectionsRead) (hr : d.ReturnsBelow 1)
    {i : Issue} (hi : i ∈ (Message.parse d.render).check c) :
    i.rule ≠ .bodyLeadingBlank ∧ i.rule ≠ .footerLeadingBlank := by
  constructor
  · intro hrule
    obtain ⟨-, -, hcrowds⟩ := Message.exists_mem_check_iff.mp ⟨i, hi, hrule⟩
    rw [crowdsHeader_render hh] at hcrowds
    cases hcrowds
  · intro hrule
    obtain ⟨-, -, hcrowds⟩ := Message.exists_mem_check_iff.mp ⟨i, hi, hrule⟩
    rw [crowdsFooter_render hh hs hr] at hcrowds
    cases hcrowds

end Draft

/--
A message that was written has a blank line in front of its body and of its footer, wherever
these are by now, so no settings make it fail one of the two rules. It may have been fixed
before, by any fixes but wrapping.
-/
theorem Message.render_separates (raw : Text) (h : ¬ ['\r', '\r', '\n'] <:+: raw) :
    (∀ c : Config, ∀ i ∈ (parse (parse raw).render).check c,
      i.rule ≠ .bodyLeadingBlank ∧ i.rule ≠ .footerLeadingBlank) ∧
    ∀ (o : FixOptions) (fixing : Config) (t : Text), o.wrapBody = false →
      fixMessage o fixing raw = some t → ∀ c : Config, ∀ i ∈ (parse t).check c,
        i.rule ≠ .bodyLeadingBlank ∧ i.rule ≠ .footerLeadingBlank := by
  have hd := Draft.headerRead_ofMessage raw
  have hs := Draft.sectionsRead_ofMessage raw
  have hr := Draft.returnsBelow_ofMessage Nat.one_pos h
  refine ⟨fun c i hi => ?_, fun o fixing t hwrap hfix c i hi => ?_⟩
  · exact Draft.rule_ne_of_mem_check (Draft.not_mem_header hd) hs hr hi
  · -- a fix of the header leaves the sections, so the same argument applies
    obtain ⟨hbody, hfooter⟩ := Draft.sections_fixDraft (c := fixing) hd hwrap
    rw [eq_render_of_fixMessage hfix] at hi
    refine Draft.rule_ne_of_mem_check (Draft.not_mem_header_fixDraft hd)
      (hs.of_sections hbody hfooter) (hr.of_body hfooter ?_) hi
    rw [hbody]
    exact hr.body

/-- A body and a footer directly under the header, and both of them after a fix. -/
theorem Message.render_separates_crowded :
    ¬ ['\r', '\r', '\n'] <:+: "feat: Add x.\nbody\nRefs: #1".toList ∧
      (parse "feat: Add x.\nbody\nRefs: #1".toList).crowdsHeader = true ∧
      (parse "feat: Add x.\nbody\nRefs: #1".toList).crowdsFooter = true ∧
      fixMessage ⟨true, true, true, false⟩ .default "feat: Add x.\nbody\nRefs: #1".toList =
        some "feat: add x\n\nbody\n\nRefs: #1".toList ∧
      ∀ i ∈ (parse "feat: add x\n\nbody\n\nRefs: #1".toList).check .default,
        i.rule ≠ .bodyLeadingBlank ∧ i.rule ≠ .footerLeadingBlank := by
  have hreturns : ¬ ['\r', '\r', '\n'] <:+: "feat: Add x.\nbody\nRefs: #1".toList := by
    rw [← Text.occursIn_iff]
    decide
  have hfix : fixMessage ⟨true, true, true, false⟩ .default "feat: Add x.\nbody\nRefs: #1".toList =
      some "feat: add x\n\nbody\n\nRefs: #1".toList := rfl
  exact ⟨hreturns, rfl, rfl, hfix, (render_separates _ hreturns).2 _ _ _ rfl hfix .default⟩

/-- A return that ends a trailer is lost when the message is read again, and the trailer with it. -/
example : (Message.parse
    (Message.parse "feat: x\n\nCloses:\r\r\nRefs: #1".toList).render).crowdsFooter = true := by
  decide

end ConventionalCommit
