import ConventionalCommit.Proofs.Fix.Rereading
import ConventionalCommit.Proofs.Fix.Subject
import ConventionalCommit.Proofs.Fix.Termination

/-!
# ConventionalCommit — the footer and the mark after a fix

No fix edits the footer or the mark, but what is fixed is written and read anew.
Reading looks for a footer in the last paragraph and for a mark in the first line,
whatever they were before. So a wrapped body may end in a line that looks like a
trailer, a footer whose last line lost its value is no footer any more, and a mark
goes with the subject.

* `footer_reread`: the footer that is found, whatever the sections are;
* `refound_eq_iff`: that is the footer as it was, exactly if it stands;
* `marked_fixMessage_iff`: when a fix keeps the mark;
* `footer_isBreaking_fixMessage_iff`: both, in terms of the message before the fix, and the
  breaking status of every fixed message, also of one with another footer.
-/

namespace ConventionalCommit

open Text (Tight trimmed? lines rows unlines dropReturn)
open Trailer (isTrailerLine footerBreaks)
open Sections (footerOf FooterRead)

variable {o : FixOptions} {c : Config} {d : Draft} {T f raw t line : Text}
  {body footer : Option Text}

-- ---------------------------------------------------------------------------
-- The footer
-- ---------------------------------------------------------------------------

/-- The footer is found as it is: it ends in a trailer and loses no return, or there is
none and nothing at the end of the body looks like one. -/
structure FooterStands (body footer : Option Text) : Prop where
  solid : ∀ f ∈ footer, Text.ReturnsBelow 1 f
  ends : ∀ f ∈ footer, (rows f).getLast?.any isTrailerLine = true
  alone : footer = none → ∀ b ∈ body, (rows b).getLast?.any isTrailerLine = false

/-- The footer that is found once the sections are written: what still looks like one in the
footer, or without one at the end of the body. -/
def refound (body footer : Option Text) : Option Text :=
  (footer.or body).bind fun t => trimmed? (unlines (footerOf (lines t)))

namespace Draft

/-- The text of a footer is found as a whole if it ends in a trailer and loses no return. -/
theorem trimmed?_footerOf_lines_iff (hf : Tight f) (hread : FooterRead f) :
    trimmed? (unlines (footerOf (lines f))) = some f ↔
      Text.ReturnsBelow 1 f ∧ (rows f).getLast?.any isTrailerLine = true := by
  constructor
  · intro h
    have hreads : Sections.Reads (lines f) (trimmed? (unlines (Sections.beforeFooter (lines f))))
        (trimmed? (unlines (footerOf (lines f)))) := ⟨rfl, rfl⟩
    have hpart : f <:+: unlines (lines f) := hreads.isInfix_footer h
    have hbelow := Text.returnsBelow_one_of_isInfix hpart
    rw [hf.lines_eq_rows hbelow] at h
    exact ⟨hbelow, stands_of_reads hf ⟨rfl, h.symm⟩ f rfl⟩
  · rintro ⟨hbelow, hlast⟩
    rw [hf.lines_eq_rows hbelow, footerOf_rows hread hlast, Text.unlines_rows, hf.trimmed?_eq]

/-- A body ends in what looks like a footer exactly if its last row is a trailer. -/
theorem trimmed?_footerOf_lines_eq_none_iff {b : Text} (hb : Tight b) :
    trimmed? (unlines (footerOf (lines b))) = none ↔
      (rows b).getLast?.any isTrailerLine = false := by
  obtain ⟨front, last, hrows, -, -, hlines⟩ := hb.lines_eq
  have hlast : (lines b).getLast? = (rows b).getLast? := by
    rw [hrows, hlines, List.getLast?_concat, List.getLast?_concat]
  rw [← hlast, ← Sections.footerOf_eq_nil_iff]
  refine ⟨Sections.footerOf_eq_nil_of_reads, fun h => ?_⟩
  rw [h]
  rfl

/-- Reading looks for a footer in the last section that was written, because a blank line is in
front of it and a footer does not reach over a blank line. -/
theorem footer_reread (hh : '\n' ∉ d.header) (hs : d.SectionsFit) :
    d.reread.footer = refound d.body d.footer := by
  have hreread : ∀ T, d.under = some T →
      d.reread.footer = trimmed? (unlines (footerOf (lines T))) := fun T hu => by
    rw [reread_of_under_some hh hu (tight_under hs hu) ⟨rfl, rfl⟩, readHeader_footer]
  cases hf : d.footer with
  | some f =>
    -- the lines above the footer are none of it
    obtain ⟨T, hu⟩ := exists_under_of_footer hf
    rw [hreread T hu, footerOf_lines_under hf hu]
    rfl
  | none =>
    cases hb : d.body with
    | none =>
      rw [reread_of_under_none hh (under_eq_none_iff.mpr ⟨hb, hf⟩), readHeader_footer]
      rfl
    | some b =>
      rw [hreread b ((under_eq_body hf).trans hb)]
      rfl

/-- The footer is found as it was exactly if it stands. If there was none, the body is searched for
one, and it must not end in a trailer. -/
theorem refound_eq_iff {body footer : Option Text}
    (hbody : ∀ b ∈ body, Tight b) (hfooter : ∀ f ∈ footer, Tight f ∧ FooterRead f) :
    refound body footer = footer ↔ FooterStands body footer := by
  cases footer with
  -- a footer is looked for in itself: it stands on its first line and ends in its last trailer
  | some f =>
    obtain ⟨hf, hread⟩ := hfooter f rfl
    show trimmed? (unlines (footerOf (lines f))) = some f ↔ _
    rw [trimmed?_footerOf_lines_iff hf hread]
    constructor
    · rintro ⟨hbelow, hlast⟩
      exact ⟨fun g hg => Option.some.inj hg ▸ hbelow, fun g hg => Option.some.inj hg ▸ hlast,
        fun h => absurd h (Option.some_ne_none f)⟩
    · exact fun h => ⟨h.solid f rfl, h.ends f rfl⟩
  | none =>
    have hno : ∀ P : Text → Prop, ∀ f ∈ (none : Option Text), P f := fun _ _ h =>
      absurd h (Option.not_mem_none _)
    cases body with
    | none => exact iff_of_true rfl ⟨hno _, hno _, fun _ => hno _⟩
    | some b =>
      -- a body alone is looked through as well, and must not have a footer
      show trimmed? (unlines (footerOf (lines b))) = none ↔ _
      rw [trimmed?_footerOf_lines_eq_none_iff (hbody b rfl)]
      constructor
      · exact fun h => ⟨hno _, hno _, fun _ g hg => Option.some.inj hg ▸ h⟩
      · exact fun h => h.alone rfl b rfl

-- ---------------------------------------------------------------------------
-- The mark
-- ---------------------------------------------------------------------------

/-- The mark goes with the subject, and it comes with a header that had no type. -/
theorem marked_readHeader_iff (hd : d.HeaderFit)
    (hline : line = d.header ∨ line = dropReturn d.header) (body footer : Option Text) :
    (readHeader line body footer).marked = d.marked ↔
      (d.marked = true → d.subject ≠ none) ∧
        (d.type = none → ∀ p : Header, p.WellFormed → p.text = line → p.marked = false) := by
  rcases hd.readAs hline body footer with ⟨hnone, rfl, hr⟩ | ⟨v, y, hv, -, hunfit, hr⟩ |
    ⟨p, htype, wf, htext, hr⟩
  · -- nothing is written, so the mark is lost if there was one
    have hno : ∀ p : Header, p.text ≠ [] := fun p => by simp [Header.text]
    rw [hr]
    constructor
    · intro hmarked
      exact ⟨fun h => absurd (hmarked.trans h) Bool.false_ne_true,
        fun _ p _ htext => absurd htext (hno p)⟩
    · intro h
      cases hmarked : d.marked with
      | false => rfl
      | true => exact absurd hnone (h.1 hmarked)
  · -- the line is no header, and the mark is the written one
    rw [hr, hv]
    exact iff_of_true rfl ⟨fun _ => Option.some_ne_none v,
      fun htype p wf htext => absurd ⟨p, wf, htext⟩ (hunfit htype)⟩
  · -- the line is a header: its mark is new, since an untyped draft has none
    have hunmarked : d.marked = false := (hd.fields.untyped htype).2
    rw [hr, hunmarked]
    constructor
    · refine fun hmarked => ⟨fun h => absurd h Bool.false_ne_true, fun _ q hq hqtext => ?_⟩
      rw [hq.eq_of_text_eq wf (hqtext.trans htext.symm)]
      exact hmarked
    · exact fun h => h.2 htype p wf htext

end Draft

/-- A fix that makes `line` the first line neither loses nor brings a mark: a marked
message keeps its subject, and a message without a type does not get a marked header. -/
structure MarkStands (o : FixOptions) (m : Message) (line : Text) : Prop where
  kept : m.marked = true →
    m.subject ≠ none ∧ (o.stripFullStop = true → m.subject ≠ some ['.'])
  unmarked : m.type = none →
    ∀ p : Header, p.WellFormed → p.text = line → p.marked = false

/-- A fix keeps the mark exactly if it neither loses nor brings one. It is lost with the subject,
since no header is written then, and it comes with a line that becomes a header. -/
theorem marked_fixMessage_iff (h : fixMessage o c raw = some t) :
    (Message.parse t).marked = (Message.parse raw).marked ↔
      MarkStands o (Message.parse raw) (Message.parse t).header := by
  have hd := Draft.headerRead_ofMessage raw
  have hfit := Draft.headerFit_fixDraft (o := o) (c := c) hd
  have hsubject := Draft.fixDraft_subject_eq_none_iff (o := o) (c := c) hd
  have hline := header_fixMessage h
  have hmarked : (fixDraft o c (Draft.ofMessage (Message.parse raw))).marked =
      (Message.parse raw).marked := Draft.fixDraft_marked
  have huntyped : (fixDraft o c (Draft.ofMessage (Message.parse raw))).type = none →
      (Message.parse raw).type = none := Draft.type_eq_none_of_fixDraft
  have hread : (Message.parse t).marked = (Draft.readHeader (Message.parse t).header
      (Message.parse t).body (Message.parse t).footer).marked := by
    rw [← Draft.ofMessage_parse]
    rfl
  have hiff := Draft.marked_readHeader_iff hfit hline (Message.parse t).body
    (Message.parse t).footer
  rw [← hread, hmarked] at hiff
  generalize fixDraft o c (Draft.ofMessage (Message.parse raw)) = e at *
  constructor
  · intro hsame
    refine ⟨fun hmark => ?_, fun hnone p hp htext => ?_⟩
    · have hkept := (hiff.mp hsame).1 hmark
      rw [ne_eq, hsubject, not_or, not_and] at hkept
      exact hkept
    · -- a message without a type has no mark
      have hunmarked : (Message.parse raw).marked = false := (hd.untyped hnone).2
      rw [Draft.readHeader, Header.read?_eq_some_iff.mpr ⟨hp, htext⟩] at hread
      rw [← hunmarked, ← hsame, hread]
  · intro hstands
    refine hiff.mpr ⟨fun hmark => ?_, fun hnone => hstands.unmarked (huntyped hnone)⟩
    rw [ne_eq, hsubject, not_or, not_and]
    exact hstands.kept hmark

-- ---------------------------------------------------------------------------
-- Both at once
-- ---------------------------------------------------------------------------

/-- The footer after a fix is the one that is found in the sections after the fix. -/
theorem footer_fixMessage (h : fixMessage o c raw = some t) :
    (Message.parse t).footer =
      refound (Draft.fixedBody o c (Message.parse raw).body) (Message.parse raw).footer := by
  have hd := Draft.headerRead_ofMessage raw
  have hs := (Draft.sectionsRead_ofMessage raw).toSectionsFit
  have hsections := Draft.fixDraft_sections (o := o) (c := c) hd
  have hfooter := Draft.footer_reread (Draft.not_mem_header_fixDraft (o := o) (c := c) hd)
    (Draft.sectionsFit_fixDraft hd hs)
  rw [← (fixMessage_eq_some h).2, hsections.1, hsections.2] at hfooter
  simpa only [Draft.ofMessage_footer, Draft.ofMessage_body] using hfooter

/-- A fix keeps the footer exactly if the footer stands under the fixed body. The edits of the
header play no part in it. -/
theorem footer_fixMessage_iff (h : fixMessage o c raw = some t) :
    (Message.parse t).footer = (Message.parse raw).footer ↔
      FooterStands (Draft.fixedBody o c (Message.parse raw).body) (Message.parse raw).footer := by
  have hd := Draft.headerRead_ofMessage raw
  have hs := (Draft.sectionsRead_ofMessage raw).toSectionsFit
  obtain ⟨hbody, -⟩ := Draft.fixDraft_sections (o := o) (c := c) hd
  have hfixed := (Draft.sectionsFit_fixDraft (o := o) (c := c) hd hs).body_tight
  have htight := hs.footer_tight
  have hread := hs.footer_read
  rw [hbody, Draft.ofMessage_body] at hfixed
  rw [Draft.ofMessage_footer] at htight hread
  rw [footer_fixMessage h]
  exact Draft.refound_eq_iff hfixed fun f hf => ⟨htight f hf, hread f hf⟩

/-- A fixed message is marked if it was and the mark stands, or if it was not and the mark does
not stand: then the first line brings one. -/
theorem marked_fixMessage (h : fixMessage o c raw = some t) :
    (Message.parse t).marked = true ↔
      ((Message.parse raw).marked = true ↔
        MarkStands o (Message.parse raw) (Message.parse t).header) := by
  rw [← marked_fixMessage_iff h]
  cases (Message.parse t).marked <;> cases (Message.parse raw).marked <;> decide

/--
A fix preserves the footer exactly if it stands: it has no return before a newline and ends in
a trailer, or there is none and the body after the fix does not end in a trailer. If the
footer is preserved, then so is the breaking status, exactly if the footer announces a breaking
change or the mark stands. In any case the fixed message is breaking exactly if the footer that
is found in its sections announces a breaking change, or if there is a mark: one that stands, or
one that the first line brings.
-/
theorem footer_isBreaking_fixMessage_iff (h : fixMessage o c raw = some t) :
    ((Message.parse t).footer = (Message.parse raw).footer ↔
      FooterStands (Draft.fixedBody o c (Message.parse raw).body) (Message.parse raw).footer) ∧
    ((Message.parse t).footer = (Message.parse raw).footer →
      ((Message.parse t).isBreaking = (Message.parse raw).isBreaking ↔
        (Message.parse raw).footer.any footerBreaks = true ∨
          MarkStands o (Message.parse raw) (Message.parse t).header)) ∧
    ((Message.parse t).isBreaking = true ↔
      (refound (Draft.fixedBody o c (Message.parse raw).body)
        (Message.parse raw).footer).any footerBreaks = true ∨
      ((Message.parse raw).marked = true ↔
        MarkStands o (Message.parse raw) (Message.parse t).header)) := by
  refine ⟨footer_fixMessage_iff h, fun hfooter => ?_, ?_⟩
  · rw [← marked_fixMessage_iff h, Message.isBreaking_parse, Message.isBreaking_parse, hfooter]
    -- a footer that announces the change decides alone, otherwise the mark does
    cases (Message.parse raw).footer.any footerBreaks <;> simp
  · rw [← marked_fixMessage h, ← footer_fixMessage h, Message.isBreaking_parse, Bool.or_eq_true,
      or_comm]

/-- A footer that announces a breaking change stays, and so does the announcement. -/
theorem footer_isBreaking_fixMessage_announced :
    let raw := "Drop v1.

BREAKING CHANGE: use v2".toList
    ∃ t, fixMessage .all .default raw = some t ∧
      (Message.parse t).footer = (Message.parse raw).footer ∧
      (Message.parse t).isBreaking = (Message.parse raw).isBreaking := by
  intro raw
  have h : fixMessage .all .default raw = some "drop v1

BREAKING CHANGE: use v2".toList := by decide +kernel
  have hfooter : (Message.parse raw).footer = some "BREAKING CHANGE: use v2".toList := by
    decide +kernel
  have hstands : FooterStands (Draft.fixedBody .all .default (Message.parse raw).body)
      (Message.parse raw).footer := by
    rw [hfooter]
    refine ⟨fun f hf hreturn => ?_, fun f hf => ?_, fun hnone => by cases hnone⟩
    · rw [← Option.some.inj hf] at hreturn
      revert hreturn
      decide +kernel
    · rw [← Option.some.inj hf]
      decide +kernel
  obtain ⟨hkeeps, hbreaks, -⟩ := footer_isBreaking_fixMessage_iff h
  have hsame := hkeeps.mpr hstands
  exact ⟨_, h, hsame, (hbreaks hsame).mpr (Or.inl (by rw [hfooter]; decide +kernel))⟩

/-- A line that a wrapped body ends in may look like a trailer. -/
theorem footer_isBreaking_fixMessage_wrapped :
    ¬ ∀ (o : FixOptions) (c : Config) (raw t : Text), fixMessage o c raw = some t →
      (Message.parse t).footer = (Message.parse raw).footer ∧
        (Message.parse t).isBreaking = (Message.parse raw).isBreaking := by
  intro hall
  have h : fixMessage .all { Config.default with maxLineLength := 18 }
      "fix: a

long words BREAKING CHANGE: b".toList = some "fix: a

long words
BREAKING CHANGE: b".toList := by decide +kernel
  have hbefore : (Message.parse "fix: a

long words BREAKING CHANGE: b".toList).footer = none := by decide +kernel
  have hafter : (Message.parse "fix: a

long words
BREAKING CHANGE: b".toList).footer = some "BREAKING CHANGE: b".toList := by decide +kernel
  have hsame := (hall _ _ _ _ h).1
  rw [hbefore, hafter] at hsame
  cases hsame

end ConventionalCommit
