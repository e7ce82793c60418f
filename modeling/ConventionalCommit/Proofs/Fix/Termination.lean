import ConventionalCommit.Proofs.Fix.Header
import ConventionalCommit.Proofs.Text.Wrapping

/-!
# ConventionalCommit — fixing comes to an end

Fixing the text that fixing has made, and so on, ends with a text that needs no
fix. The measure has the rank of the header first. If a pass edits no header
field, it wraps a body that was not in wrapped form, and then the defects of the
sections become fewer (`defects_reread`): the next body is in wrapped form, or a
footer that no longer stood as one has joined it.

The argument about the sections needs that no return stands before a newline.
Each pass takes such a return from each line, so they are gone after some passes.

* `fix_wellFounded`: no sequence of passes goes on forever;
* `runFix_stops`: a run of passes stops, and no pass gives its own text.
-/

namespace ConventionalCommit

open Text (Tight rows trimmed? Wrapped)
open Trailer (isTrailerLine)

variable {o : FixOptions} {c : Config} {d e : Draft} {b T raw fixed line : Text}
  {body footer : Option Text} {k width : Nat}

namespace Draft

-- ---------------------------------------------------------------------------
-- Defects of the sections
-- ---------------------------------------------------------------------------

/-- A body that is not in wrapped form is one defect, and a footer that does not end in
a trailer is two. -/
def defects (width : Nat) (d : Draft) : Nat :=
  (if d.body.map (Text.wrap width) = d.body then 0 else 1) +
    if d.footer.all fun f => (rows f).getLast?.any isTrailerLine then 0 else 2

/-- What is read from text in wrapped form has no defects. A part of such text is in that form as
well, and a footer that is found in a tight text ends in a trailer. -/
theorem defects_of_reads_wrapped (hT : Tight T) (hw : Wrapped (max width 1) T)
    (hr : Text.ReturnsBelow 1 T) (hreads : Sections.Reads (rows T) body footer) :
    defects width (readHeader line body footer) = 0 := by
  have hbody : body.map (Text.wrap width) = body := by
    cases hb : body with
    | none => rfl
    | some b =>
      have hpart := hreads.isInfix_body hb
      rw [Text.unlines_rows] at hpart
      have htight := Tight.of_trimmed? (hreads.1.symm.trans hb)
      rw [Option.map_some, (hw.of_isInfix hpart).wrap_eq htight (hr.of_isInfix hpart)]
  have hfooter : (footer.all fun f => (rows f).getLast?.any isTrailerLine) = true := by
    rw [Option.all_eq_true]
    exact stands_of_reads hT hreads
  rw [defects, readHeader_body, readHeader_footer, if_pos hbody, if_pos hfooter]

/-- Wrapping a body that needs it leaves fewer defects to the next draft. Either the sections stay
apart and the body has lost its defect, or all the text becomes the body and the two defects of the
footer are gone. -/
theorem defects_reread (hd : d.HeaderRead) (hs : d.SectionsRead) (hr : d.ReturnsBelow 1)
    (hb : d.body = some b) (hne : Text.wrap width b ≠ b) :
    defects width ({ d with body := some (Text.wrap width b) } : Draft).reread <
      defects width d := by
  have hbt := hs.body_tight b hb
  have hwrapped := Text.wrapped_wrap width b
  have hwt := hbt.wrap width
  have hwr : Text.ReturnsBelow 1 (Text.wrap width b) :=
    Text.returnsBelow_wrap Nat.one_pos ((hr.body b hb).mono (by omega))
  have hsome : ¬ d.body.map (Text.wrap width) = d.body := by
    rw [hb, Option.map_some, Option.some.injEq]
    exact hne
  have hbefore : defects width d =
      1 + if d.footer.all fun f => (rows f).getLast?.any isTrailerLine then 0 else 2 := by
    rw [defects, if_neg hsome]
  generalize he : ({ d with body := some (Text.wrap width b) } : Draft) = e
  have hbody : e.body = some (Text.wrap width b) := by rw [← he]
  have hfooter : e.footer = d.footer := by rw [← he]
  have hheader : '\n' ∉ e.header := by
    rw [← he]
    show '\n' ∉ d.header
    exact not_mem_header hd
  have hfit : e.SectionsFit := by
    refine hs.toSectionsFit.of_body hfooter fun x hx => ?_
    rw [hbody] at hx
    rwa [← Option.some.inj hx]
  have hbelow : e.ReturnsBelow 1 := by
    refine hr.of_body hfooter fun x hx => ?_
    rw [hbody] at hx
    rwa [← Option.some.inj hx]
  obtain ⟨T, hu⟩ := exists_under_of_body hbody
  have hT := tight_under hfit hu
  have hTr := returnsBelow_under Nat.one_pos hfit hbelow hu
  rcases Option.eq_none_or_eq_some d.footer with hf | ⟨f, hf⟩
  · -- the wrapped body may be cut, but every part of it is in wrapped form
    rw [hf] at hfooter hbefore
    rw [under_eq_body hfooter, hbody] at hu
    obtain rfl := Option.some.inj hu
    have hu' := (under_eq_body hfooter).trans hbody
    rw [reread_of_reads hheader hfit hbelow hu' ⟨rfl, rfl⟩,
      defects_of_reads_wrapped hT hwrapped hTr ⟨rfl, rfl⟩, hbefore]
    omega
  · rw [hf] at hfooter hbefore
    rw [Option.all_some] at hbefore
    cases hlast : (rows f).getLast?.any isTrailerLine with
    | true =>
      -- the footer stands, so the sections are read as they are
      have hstands := footerOf_rows (hs.footer_read f hf) hlast
      have hreads := reads_of_stands hfit hfooter hstands hu
      have hagain := hwrapped.wrap_eq hwt hwr
      rw [reread_of_reads hheader hfit hbelow hu hreads, defects, readHeader_body,
        readHeader_footer, hbody, hfooter, Option.map_some, hagain, Option.all_some, hlast,
        hbefore, hlast]
      simp
    | false =>
      -- the whole text becomes the body
      have hno : (rows T).getLast?.any isTrailerLine = false := by
        rw [getLast?_rows_under hfooter hu]
        exact hlast
      have hreads := reads_of_no_trailer hT hno
      rw [reread_of_reads hheader hfit hbelow hu hreads, defects, readHeader_body,
        readHeader_footer, hbefore, hlast]
      split <;> simp

-- ---------------------------------------------------------------------------
-- A pass over the sections
-- ---------------------------------------------------------------------------

/-- The fixes wrap the body, if that is enabled, and leave the footer alone. -/
theorem fixDraft_sections (hd : d.HeaderRead) :
    (fixDraft o c d).body = fixedBody o c d.body ∧ (fixDraft o c d).footer = d.footer := by
  rcases Option.eq_none_or_eq_some d.subject with hs | ⟨s, hs⟩
  · rw [fixDraft_of_subject_none hs]
    exact ⟨rfl, rfl⟩
  · have h := fixDraft_of_subject (o := o) (c := c) hs (hd.subject_fits s hs).1
    exact ⟨h.body, h.footer⟩

theorem not_mem_header_fixDraft (hd : d.HeaderRead) : '\n' ∉ (fixDraft o c d).header :=
  (headerFit_fixDraft hd).not_mem_header

theorem of_mem_fixedBody (hb : b ∈ fixedBody o c body) :
    b ∈ body ∨ ∃ x ∈ body, b = Text.wrap c.maxLineLength.toNat x := by
  rw [fixedBody] at hb
  split at hb
  · obtain ⟨x, hx, rfl⟩ := Option.map_eq_some_iff.mp hb
    exact Or.inr ⟨x, hx, rfl⟩
  · exact Or.inl hb

/-- Wrapping keeps a body tight, so the sections of a fixed draft can be written and read. -/
theorem sectionsFit_fixDraft (hd : d.HeaderRead) (hs : d.SectionsFit) :
    (fixDraft o c d).SectionsFit := by
  obtain ⟨hbody, hfooter⟩ := fixDraft_sections (o := o) (c := c) hd
  refine hs.of_body hfooter fun b hb => ?_
  rw [hbody] at hb
  rcases of_mem_fixedBody hb with hb | ⟨x, hx, rfl⟩
  · exact hs.body_tight b hb
  · exact (hs.body_tight x hx).wrap _

/-- The bound on the returns holds after a fix as before it. Wrapping is the only edit of a section,
and it brings no returns. -/
theorem returnsBelow_fixDraft (hk : 0 < k) (hd : d.HeaderRead) (h : d.ReturnsBelow (k + 1)) :
    (fixDraft o c d).ReturnsBelow (k + 1) := by
  obtain ⟨hbody, hfooter⟩ := fixDraft_sections (o := o) (c := c) hd
  refine h.of_body hfooter fun b hb => ?_
  rw [hbody] at hb
  rcases of_mem_fixedBody hb with hb | ⟨x, hx, rfl⟩
  · exact h.body b hb
  · exact (Text.returnsBelow_wrap hk (h.body x hx)).mono (by omega)

-- ---------------------------------------------------------------------------
-- The measure
-- ---------------------------------------------------------------------------

/-- The rank of the header, and then the defects of the sections. -/
def fixMeasure (o : FixOptions) (c : Config) (d : Draft) : (ℕ ×ₗ ℕ ×ₗ ℕ) ×ₗ ℕ :=
  toLex (headerRank o c d, defects c.maxLineLength.toNat d)

/-- A pass that edits something lowers the measure. If the rank of the header stays as it was, the
pass has edited the body alone, and that takes a defect away. -/
theorem fixMeasure_reread (hd : d.HeaderRead) (hs : d.SectionsRead) (hr : d.ReturnsBelow 1)
    (hne : fixDraft o c d ≠ d) : fixMeasure o c (fixDraft o c d).reread < fixMeasure o c d := by
  obtain ⟨line, body, footer, hline, hreread⟩ :=
    exists_reread_eq (not_mem_header_fixDraft (o := o) (c := c) hd)
      (sectionsFit_fixDraft hd hs.toSectionsFit)
  rw [fixMeasure, fixMeasure, Prod.Lex.toLex_lt_toLex, hreread]
  rcases headerRank_step hd body footer hline with hlt | ⟨heq, hfix⟩
  · exact Or.inl hlt
  · refine Or.inr ⟨heq, ?_⟩
    rw [← hreread, hfix]
    rw [hfix] at hne
    have hbody : fixedBody o c d.body ≠ d.body := fun h => hne (by rw [h])
    -- the rank is the same, so the pass has edited the body, and that can only be by wrapping it
    obtain ⟨hon, b, hb, hwrap⟩ : o.wrapBody = true ∧
        ∃ b, d.body = some b ∧ Text.wrap c.maxLineLength.toNat b ≠ b := by
      rw [fixedBody] at hbody
      split at hbody
      · next hon =>
        cases hb : d.body with
        | none =>
          rw [hb] at hbody
          exact absurd rfl hbody
        | some b =>
          rw [hb, Option.map_some, ne_eq, Option.some.injEq] at hbody
          exact ⟨hon, b, rfl, hbody⟩
      · exact absurd rfl hbody
    rw [fixedBody, if_pos hon, hb, Option.map_some]
    exact defects_reread hd hs hr hb hwrap

end Draft

-- ---------------------------------------------------------------------------
-- Runs of passes
-- ---------------------------------------------------------------------------

/-- The text after `n` passes, unless a pass before that had nothing to fix. -/
def runFix (fix : Text → Option Text) : Nat → Text → Option Text
  | 0, raw => some raw
  | n + 1, raw => (fix raw).bind (runFix fix n)

/-- A pass that gives a text has changed the draft, and the text is read as the fixed draft is read
again. From here on the passes are a relation between drafts. -/
theorem fixMessage_eq_some (h : fixMessage o c raw = some fixed) :
    fixDraft o c (Draft.ofMessage (Message.parse raw)) ≠ Draft.ofMessage (Message.parse raw) ∧
      Draft.ofMessage (Message.parse fixed) =
        (fixDraft o c (Draft.ofMessage (Message.parse raw))).reread := by
  rw [fixMessage] at h
  generalize Draft.ofMessage (Message.parse raw) = d at h ⊢
  split at h
  · cases h
  · next hne =>
    rw [← Option.some.inj h]
    exact ⟨hne, rfl⟩

/-- A pass takes a return from before each newline under the header, if there are any. -/
theorem returnsBelow_fixMessage (hk : 0 < k) (h : fixMessage o c raw = some fixed)
    (hr : (Draft.ofMessage (Message.parse raw)).ReturnsBelow (k + 1)) :
    (Draft.ofMessage (Message.parse fixed)).ReturnsBelow k := by
  have hd := Draft.headerRead_ofMessage raw
  have hs := (Draft.sectionsRead_ofMessage raw).toSectionsFit
  rw [(fixMessage_eq_some h).2]
  exact Draft.returnsBelow_reread hk (Draft.sectionsFit_fixDraft hd hs)
    (Draft.not_mem_header_fixDraft hd) (Draft.returnsBelow_fixDraft hk hd hr)

/-- Without returns before newlines the measure falls until there is nothing to fix. -/
theorem acc_of_returnsBelow_one (hr : (Draft.ofMessage (Message.parse raw)).ReturnsBelow 1) :
    Acc (fun fixed raw => fixMessage o c raw = some fixed) raw := by
  induction hm : Draft.fixMeasure o c (Draft.ofMessage (Message.parse raw)) using
    WellFoundedLT.induction generalizing raw with
  | _ m ih =>
    refine Acc.intro raw fun fixed hfixed => ?_
    have hstep := fixMessage_eq_some hfixed
    refine ih _ ?_ (returnsBelow_fixMessage Nat.one_pos hfixed (hr.mono (by omega))) rfl
    rw [← hm, hstep.2]
    exact Draft.fixMeasure_reread (Draft.headerRead_ofMessage raw)
      (Draft.sectionsRead_ofMessage raw) hr hstep.1

/-- No sequence of passes goes on forever. First the returns before newlines are used up, and from
then on the measure falls. -/
theorem fix_wellFounded (o : FixOptions) (c : Config) :
    WellFounded fun fixed raw => fixMessage o c raw = some fixed := by
  refine ⟨fun raw => ?_⟩
  obtain ⟨k, hk⟩ := Draft.exists_returnsBelow (Draft.ofMessage (Message.parse raw))
  induction k generalizing raw with
  | zero => exact acc_of_returnsBelow_one hk
  | succ k ih =>
    refine Acc.intro raw fun fixed hfixed => ?_
    exact ih fixed (returnsBelow_fixMessage (Nat.succ_pos k) hfixed hk)

/-- A run along a relation without infinite sequences stops, by induction along the relation. It is
stated for any fix, so that it applies to each choice of options. -/
theorem exists_runFix_eq_none {fix : Text → Option Text}
    (hwf : WellFounded fun fixed raw => fix raw = some fixed) (raw : Text) :
    ∃ n, runFix fix n raw = none := by
  induction raw using hwf.induction with
  | _ raw ih =>
    cases h : fix raw with
    | none => exact ⟨1, by rw [runFix, h, Option.bind_none]⟩
    | some fixed =>
      obtain ⟨n, hn⟩ := ih fixed h
      exact ⟨n + 1, by rw [runFix, h, Option.bind_some, hn]⟩

/--
A run of passes stops, whatever fixes are enabled and whatever the limits are, and so
does a run of suggested fixes. No pass gives the text that it was given.
-/
theorem runFix_stops (o : FixOptions) (c : Config) (raw : Text) :
    (∃ n, runFix (fixMessage o c) n raw = none) ∧
      (∃ n, runFix (suggestedFix c) n raw = none) ∧
        fixMessage o c raw ≠ some raw := by
  refine ⟨exists_runFix_eq_none (fix_wellFounded o c) raw,
    exists_runFix_eq_none (fix_wellFounded .all c) raw, fun h => ?_⟩
  exact (fix_wellFounded o c).asymmetric _ _ h h

end ConventionalCommit
