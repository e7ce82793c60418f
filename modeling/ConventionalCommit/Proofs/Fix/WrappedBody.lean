import ConventionalCommit.Proofs.Fix.Kept
import ConventionalCommit.Proofs.Fix.SecondPass

/-!
# ConventionalCommit — the body that is read after wrapping

Wrapping makes the lines of the body fit, but the body of the fixed message is what is read
from its text. Reading looks for the footer anew, and no fix wraps a footer, so lines of it
that are body by now (`Draft.strayText`) are as long as they were. Nothing else is: whatever
is read of the wrapped body fits.

* `Draft.linesFit_body_reread_iff`: when the lines of the body that is read fit;
* `linesFit_body_fixMessage_iff`: the same for a message that is fixed.
-/

namespace ConventionalCommit

open Text (LinesFit Tight Wrapped WrappedRows trimmed? lines rows unlines dropReturn)
open Trailer (isTrailerLine)
open Sections (FooterRead footerOf beforeFooter)

variable {o : FixOptions} {c : Config} {d : Draft} {f raw t : Text} {width : Nat}

namespace Draft

/-- A wrapped body fits after it is read exactly if the stray text of the footer does. -/
theorem linesFit_body_reread_iff (hh : '\n' ∉ d.header) (hs : d.SectionsFit)
    (hbody : ∀ b ∈ d.body, WrappedRows width (lines b)) :
    (∀ x ∈ d.reread.body, LinesFit width x) ↔
      ∀ f ∈ d.footer, ∀ y ∈ strayText f, LinesFit width y := by
  have hwritten : ∀ b ∈ d.body, ∀ row ∈ rows (unlines (lines b)), row.length ≤ width := by
    intro b hb
    rw [(hs.body_tight b hb).rows_unlines_lines]
    exact (hbody b hb).fits
  cases hf : d.footer with
  | none =>
    have hwrapped : ∀ x ∈ d.reread.body, Wrapped width x :=
      (wrapped_body_reread_iff hh hs hbody).mpr fun f hmem => by
        rw [hf] at hmem
        cases hmem
    exact iff_of_true (fun x hx => LinesFit.of_rows (hwrapped x hx).fits) nofun
  | some f =>
    simp only [Option.mem_def, Option.some.injEq, forall_eq']
    -- only the third case puts the stray text under a body that was wrapped
    rcases body_reread_cases hh hs hf with ⟨-, hr⟩ | ⟨b, hb, ⟨hy, hr⟩ | ⟨y, hy, hr⟩⟩
    · rw [hr]
    · rw [hr, hy]
      refine iff_of_true (fun x hx => ?_) nofun
      rw [← Option.some.inj hx]
      exact LinesFit.of_rows (hwritten b hb)
    · have hfront : ∀ row ∈ rows (unlines (lines b)), (dropReturn row).length ≤ width :=
        fun row hrow => (Text.dropReturn_isPrefix row).length_le.trans (hwritten b hb row hrow)
      -- the empty line between them fits any width
      have hgap : LinesFit width ('\n' :: y) ↔ LinesFit width y := by
        simp [LinesFit, Text.lines_newline]
      simp only [hr, hy, Option.some.injEq, forall_eq', Text.linesFit_append_newline,
        and_iff_right hfront, hgap]

/-- Nothing is stray in a footer that is found as a whole: it begins with its first trailer, so no
line of it stands before one. -/
theorem strayText_eq_none (hf : Tight f) (hread : FooterRead f)
    (hreturns : Text.ReturnsBelow 1 f) (hlast : (rows f).getLast?.any isTrailerLine = true) :
    strayText f = none := by
  have hfooter : footerOf (lines f) = rows f := by
    rw [hf.lines_eq_rows hreturns, footerOf_rows hread hlast]
  have hbefore : beforeFooter (lines f) = [] :=
    Sections.beforeFooter_eq hfooter (hf.lines_eq_rows hreturns)
  rw [strayText, hbefore]
  rfl

end Draft

/--
After wrapping, the lines of the body that is read fit exactly if those do that come to it from
the start of the footer. So they fit if the footer is preserved.
-/
theorem linesFit_body_fixMessage_iff (hon : o.wrapBody = true)
    (hwidth : 1 ≤ c.maxLineLength.toNat) (h : fixMessage o c raw = some t) :
    ((∀ b ∈ (Message.parse t).body, LinesFit c.maxLineLength.toNat b) ↔
      ∀ f ∈ (Message.parse raw).footer, ∀ y ∈ Draft.strayText f,
        LinesFit c.maxLineLength.toNat y) ∧
    ((Message.parse t).footer = (Message.parse raw).footer →
      ∀ b ∈ (Message.parse t).body, LinesFit c.maxLineLength.toNat b) := by
  have hd := Draft.headerRead_ofMessage raw
  have hs := (Draft.sectionsRead_ofMessage raw).toSectionsFit
  have hfits := Draft.linesFit_body_reread_iff
    (Draft.not_mem_header_fixDraft (o := o) (c := c) hd) (Draft.sectionsFit_fixDraft hd hs)
    (Draft.wrappedRows_body_fixDraft hon hd hs)
  rw [← (fixMessage_eq_some h).2, (Draft.fixDraft_sections hd).2, Draft.ofMessage_body,
    Draft.ofMessage_footer, Nat.max_eq_left hwidth] at hfits
  refine ⟨hfits, fun hfooter => hfits.mpr fun f hf y hy => ?_⟩
  have hstands := (footer_fixMessage_iff h).mp hfooter
  have hread : f ∈ (Draft.ofMessage (Message.parse raw)).footer := by
    rw [Draft.ofMessage_footer]
    exact hf
  -- a footer that is preserved begins with a trailer line, so it has no stray text
  rw [Draft.strayText_eq_none (hs.footer_tight f hread) (hs.footer_read f hread)
    (hstands.solid f hf) (hstands.ends f hf)] at hy
  cases hy

/-- A footer that ends in a trailer is preserved, so the wrapped body fits. -/
theorem linesFit_body_fixMessage_trailer :
    let c := { Config.default with maxLineLength := 10 }
    let raw := "Add x

some more words

Closes: #123".toList
    ∃ t, fixMessage .all c raw = some t ∧ ∀ b ∈ (Message.parse t).body, LinesFit 10 b := by
  intro c raw
  have h : fixMessage .all c raw = some "feat: add x

some more
words

Closes: #123".toList := by decide +kernel
  exact ⟨_, h, (linesFit_body_fixMessage_iff rfl (by decide) h).2 (by decide +kernel)⟩

/-- A trailer loses its value when the footer is trimmed, and the line before it is body then. -/
theorem linesFit_body_fixMessage_stray :
    ¬ ∀ (o : FixOptions) (c : Config) (raw t : Text), o.wrapBody = true →
      1 ≤ c.maxLineLength.toNat → fixMessage o c raw = some t →
      ∀ b ∈ (Message.parse t).body, LinesFit c.maxLineLength.toNat b := by
  intro hall
  have h : fixMessage .all { Config.default with maxLineLength := 20 } "Add x

Reviewed-by: Someone With A Long Name
Refs: ".toList = some "feat: add x

Reviewed-by: Someone With A Long Name
Refs:".toList := by decide +kernel
  have hbody : (Message.parse "feat: add x

Reviewed-by: Someone With A Long Name
Refs:".toList).body = some "Reviewed-by: Someone With A Long Name
Refs:".toList := by decide +kernel
  have hlong : "Reviewed-by: Someone With A Long Name".toList ∈ lines
      "Reviewed-by: Someone With A Long Name
Refs:".toList := by decide +kernel
  exact absurd (hall _ _ _ _ rfl (by decide) h _ hbody _ hlong) (by decide +kernel)

end ConventionalCommit
