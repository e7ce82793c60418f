import ConventionalCommit.Proofs.Fix.HeaderOnly
import ConventionalCommit.Proofs.Message.HeaderGrammar
import ConventionalCommit.Proofs.Rule.Failures

/-!
# ConventionalCommit — the case of a fixed subject

The fix for the case of a subject makes the first character one that the rule admits, and no later
fix touches that character. But what is written is read anew, and if the new first character makes
a header of a line that had no type, then the subject is another one, which nobody has fixed
(`BecomesHeader`). That takes a capital that is no word character although its small form is one.

* `not_fits_subject`: what a message without a type has for a subject is no header;
* `becomesHeader_of_fails`: the only way for a fixed message to fail the rule;
* `subjectCase_fixed`: when a message that was fixed, or needed no fix, passes the rule.
-/

namespace ConventionalCommit

open Unicode (isWhite isCased isWordChar toLower youngCapitals)

variable {o : FixOptions} {c : Config} {m : Message} {raw t : Text}

/-- Trimming does not make a header of a first line that begins without white space. -/
theorem not_fits_subject (hfirst : ∀ x ∈ raw.firstLine.head?, isWhite x = false)
    (htype : (Message.parse raw).type = none) :
    ∀ s ∈ (Message.parse raw).subject, ¬ Header.Fits s := by
  intro s hs hfits
  have hunfit : ¬ Header.Fits raw.firstLine := by
    rintro ⟨p, wf, htext⟩
    rw [(Message.headerFields_of_header wf htext).1] at htype
    cases htype
  rw [(Message.headerFields_of_no_header hunfit).2.2.2] at hs
  obtain ⟨back, hsplit, -⟩ := Text.exists_append_of_trimmed? hfirst hs
  exact hunfit (hfits.of_isPrefix ⟨back, hsplit.symm⟩)

/-- A fixed message fails the rule only if its first line became a header. -/
theorem becomesHeader_of_fails (hcase : o.adjustCase = true)
    (hfirst : ∀ x ∈ raw.firstLine.head?, isWhite x = false) (h : fixMessage o c raw = some t)
    (hfails : (Message.parse t).Fails c .subjectCase) :
    BecomesHeader o c (Message.parse raw) (Message.parse t).header := by
  obtain ⟨y, hy, x, hx, hadmits⟩ := hfails
  rw [Message.visibleSubject_parse] at hy
  obtain ⟨htype, hfits⟩ := fits_of_not_admits hcase h hy hx hadmits
  exact .of_fits (Draft.headerRead_ofMessage raw) (not_fits_subject hfirst) (header_fixMessage h)
    htype hfits

/-- A message that needs no fix passes the rule, because adjusting the case would have changed its
subject otherwise. -/
theorem not_fails_subjectCase_of_fixMessage_eq_none (hcase : o.adjustCase = true)
    (h : fixMessage o c raw = none) : ¬ (Message.parse raw).Fails c .subjectCase := by
  rintro ⟨s, hs, x, hx, hadmits⟩
  rw [Message.visibleSubject_parse] at hs
  have hadmitted := Draft.admits_head_fixDraft (c := c) (Draft.headerRead_ofMessage raw) hcase
  rw [fixMessage_eq_none_iff.mp h] at hadmitted
  rw [hadmitted s hs x hx] at hadmits
  cases hadmits

/-- The capitals with which a line can become a header are cased, and not word characters. -/
theorem not_becomesHeader {line : Text}
    (hword : ∀ s ∈ m.subject, ∀ x ∈ s.head?, isCased x = true → isWordChar x = true) :
    ¬ BecomesHeader o c m line := by
  intro h
  have hyoung : (youngCapitals.all fun x => isCased x && !isWordChar x) = true := by
    decide +kernel
  obtain ⟨s, hs, x, hx, hmem⟩ := h.young
  have hletter := List.all_eq_true.mp hyoung x hmem
  rw [Bool.and_eq_true, Bool.not_eq_true'] at hletter
  rw [hword s hs x hx hletter.1] at hletter
  cases hletter.2

/--
The fix for the case satisfies the rule about the case, whatever other fixes are enabled, if the
message begins without white space and its subject does not begin with a cased character that is
no word character. What such a character can do is all that can go wrong: its small form
makes a header of a first line without a type, and the rest of that line is a subject which
begins with a character that has a small form of its own.
-/
theorem subjectCase_fixed (hcase : o.adjustCase = true)
    (hfirst : ∀ x ∈ raw.firstLine.head?, isWhite x = false) :
    let m := Message.parse raw
    let m' := Message.parse ((fixMessage o c raw).getD raw)
    ((∀ s ∈ m.subject, ∀ x ∈ s.head?, isCased x = true → isWordChar x = true) →
      ∀ i ∈ m'.check c, i.rule ≠ .subjectCase) ∧
    ((∃ i ∈ m'.check c, i.rule = .subjectCase) ↔
      BecomesHeader o c m m'.header ∧ ∃ s ∈ m'.subject, ∃ x ∈ s.head?, toLower x ≠ [x]) := by
  intro m m'
  -- both parts rest on one fact: only a line that becomes a header can fail
  have hbecomes : m'.Fails c .subjectCase → BecomesHeader o c m m'.header := by
    -- no fix means that the message is looked at as it is
    cases h : fixMessage o c raw with
    | none =>
      have hkept : m' = m := by
        show Message.parse ((fixMessage o c raw).getD raw) = m
        rw [h]
        rfl
      rw [hkept]
      exact fun hfails => absurd hfails (not_fails_subjectCase_of_fixMessage_eq_none hcase h)
    | some t =>
      have hfixed : m' = Message.parse t := by
        show Message.parse ((fixMessage o c raw).getD raw) = Message.parse t
        rw [h]
        rfl
      rw [hfixed]
      exact becomesHeader_of_fails hcase hfirst h
  refine ⟨fun hword i hi hrule => ?_, ?_⟩
  · exact not_becomesHeader hword (hbecomes (Message.exists_mem_check_iff.mp ⟨i, hi, hrule⟩))
  · rw [Message.exists_mem_check_iff]
    constructor
    · intro hfails
      have hline := hbecomes hfails
      obtain ⟨s, hs, x, hx, hadmits⟩ := hfails
      rw [Message.visibleSubject_parse] at hs
      -- the failing case has to be the lower one, so it is the small form that differs
      rw [hline.lower, SubjectCase.admits, beq_eq_false_iff_ne] at hadmits
      exact ⟨hline, s, hs, x, hx, hadmits⟩
    · rintro ⟨hline, s, hs, x, hx, hne⟩
      refine ⟨s, (Message.visibleSubject_parse _).trans hs, x, hx, ?_⟩
      rw [hline.lower, SubjectCase.admits, beq_eq_false_iff_ne]
      exact hne

/-- A small letter whose capital form is two letters. The fixed subject begins with a capital
although the letter has no single one. -/
theorem subjectCase_fixed_sharp :
    let c := { Config.default with subjectCase := .sentence }
    (∀ x ∈ (Text.firstLine "\u00df it".toList).head?, isWhite x = false) ∧
      fixMessage ⟨false, true, false, false⟩ c "\u00df it".toList = some "SS it".toList ∧
      ∀ i ∈ (Message.parse "SS it".toList).check c, i.rule ≠ .subjectCase := by
  intro c
  have hline : Text.firstLine "\u00df it".toList = "\u00df it".toList := rfl
  have hsubject : (Message.parse "\u00df it".toList).subject = some "\u00df it".toList := rfl
  have hfix : fixMessage ⟨false, true, false, false⟩ c "\u00df it".toList =
      some "SS it".toList := rfl
  have hfirst : ∀ x ∈ (Text.firstLine "\u00df it".toList).head?, isWhite x = false := by
    rintro x hx
    rw [hline] at hx
    obtain rfl : '\u00df' = x := Option.some.inj hx
    rfl
  have hpass := (subjectCase_fixed (o := ⟨false, true, false, false⟩) (c := c) rfl hfirst).1
  rw [hfix] at hpass
  refine ⟨hfirst, hfix, hpass fun s hs x hx _ => ?_⟩
  rw [hsubject] at hs
  obtain rfl := Option.some.inj hs
  obtain rfl : '\u00df' = x := Option.some.inj hx
  rfl

/-- The small form of a capital that is no word character makes a header of the line. -/
example : fixMessage ⟨false, true, false, false⟩ .default "\ua7d2: X".toList =
      some "\ua7d3: X".toList ∧
    ∃ i ∈ (Message.parse "\ua7d3: X".toList).check .default, i.rule = .subjectCase := by
  decide +kernel

end ConventionalCommit
