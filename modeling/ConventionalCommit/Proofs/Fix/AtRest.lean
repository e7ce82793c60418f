import ConventionalCommit.Proofs.Fix.Header
import ConventionalCommit.Proofs.Fix.Subject
import ConventionalCommit.Proofs.Rule.Failures
import ConventionalCommit.Proofs.Text.Wrapping

/-!
# ConventionalCommit — messages that need no fix

All fixes together leave a draft alone only if each of them does (`AtRest`). No two
of them undo each other: what the case of the first character changes no later edit
restores, and a subject that loses its full stop stays shorter, cut or not.

* `fixDraft_all_eq_self_iff`: a draft is fixed already exactly if it is at rest;
* `check_of_suggestedFix_eq_none`: a message without a suggested fix fails none of
  the rules that a fix is made for.
-/

namespace ConventionalCommit

open Text (Tight lines)

variable {o : FixOptions} {c : Config} {d : Draft} {raw s t : Text} {width : Nat}

namespace Draft

/-- Every single fix has nothing to do. -/
structure AtRest (c : Config) (d : Draft) : Prop where
  verb : d.type = none → ∀ s ∈ d.subject, ∀ w ∈ s.words.head?, typeOfVerb? w.lowercase = none
  case : ∀ s ∈ d.subject, ∀ x ∈ s.head?, c.subjectCase.admits x = true
  stop : ∀ s ∈ d.subject, s.getLast? ≠ some '.'
  body : ∀ b ∈ d.body, Text.wrap c.maxLineLength.toNat b = b
  room : d.header.length ≤ c.maxHeaderLength.toNat ∨
    c.maxHeaderLength.toNat - d.typePrefix.length ≤ leastSubject

/-- Inferring a type changes nothing exactly if there is a type, or if no verb comes first in the
subject. -/
theorem inferredType_eq_self_iff : d.inferredType = d.type ↔
    (d.type = none → ∀ s ∈ d.subject, ∀ w ∈ s.words.head?, typeOfVerb? w.lowercase = none) := by
  rw [inferredType]
  cases d.type with
  | some t => simp
  | none => cases d.subject <;> simp

/-- Wrapping changes nothing exactly if there is no body, or if wrapping leaves the body alone. -/
theorem map_wrap_eq_self_iff {body : Option Text} :
    body.map (Text.wrap width) = body ↔ ∀ b ∈ body, Text.wrap width b = b := by
  cases body <;> simp

/-- The edits before the cut, on a draft that none of them changes. Each is looked at on the draft
itself, because the ones before it have done nothing. -/
theorem edited_all_eq (htype : d.inferredType = d.type)
    (hsubject : ∀ s ∈ d.subject,
      (∀ x ∈ s.head?, c.subjectCase.admits x = true) ∧ s.getLast? ≠ some '.')
    (hbody : d.body.map (Text.wrap c.maxLineLength.toNat) = d.body) : d.edited .all c = d := by
  have hsame : d.subject.bind (editedSubject .all c.subjectCase) = d.subject := by
    cases hs : d.subject with
    | none => rfl
    | some s =>
      obtain ⟨hcase, hstop⟩ := hsubject s hs
      show unstopped (recased c.subjectCase s) = some s
      rw [recased_eq_self_iff.mpr hcase, unstopped_of_getLast?_ne hstop]
  rw [edited_eq, hsame]
  simp only [FixOptions.all, fixedBody, if_true, hbody, htype]

/-- All fixes cut what is left of the cased subject without its full stop. -/
theorem exists_cut_of_fixDraft_all (hd : d.HeaderRead) (hs : d.subject = some s)
    (ht : (fixDraft .all c d).subject = some t) :
    ∃ u, unstopped (recased c.subjectCase s) = some u ∧ Cut u t ∧
      t.head? = (recased c.subjectCase s).head? :=
  exists_cut_of_fixDraft hd hs ht

/-- All fixes together leave a draft alone exactly if each of them does. They cannot cancel each
other, because the case changes the first character of the subject and the other two take from its
end. -/
theorem fixDraft_all_eq_self_iff (hd : d.HeaderRead) : fixDraft .all c d = d ↔ d.AtRest c := by
  constructor
  · intro h
    have htype : d.inferredType = d.type := by
      have := congrArg Draft.type h
      rwa [fixDraft_eq, withHeaderWithin_type, edited_type] at this
    have hbody : d.body.map (Text.wrap c.maxLineLength.toNat) = d.body := by
      have := congrArg Draft.body h
      rwa [fixDraft_eq, withHeaderWithin_body, edited_body] at this
    have hsubject : ∀ s ∈ d.subject,
        (∀ x ∈ s.head?, c.subjectCase.admits x = true) ∧ s.getLast? ≠ some '.' := by
      intro s hs
      have hsame := congrArg Draft.subject h
      rw [Option.mem_def.mp hs] at hsame
      obtain ⟨u, hu, hcut, hhead⟩ := exists_cut_of_fixDraft_all hd hs hsame
      have hadmits : ∀ x ∈ s.head?, c.subjectCase.admits x = true := by
        rw [hhead]
        exact admits_head_recased
      refine ⟨hadmits, fun hstop => ?_⟩
      -- the subject would have lost its full stop, and nothing makes it longer again
      rw [recased_eq_self_iff.mpr hadmits] at hu
      have hlen := hcut.length_le
      rcases of_unstopped_eq_some hu with ⟨hno, -⟩ | hsplit
      · exact hno hstop
      · rw [hsplit, List.length_append, List.length_singleton] at hlen
        omega
    rw [fixDraft_eq, edited_all_eq htype hsubject hbody] at h
    exact ⟨inferredType_eq_self_iff.mp htype, fun s hs => (hsubject s hs).1,
      fun s hs => (hsubject s hs).2, map_wrap_eq_self_iff.mp hbody,
      withHeaderWithin_eq_self_iff.mp h⟩
  · intro h
    have hrest := edited_all_eq (inferredType_eq_self_iff.mpr h.verb)
      (fun s hs => ⟨h.case s hs, h.stop s hs⟩) (map_wrap_eq_self_iff.mpr h.body)
    rw [fixDraft_eq, hrest, withHeaderWithin_eq_self_iff]
    exact h.room

end Draft

/-- No fix is suggested for a message exactly if its fields are at rest. -/
theorem suggestedFix_eq_none_iff : suggestedFix c raw = none ↔
    (Draft.ofMessage (Message.parse raw)).AtRest c := by
  rw [← Draft.fixDraft_all_eq_self_iff (Draft.headerRead_ofMessage raw), suggestedFix,
    fixMessage_eq_none_iff]

-- ---------------------------------------------------------------------------
-- The rules that fixes are made for
-- ---------------------------------------------------------------------------

/-- A text that is not blank has a first word, whatever white space is in front of it. -/
theorem Text.exists_head?_words (h : Text.isBlank s = false) : ∃ w, s.words.head? = some w := by
  obtain ⟨x, hx, hwhite⟩ := Text.isBlank_eq_false_iff.mp h
  have hmem : x ∈ s.words.flatten := by
    rw [Text.words, flatten_runs, List.mem_filter]
    exact ⟨hx, by rw [hwhite]; rfl⟩
  cases hw : s.words with
  | nil => rw [hw] at hmem; cases hmem
  | cons w rest => exact ⟨w, rfl⟩

/--
If no fix is suggested for a message, then its subject begins in the right case and does
not end in a full stop, the lines of its body fit, and no type could be inferred for it.
-/
theorem check_of_suggestedFix_eq_none (hwidth : 1 ≤ c.maxLineLength.toNat)
    (h : suggestedFix c raw = none) :
    (∀ i ∈ (Message.parse raw).check c,
      i.rule ≠ .subjectCase ∧ i.rule ≠ .subjectFullStop ∧ i.rule ≠ .bodyMaxLineLength) ∧
    ((∃ i ∈ (Message.parse raw).check c, i.rule = .typeEmpty) →
      (Message.parse raw).subject = none ∨
        ∃ s w, (Message.parse raw).subject = some s ∧ s.words.head? = some w ∧
          typeOfVerb? w.lowercase = none) := by
  -- each field of `hrest` says that one edit has nothing to do
  have hrest := suggestedFix_eq_none_iff.mp h
  have hvisible := Message.visibleSubject_parse raw
  have hcase : ¬ (Message.parse raw).Fails c .subjectCase := by
    rintro ⟨s, hs, x, hx, hadmits⟩
    rw [hvisible] at hs
    have := hrest.case s hs x hx
    rw [hadmits] at this
    cases this
  have hstop : ¬ (Message.parse raw).Fails c .subjectFullStop := by
    rintro ⟨-, s, hs, hlast⟩
    rw [hvisible] at hs
    exact hrest.stop s hs hlast
  have hlines : ¬ (Message.parse raw).Fails c .bodyMaxLineLength := by
    rintro ⟨b, hb, l, hl, hlong⟩
    have hwrap := hrest.body b (by rwa [Draft.ofMessage_body])
    rw [← hwrap] at hl
    -- the body is its own wrapping, so its lines fit
    have := Text.length_le_of_mem_lines_wrap hl
    omega
  refine ⟨fun i hi => ⟨fun hrule => ?_, fun hrule => ?_, fun hrule => ?_⟩, fun hempty => ?_⟩
  · exact hcase (Message.exists_mem_check_iff.mp ⟨i, hi, hrule⟩)
  · exact hstop (Message.exists_mem_check_iff.mp ⟨i, hi, hrule⟩)
  · exact hlines (Message.exists_mem_check_iff.mp ⟨i, hi, hrule⟩)
  · have htype : (Message.parse raw).type = none := Message.exists_mem_check_iff.mp hempty
    cases hs : (Message.parse raw).subject with
    | none => exact Or.inl rfl
    | some s =>
      -- a subject that is read is not blank, so it has a first word to look up
      have htight := ((Draft.headerRead_ofMessage raw).subject_fits s hs).1
      obtain ⟨w, hw⟩ := Text.exists_head?_words htight.isBlank_eq_false
      exact Or.inr ⟨s, w, rfl, hw, hrest.verb htype s hs w hw⟩

/-- A subject that begins with no known verb stays without a type. Nothing else is wrong with it, so
there is no fix although the type is missing. -/
theorem check_of_suggestedFix_eq_none_untyped :
    suggestedFix .default "rename it

short".toList = none ∧
      ∀ i ∈ (Message.parse "rename it

short".toList).check .default,
        i.rule ≠ .subjectCase ∧ i.rule ≠ .subjectFullStop ∧ i.rule ≠ .bodyMaxLineLength := by
  have h : suggestedFix .default "rename it

short".toList = none := by decide +kernel
  exact ⟨h, (check_of_suggestedFix_eq_none (by decide) h).1⟩

end ConventionalCommit
