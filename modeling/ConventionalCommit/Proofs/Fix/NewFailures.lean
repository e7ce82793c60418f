import ConventionalCommit.Proofs.Fix.AtRest
import ConventionalCommit.Proofs.Fix.Rereading
import ConventionalCommit.Proofs.Rule.Acceptance
import ConventionalCommit.Proofs.Text.Sigma

/-!
# ConventionalCommit — rules that fail only after a fix

A suggested fix is made for some rules, and it can break others. `Draft.MayFail` says
exactly when it does:

* a header that is cut gets an ellipsis, which ends in a full stop and may complete a
  blocked word;
* a header that gets longer, as one does that gets a type, may have too little room left for
  a subject that is cut;
* a subject that is only a full stop goes and leaves no header;
* a first line that was no header may read as one once it is trimmed or edited, and then
  its type and its subject are checked for the first time;
* a capital at the start of a subject may have another lower case than the letter before.

What a fixed message is read as falls into three cases (`Draft.FixedInto`), and each rule is
decided case by case. Only the rule about blocked words needs more, because it looks at the
whole subject: its lower case is followed back through trimming, the full stop, the cut and
the capital to the subject before the fix.

* `fixedInto_suggestedFix`: the three cases;
* `isInfix_subject_suggestedFix`: what was in the subject already and what the cut brings;
* `errors_suggestedFix`: a rule that did not fail before fails after a fix exactly in the
  cases of `MayFail`.
-/

namespace ConventionalCommit

open Unicode (isWhite)
open Text (Tight trimmed? isBlank startsCased)

variable {c : Config} {d : Draft} {m : Message} {raw t line s u v w y front back : Text}
  {p : Header} {P : Header → Prop} {r : Rule}

namespace Draft

-- ---------------------------------------------------------------------------
-- What a fix may break
-- ---------------------------------------------------------------------------

/-- The edited draft has no type, but its first line is a header of some kind. -/
def Retyped (d : Draft) (line : Text) (P : Header → Prop) : Prop :=
  d.inferredType = none ∧ ∃ p : Header, p.WellFormed ∧ p.text = line ∧ P p

/-- The subject does not outlive the fixes. -/
def Bare (d : Draft) : Prop := d.subject = none ∨ d.subject = some ['.']

/-- The header is cut, and the word has a character that a cut can bring into the lower case
of a subject: a full stop, or a sigma that was inside a word and ends one by now. -/
def CutCompletes (c : Config) (d : Draft) (w : Text) : Prop :=
  d.Shortened c ∧ ∃ x ∈ w.lowercase, x = '.' ∨ x = 'ς'

/-- What makes a rule fail for the message `m` that a fix is read as, although it did not fail
before. -/
def MayFail (c : Config) (d : Draft) (m : Message) : Rule → Prop
  | .typeEmpty => d.Bare
  | .scopeEmpty => c.requireScope = true ∧ d.Bare
  | .subjectEmpty => c.subjectEmptyForbidden = true ∧
      (d.subject = some ['.'] ∨ d.Retyped m.header fun p => p.subject = [])
  | .typeEnum => d.Retyped m.header fun p => p.type ∉ c.types
  | .subjectCase => d.Retyped m.header fun p =>
      ∃ x ∈ p.subject.head?, c.subjectCase.admits x = false
  | .subjectFullStop => c.subjectFullStopForbidden = true ∧ d.Shortened c
  | .blockedWords => ∃ y ∈ m.subject, ∃ w ∈ c.blockedWords, blocks y w = true ∧
      (d.CutCompletes c w ∨
        c.subjectCase = .sentence ∧ ∃ s ∈ d.subject, blocks (recased .sentence s) w = true)
  | .headerMaxLength => c.maxHeaderLength.toNat < m.header.length ∧
      c.maxHeaderLength.toNat ≤ (d.edited .all c).typePrefix.length + leastSubject
  | .bodyLeadingBlank | .bodyMaxLineLength | .footerLeadingBlank => False

/-- No line is read as two headers, so what is asked of one is asked of the one that is read. -/
theorem retyped_iff (hnone : d.inferredType = none) (wf : p.WellFormed) (htext : p.text = line) :
    d.Retyped line P ↔ P p := by
  constructor
  · rintro ⟨-, q, hq, hqtext, hP⟩
    rwa [wf.eq_of_text_eq hq (htext.trans hqtext.symm)]
  · exact fun hP => ⟨hnone, p, wf, htext, hP⟩

theorem not_retyped (h : d.inferredType = none → ¬ Header.Fits line) : ¬ d.Retyped line P := by
  rintro ⟨hnone, p, wf, htext, -⟩
  exact h hnone ⟨p, wf, htext⟩

theorem not_retyped_nil : ¬ d.Retyped [] P := by
  rintro ⟨-, p, -, htext, -⟩
  simp [Header.text] at htext

-- ---------------------------------------------------------------------------
-- What a fixed message is read as
-- ---------------------------------------------------------------------------

/-- The message `m` is what a draft is read as after all fixes. -/
inductive FixedInto (c : Config) (d : Draft) (m : Message) : Prop where
  /-- Without a subject no header is written, so no other field of it is read either. -/
  | bare (bare : d.Bare) (header : m.header = []) (type : m.type = none) (scope : m.scope = none)
      (subject : m.subject = none)
  /-- The fields of the fixed draft are read back, apart from white space after the subject. -/
  | kept (v y : Text) (sound : ¬ d.Bare) (fixed : (fixDraft .all c d).subject = some v)
      (trimmed : trimmed? v = some y) (unfit : d.inferredType = none → ¬ Header.Fits m.header)
      (type : m.type = d.inferredType) (scope : m.scope = d.scope) (subject : m.subject = some y)
  /-- The first line had no type, but it is a header by now. -/
  | retyped (p : Header) (sound : ¬ d.Bare) (untyped : d.inferredType = none)
      (wellFormed : p.WellFormed) (text : p.text = m.header) (type : m.type = some p.type)
      (subject : m.subject = trimmed? p.subject)

/-- With all edits enabled the type is the one that can be inferred. -/
theorem fixDraft_all_type : (fixDraft .all c d).type = d.inferredType := fixDraft_type

/-- A subject is gone after all fixes exactly if there was none or only a full stop. -/
theorem fixDraft_all_subject_eq_none_iff (hd : d.HeaderRead) :
    (fixDraft .all c d).subject = none ↔ d.Bare := by
  rw [fixDraft_subject_eq_none_iff hd, Bare]
  simp [FixOptions.all]

/-- A header is cut exactly if it is too long and leaves enough room for a subject. -/
theorem shortened_iff : d.Shortened c ↔
    c.maxHeaderLength.toNat < (d.edited .all c).header.length ∧
      leastSubject < c.maxHeaderLength.toNat - (d.edited .all c).typePrefix.length := by
  rw [Shortened, ne_eq, fixDraft_eq, withHeaderWithin_eq_self_iff]
  omega

/-- A type that is inferred is one that a verb announces, unless it was there before. -/
theorem inferredType_cases (h : d.inferredType = some t) :
    d.type = some t ∨ ∃ g ∈ verbGroups, g.1 = t := by
  rw [inferredType] at h
  cases htype : d.type with
  | some type =>
    rw [htype] at h
    exact Or.inl h
  | none =>
    rw [htype, Option.none_or] at h
    obtain ⟨w, -, hw⟩ := Option.bind_eq_some_iff.mp h
    obtain ⟨g, hg, rfl⟩ := Option.map_eq_some_iff.mp hw
    exact Or.inr ⟨g, List.mem_of_find?_eq_some hg, rfl⟩

/-- A subject after all fixes: in its case and without a full stop, and then cut or not. -/
theorem exists_of_fixDraft_all_subject (hv : (fixDraft .all c d).subject = some v) :
    ∃ s u, d.subject = some s ∧ unstopped (recased c.subjectCase s) = some u ∧
      (¬ d.Shortened c ∧ v = u ∨ d.Shortened c ∧ ∃ n, v = u.take n ++ ellipsis) := by
  have hedited : ∀ {u}, (d.edited .all c).subject = some u →
      ∃ s, d.subject = some s ∧ unstopped (recased c.subjectCase s) = some u := fun hu => by
    rw [edited_subject] at hu
    exact Option.bind_eq_some_iff.mp hu
  rw [fixDraft_eq] at hv
  rcases withHeaderWithin_cases c.maxHeaderLength.toNat (d.edited .all c) with
    ⟨hsame, -⟩ | ⟨u, hu, hlong, hroom, hcut⟩
  · -- not cut
    rw [hsame] at hv
    obtain ⟨s, hs, hunstopped⟩ := hedited hv
    exact ⟨s, v, hs, hunstopped, Or.inl ⟨not_not.mpr hsame, rfl⟩⟩
  · -- cut
    rw [hcut] at hv
    obtain ⟨s, hs, hunstopped⟩ := hedited hu
    exact ⟨s, u, hs, hunstopped,
      Or.inr ⟨shortened_iff.mpr ⟨hlong, hroom⟩, _, (Option.some.inj hv).symm⟩⟩

-- ---------------------------------------------------------------------------
-- The lower case of a subject
-- ---------------------------------------------------------------------------

/-- The first character of a subject does not count for its lower case. -/
theorem lowercase_recased_lower (s : Text) : (recased .lower s).lowercase = s.lowercase := by
  cases s with
  | nil => rfl
  | cons first rest =>
    rw [recased]
    split
    · rfl
    · exact Text.lowercase_toLower_append first rest

/-- Unless a capital is asked for, the new first character has the same lower case as the old one.
-/
theorem lowercase_recased (h : c.subjectCase ≠ .sentence) (s : Text) :
    (recased c.subjectCase s).lowercase = s.lowercase := by
  cases hcase : c.subjectCase with
  | lower => exact lowercase_recased_lower s
  | sentence => exact absurd hcase h
  | any => rw [recased_eq_self_iff.mpr fun _ _ => rfl]

/-- White space ends every search for a letter, so a part of a subject between white space has
the lower case that it has in the subject. -/
theorem lowercase_isInfix_between (hfront : ∀ x ∈ front.getLast?, isWhite x = true)
    (hback : isBlank back = true) : y.lowercase <:+: (front ++ y ++ back).lowercase := by
  have hbefore : startsCased front.reverse = false := by
    rcases List.eq_nil_or_concat' front with rfl | ⟨xs, x, rfl⟩
    · rfl
    · rw [List.reverse_append, List.reverse_singleton, List.singleton_append]
      exact Text.startsCased_of_isWhite (hfront x List.getLast?_concat) _
  have hafter : startsCased back = false := by
    cases back with
    | nil => rfl
    | cons x xs =>
      exact Text.startsCased_of_isWhite (Text.isBlank_iff.mp hback x (List.mem_cons_self ..)) _
  exact Text.lowercase_isInfix hbefore hafter

/-- A full stop is no letter, so a subject that loses one keeps the lower case of the rest. -/
theorem lowercase_isInfix_of_unstopped (h : unstopped s = some u) :
    u.lowercase <:+: s.lowercase := by
  rcases of_unstopped_eq_some h with ⟨-, rfl⟩ | rfl
  · exact List.infix_rfl
  · have hstop : startsCased ['.'] = false := by decide +kernel
    exact (Text.lowercaseAfter_isPrefix hstop [] u).isInfix

/-- A part of the lower case of a subject that is cut was there before, or the cut completes
it. -/
theorem isInfix_lowercase_of_ellipsis {n : Nat}
    (h : w <:+: Text.lowercase (u.take n ++ ellipsis)) :
    w <:+: u.lowercase ∨ ∃ x ∈ w, x = '.' ∨ x = 'ς' := by
  rw [or_iff_not_imp_right]
  intro hno
  have hfound : w <:+: Text.lowercase (u.take n ++ u.drop n) := by
    refine Text.isInfix_lowercase_of_cut (by decide +kernel) h
      (fun hmem => hno ⟨_, hmem, Or.inr rfl⟩) fun ch hch hmem => ?_
    have hstop : Text.lowercaseAfter (u.take n).reverse ellipsis = ellipsis := rfl
    rw [hstop] at hch
    exact hno ⟨ch, hmem, Or.inl (by simpa [ellipsis] using hch)⟩
  rwa [List.take_append_drop] at hfound

end Draft

-- ---------------------------------------------------------------------------
-- What is read after a fix
-- ---------------------------------------------------------------------------

section

variable (h : suggestedFix c raw = some t)
include h

/-- There are no other cases: nothing is written, or what is written is read as the fixed fields, or
the line is a header although it was written without a type. -/
theorem fixedInto_suggestedFix :
    (Draft.ofMessage (Message.parse raw)).FixedInto c (Message.parse t) := by
  have hbare := Draft.fixDraft_all_subject_eq_none_iff (c := c) (Draft.headerRead_ofMessage raw)
  have hfields : ∀ {e : Draft}, Draft.ofMessage (Message.parse t) = e →
      (Message.parse t).type = e.type ∧ (Message.parse t).scope = e.scope ∧
        (Message.parse t).subject = e.subject := by
    rintro e rfl
    exact ⟨rfl, rfl, rfl⟩
  rcases readAs_fixMessage h with ⟨hnone, hline, hr⟩ | ⟨v, y, hv, htrim, hunfit, hr⟩ |
    ⟨p, hnone, wf, htext, hr⟩
  · obtain ⟨htype, hscope, hsubject⟩ := hfields hr
    exact .bare (hbare.mp hnone) hline htype hscope hsubject
  · obtain ⟨htype, hscope, hsubject⟩ := hfields hr
    rw [Draft.fixDraft_all_type] at htype hunfit
    rw [Draft.fixDraft_scope] at hscope
    refine .kept v y (fun hno => ?_) hv htrim hunfit htype hscope hsubject
    rw [hbare.mpr hno] at hv
    cases hv
  · obtain ⟨htype, -, hsubject⟩ := hfields hr
    rw [Draft.fixDraft_all_type] at hnone
    refine .retyped p (fun hno => ?_) hnone wf htext htype hsubject
    -- without a subject the line is empty, and no header is
    have hline := header_fixMessage h
    rw [Draft.header_of_subject_none (hbare.mpr hno)] at hline
    rw [hline.elim id id] at htext
    simp [Header.text] at htext

/-- The ellipsis of a header that is cut is read as the end of a subject. -/
theorem exists_subject_of_shortened
    (hcut : (Draft.ofMessage (Message.parse raw)).Shortened c) :
    ∃ y, (Message.parse t).subject = some y ∧ y.getLast? = some '.' := by
  have hd := Draft.headerRead_ofMessage raw
  have hstop : isWhite '.' = false := by decide +kernel
  have hlast : ∀ v, (fixDraft .all c (Draft.ofMessage (Message.parse raw))).subject = some v →
      v.getLast? = some '.' := by
    intro v hv
    obtain ⟨s, u, -, -, ⟨hno, -⟩ | ⟨-, n, rfl⟩⟩ := Draft.exists_of_fixDraft_all_subject hv
    · exact absurd hcut hno
    · exact List.getLast?_append_of_ne_nil _ (List.cons_ne_nil _ _)
  cases fixedInto_suggestedFix h with
  | bare hbare =>
    -- a header that is too long has a subject
    have hlong := (Draft.shortened_iff.mp hcut).1
    have hnone := (Draft.fixDraft_all_subject_eq_none_iff (c := c) hd).mpr hbare
    rw [Draft.fixDraft_eq, Draft.withHeaderWithin_subject_eq_none_iff] at hnone
    rw [Draft.header_of_subject_none hnone] at hlong
    exact absurd hlong (Nat.not_lt_zero _)
  | kept v y _ hv htrim _ _ _ hy =>
    refine ⟨y, hy, ?_⟩
    obtain ⟨-, hhead, -⟩ := (Draft.headerFit_fixDraft (o := .all) (c := c) hd).subject v hv
    obtain ⟨back, rfl, hback⟩ := Text.exists_append_of_trimmed? hhead htrim
    have hend := hlast _ hv
    by_cases hnil : back = []
    · rwa [hnil, List.append_nil] at hend
    · rw [List.getLast?_append_of_ne_nil _ hnil] at hend
      have hwhite := Text.isBlank_iff.mp hback _ (List.mem_of_getLast? hend)
      rw [hstop] at hwhite
      cases hwhite
  | retyped p hsound hnone wf htext _ hy =>
    obtain ⟨v, hv⟩ := Option.ne_none_iff_exists'.mp
      (mt (Draft.fixDraft_all_subject_eq_none_iff (c := c) hd).mp hsound)
    have hne : v ≠ [] := ((Draft.headerFit_fixDraft (o := .all) (c := c) hd).subject v hv).1
    have hheader : (fixDraft .all c (Draft.ofMessage (Message.parse raw))).header.getLast? =
        some '.' := by
      rw [Draft.header_of_subject hv, List.getLast?_append_of_ne_nil _ hne]
      exact hlast v hv
    -- the line has no return to lose, so it ends in the ellipsis as well
    have hline : p.text.getLast? = some '.' := by
      rw [htext]
      rcases header_fixMessage h with hline | hline
      · rw [hline, hheader]
      · rw [hline, Text.dropReturn_eq_self (by rw [hheader]; decide), hheader]
    have hend : ∀ x ∈ p.text.getLast?, isWhite x = false := by
      intro x hx
      rw [hline] at hx
      rw [← Option.some.inj hx, hstop]
    have htight := wf.tight_subject hend
    refine ⟨p.subject, by rw [hy, htight.trimmed?_eq], ?_⟩
    rwa [← p.opening_append_subject, List.getLast?_append_of_ne_nil _ htight.ne_nil] at hline

/-- The subject that is read after a fix stands between white space in the one that was written,
and that is the cased subject without a full stop, cut or not. -/
theorem exists_subject_suggestedFix (hy : (Message.parse t).subject = some y) :
    ∃ s u v front back, (Message.parse raw).subject = some s ∧ Tight s ∧
      Draft.unstopped (Draft.recased c.subjectCase s) = some u ∧
      (¬ (Draft.ofMessage (Message.parse raw)).Shortened c ∧ v = u ∨
        (Draft.ofMessage (Message.parse raw)).Shortened c ∧
          ∃ n, v = u.take n ++ Draft.ellipsis) ∧
      v = front ++ y ++ back ∧ (∀ x ∈ front.getLast?, isWhite x = true) ∧ isBlank back = true := by
  have hd := Draft.headerRead_ofMessage raw
  have hfit := Draft.headerFit_fixDraft (o := .all) (c := c) hd
  have hread : (Draft.ofMessage (Message.parse t)).subject = some y := hy
  rw [Draft.ofMessage_parse t] at hread
  -- a subject that is read was written, so the fix did not lose it
  obtain ⟨v, hv⟩ : ∃ v, (fixDraft .all c (Draft.ofMessage (Message.parse raw))).subject = some v := by
    rw [← Option.ne_none_iff_exists', ne_eq, Draft.fixDraft_all_subject_eq_none_iff hd]
    cases fixedInto_suggestedFix h with
    | bare _ _ _ _ hsubject =>
      rw [hsubject] at hy
      cases hy
    | kept _ _ hsound => exact hsound
    | retyped _ hsound => exact hsound
  obtain ⟨front, back, hsplit, hfront, hback⟩ :=
    hfit.exists_subject_eq hv (header_fixMessage h) hread
  obtain ⟨s, u, hs, hu, hcut⟩ := Draft.exists_of_fixDraft_all_subject hv
  exact ⟨s, u, v, front, back, hs, (hd.subject_fits s hs).1, hu, hcut, hsplit, hfront, hback⟩

/-- What the lower case of the subject holds after a fix: what the cased one holds, or a part that
the cut completes. -/
theorem isInfix_subject_suggestedFix (hy : (Message.parse t).subject = some y)
    (hw : w <:+: y.lowercase) :
    ∃ s, (Message.parse raw).subject = some s ∧
      (w <:+: (Draft.recased c.subjectCase s).lowercase ∨
        (Draft.ofMessage (Message.parse raw)).Shortened c ∧ ∃ x ∈ w, x = '.' ∨ x = 'ς') := by
  obtain ⟨s, u, v, front, back, hs, -, hu, hcut, hsplit, hfront, hback⟩ :=
    exists_subject_suggestedFix h hy
  have hpart := hw.trans (Draft.lowercase_isInfix_between hfront hback)
  have hcased := Draft.lowercase_isInfix_of_unstopped hu
  rw [← hsplit] at hpart
  refine ⟨s, hs, ?_⟩
  rcases hcut with ⟨-, rfl⟩ | ⟨hcut, n, rfl⟩
  · exact Or.inl (hpart.trans hcased)
  · rcases Draft.isInfix_lowercase_of_ellipsis hpart with hfound | hbrought
    · exact Or.inl (hfound.trans hcased)
    · exact Or.inr ⟨hcut, hbrought⟩

/-- A subject that is not cut ends in a full stop after a fix only if it did before. -/
theorem getLast?_subject_of_not_shortened
    (hcut : ¬ (Draft.ofMessage (Message.parse raw)).Shortened c)
    (hy : (Message.parse t).subject = some y) (hlast : y.getLast? = some '.') :
    ∃ s, (Message.parse raw).subject = some s ∧ s.getLast? = some '.' := by
  obtain ⟨s, u, v, front, back, hs, htight, hu, ⟨-, rfl⟩ | ⟨hno, -⟩, hsplit, -, hback⟩ :=
    exists_subject_suggestedFix h hy
  · refine ⟨s, hs, ?_⟩
    by_contra hno
    -- without a full stop to strip the subject is tight, so the one that is read ends it
    have hcased : (Draft.recased c.subjectCase s).getLast? ≠ some '.' := fun hstop =>
      hno (Draft.getLast?_recased hstop)
    rw [Draft.unstopped_of_getLast?_ne hcased] at hu
    obtain rfl := Option.some.inj hu
    have htight := Draft.Tight.recased htight c.subjectCase
    have hne : y ≠ [] := fun hnil => by rw [hnil] at hlast; cases hlast
    have hnil : back = [] := by
      by_contra hnil
      have hend := List.getLast?_eq_some_getLast hnil
      have hwhite := Text.isBlank_iff.mp hback _ (List.getLast_mem hnil)
      rw [htight.last _ (by rw [hsplit, List.getLast?_append_of_ne_nil _ hnil, hend]; rfl)]
        at hwhite
      cases hwhite
    rw [hsplit, hnil, List.append_nil, List.getLast?_append_of_ne_nil _ hne] at hcased
    exact hcased hlast
  · exact absurd hno hcut

-- ---------------------------------------------------------------------------
-- One rule at a time
-- ---------------------------------------------------------------------------

/-- A fix takes a type only by taking the whole header. That happens where the subject is dropped,
since no header is written without one. -/
theorem typeEmpty_suggestedFix_iff (hbefore : ¬ (Message.parse raw).Fails c .typeEmpty) :
    (Message.parse t).Fails c .typeEmpty ↔
      (Draft.ofMessage (Message.parse raw)).MayFail c (Message.parse t) .typeEmpty := by
  show (Message.parse t).type = none ↔ (Draft.ofMessage (Message.parse raw)).Bare
  cases fixedInto_suggestedFix h with
  | bare hbare _ htype => exact iff_of_true htype hbare
  | kept _ _ hsound _ _ _ htype =>
    refine iff_of_false (fun hnone => hbefore ?_) hsound
    exact Draft.type_eq_none_of_inferredType (htype.symm.trans hnone)
  | retyped _ _ hnone => exact absurd (Draft.type_eq_none_of_inferredType hnone) hbefore

/-- A type that comes of a verb is allowed, so a type that is not allowed is one that the line is
read with for the first time. -/
theorem typeEnum_suggestedFix_iff (htypes : ∀ g ∈ verbGroups, g.1 ∈ c.types)
    (hbefore : ¬ (Message.parse raw).Fails c .typeEnum) :
    (Message.parse t).Fails c .typeEnum ↔
      (Draft.ofMessage (Message.parse raw)).MayFail c (Message.parse t) .typeEnum := by
  show (∃ type ∈ (Message.parse t).type, type ∉ c.types) ↔
    (Draft.ofMessage (Message.parse raw)).Retyped (Message.parse t).header fun p => p.type ∉ c.types
  cases fixedInto_suggestedFix h with
  | bare _ hline htype =>
    rw [htype, hline]
    exact iff_of_false (by simp) Draft.not_retyped_nil
  | kept _ _ _ _ _ hunfit htype =>
    rw [htype]
    refine iff_of_false ?_ (Draft.not_retyped hunfit)
    rintro ⟨type, hsome, hunknown⟩
    -- the type was there before, or it is the one of a verb
    rcases Draft.inferredType_cases hsome with hsame | ⟨g, hg, rfl⟩
    · exact hbefore ⟨type, hsame, hunknown⟩
    · exact hunknown (htypes g hg)
  | retyped p _ hnone wf htext htype =>
    rw [Draft.retyped_iff hnone wf htext, htype]
    simp

/-- A scope is lost only with the header, and a line without a type had none before. -/
theorem scopeEmpty_suggestedFix_iff (hbefore : ¬ (Message.parse raw).Fails c .scopeEmpty) :
    (Message.parse t).Fails c .scopeEmpty ↔
      (Draft.ofMessage (Message.parse raw)).MayFail c (Message.parse t) .scopeEmpty := by
  show c.requireScope = true ∧ (Message.parse t).scope = none ↔
    c.requireScope = true ∧ (Draft.ofMessage (Message.parse raw)).Bare
  refine and_congr_right fun hrequired => ?_
  cases fixedInto_suggestedFix h with
  | bare hbare _ _ hscope => exact iff_of_true hscope hbare
  | kept _ _ hsound _ _ _ _ hscope =>
    refine iff_of_false (fun hnone => hbefore ⟨hrequired, ?_⟩) hsound
    exact hscope.symm.trans hnone
  | retyped _ _ hnone =>
    -- without a type there was no scope, so the rule failed before
    have htype := Draft.type_eq_none_of_inferredType hnone
    exact absurd ⟨hrequired, ((Draft.headerRead_ofMessage raw).untyped htype).1⟩ hbefore

/-- A subject is lost if it was a full stop, or if the line ends after the gap of the header that it
has become. -/
theorem subjectEmpty_suggestedFix_iff (hbefore : ¬ (Message.parse raw).Fails c .subjectEmpty) :
    (Message.parse t).Fails c .subjectEmpty ↔
      (Draft.ofMessage (Message.parse raw)).MayFail c (Message.parse t) .subjectEmpty := by
  show c.subjectEmptyForbidden = true ∧ (Message.parse t).visibleSubject = none ↔
    c.subjectEmptyForbidden = true ∧ ((Message.parse raw).subject = some ['.'] ∨
      (Draft.ofMessage (Message.parse raw)).Retyped (Message.parse t).header
        fun p => p.subject = [])
  refine and_congr_right fun hforbidden => ?_
  rw [Message.visibleSubject_parse]
  cases fixedInto_suggestedFix h with
  | bare hbare _ _ _ hsubject =>
    refine iff_of_true hsubject (Or.inl (hbare.resolve_left fun hnone => hbefore ⟨hforbidden, ?_⟩))
    exact (Message.visibleSubject_parse raw).trans hnone
  | kept _ _ hsound _ _ hunfit _ _ hsubject =>
    rw [hsubject]
    refine iff_of_false (Option.some_ne_none _) ?_
    rintro (hstop | hretyped)
    · exact hsound (Or.inr hstop)
    · exact Draft.not_retyped hunfit hretyped
  | retyped p hsound hnone wf htext _ hsubject =>
    have hstop : (Message.parse raw).subject ≠ some ['.'] := fun hstop => hsound (Or.inr hstop)
    rw [Draft.retyped_iff hnone wf htext, or_iff_right hstop, hsubject]
    -- what follows the gap may be nothing, and then the subject is lost
    rcases wf.trimmed?_subject_cases with ⟨hnil, hread⟩ | ⟨hne, y, hread, -⟩
    · exact iff_of_true hread hnil
    · exact iff_of_false (by rw [hread]; exact Option.some_ne_none y) hne

/-- The case is wrong after a fix only where the fix did not know the subject, because the line was
no header then. It makes no difference here whether the rule failed before. -/
theorem subjectCase_suggestedFix_iff :
    (Message.parse t).Fails c .subjectCase ↔
      (Draft.ofMessage (Message.parse raw)).MayFail c (Message.parse t) .subjectCase := by
  show (∃ y ∈ (Message.parse t).visibleSubject, ∃ x ∈ y.head?, c.subjectCase.admits x = false) ↔
    (Draft.ofMessage (Message.parse raw)).Retyped (Message.parse t).header
      fun p => ∃ x ∈ p.subject.head?, c.subjectCase.admits x = false
  rw [Message.visibleSubject_parse]
  cases fixedInto_suggestedFix h with
  | bare _ hline _ _ hsubject =>
    rw [hsubject, hline]
    exact iff_of_false (by simp) Draft.not_retyped_nil
  | kept v y _ _ _ hunfit _ _ hsubject =>
    refine iff_of_false ?_ (Draft.not_retyped hunfit)
    rintro ⟨y, hy, x, hx, hadmits⟩
    -- a subject that was written is in the case, unless the line is a header now
    obtain ⟨hnone, hfits⟩ := fits_of_not_admits (o := .all) rfl h hy hx hadmits
    rw [Draft.fixDraft_all_type] at hnone
    exact hunfit hnone hfits
  | retyped p _ hnone wf htext _ hsubject =>
    -- the rule looks at the first character, which trimming at the end leaves
    rw [Draft.retyped_iff hnone wf htext, hsubject]
    rcases wf.trimmed?_subject_cases with ⟨hnil, hread⟩ | ⟨-, y, hread, hhead⟩
    · rw [hread, hnil]
      simp
    · simp [hread, hhead]

/-- The only full stop that a fix leaves at the end is that of the ellipsis. -/
theorem subjectFullStop_suggestedFix_iff
    (hbefore : ¬ (Message.parse raw).Fails c .subjectFullStop) :
    (Message.parse t).Fails c .subjectFullStop ↔
      (Draft.ofMessage (Message.parse raw)).MayFail c (Message.parse t) .subjectFullStop := by
  show c.subjectFullStopForbidden = true ∧
      (∃ y ∈ (Message.parse t).visibleSubject, y.getLast? = some '.') ↔
    c.subjectFullStopForbidden = true ∧ (Draft.ofMessage (Message.parse raw)).Shortened c
  refine and_congr_right fun hforbidden => ?_
  rw [Message.visibleSubject_parse]
  constructor
  · rintro ⟨y, hy, hlast⟩
    by_contra hcut
    obtain ⟨s, hs, hstop⟩ := getLast?_subject_of_not_shortened h hcut hy hlast
    exact hbefore ⟨hforbidden, s, (Message.visibleSubject_parse raw).trans hs, hstop⟩
  · exact exists_subject_of_shortened h

/-- A blocked word that is found after a fix was found before, or the cut completes it, or the
capital does. That a word may be completed is no guarantee, so the word must be found as well. -/
theorem blockedWords_suggestedFix_iff (hbefore : ¬ (Message.parse raw).Fails c .blockedWords) :
    (Message.parse t).Fails c .blockedWords ↔
      (Draft.ofMessage (Message.parse raw)).MayFail c (Message.parse t) .blockedWords := by
  show (∃ y ∈ (Message.parse t).visibleSubject, ∃ w ∈ c.blockedWords, blocks y w = true) ↔
    ∃ y ∈ (Message.parse t).subject, ∃ w ∈ c.blockedWords, blocks y w = true ∧
      ((Draft.ofMessage (Message.parse raw)).CutCompletes c w ∨ c.subjectCase = .sentence ∧
        ∃ s ∈ (Message.parse raw).subject, blocks (Draft.recased .sentence s) w = true)
  rw [Message.visibleSubject_parse]
  constructor
  · rintro ⟨y, hy, w, hw, hblocks⟩
    refine ⟨y, hy, w, hw, hblocks, ?_⟩
    -- the word stands in the cased subject, or it is one that the cut completes
    rw [blocks_eq_true_iff] at hblocks
    obtain ⟨s, hs, hcased | hcut⟩ := isInfix_subject_suggestedFix h hy hblocks.2
    · right
      have hcase : c.subjectCase = .sentence := by
        -- the lower and the upper case leave the small forms of a subject alone
        by_contra hcase
        rw [Draft.lowercase_recased hcase] at hcased
        exact hbefore ⟨s, (Message.visibleSubject_parse raw).trans hs, w, hw,
          blocks_eq_true_iff.mpr ⟨hblocks.1, hcased⟩⟩
      rw [hcase] at hcased
      exact ⟨hcase, s, hs, blocks_eq_true_iff.mpr ⟨hblocks.1, hcased⟩⟩
    · exact Or.inl hcut
  · rintro ⟨y, hy, w, hw, hblocks, -⟩
    exact ⟨y, hy, w, hw, hblocks⟩

/-- A header is too long after a fix only if it was not cut for want of room. -/
theorem headerMaxLength_suggestedFix_iff :
    (Message.parse t).Fails c .headerMaxLength ↔
      (Draft.ofMessage (Message.parse raw)).MayFail c (Message.parse t) .headerMaxLength := by
  show _ ↔ c.maxHeaderLength.toNat < (Message.parse t).header.length ∧ _
  refine ⟨fun hlong => ⟨hlong, ?_⟩, And.left⟩
  exact (length_header_fixMessage_le h).resolve_left (Nat.not_le_of_lt hlong)

end

-- ---------------------------------------------------------------------------
-- All rules
-- ---------------------------------------------------------------------------

/--
If every type that a verb announces is allowed, then a rule that is not among the errors of a
message is among those of its suggested fix exactly in the cases of `MayFail`. In particular, a
fix that neither cuts the header nor loses the subject, nor makes a header of a line that was
none, breaks nothing but the limit of a header that gets longer without room for a subject, and
words that a capital completes.
-/
theorem errors_suggestedFix (htypes : ∀ g ∈ verbGroups, g.1 ∈ c.types)
    (h : suggestedFix c raw = some t) (r : Rule)
    (hbefore : ¬ ∃ i ∈ (lint c raw).errors, i.rule = r) :
    (∃ i ∈ (lint c t).errors, i.rule = r) ↔
      (Draft.ofMessage (Message.parse raw)).MayFail c (Message.parse t) r := by
  rw [exists_mem_errors_iff] at hbefore ⊢
  cases hlevel : r.level with
  | error =>
    rw [hlevel, and_iff_right rfl] at hbefore
    rw [and_iff_right rfl]
    -- one lemma for each grave rule
    cases r with
    | typeEmpty => exact typeEmpty_suggestedFix_iff h hbefore
    | typeEnum => exact typeEnum_suggestedFix_iff h htypes hbefore
    | scopeEmpty => exact scopeEmpty_suggestedFix_iff h hbefore
    | subjectEmpty => exact subjectEmpty_suggestedFix_iff h hbefore
    | subjectCase => exact subjectCase_suggestedFix_iff h
    | subjectFullStop => exact subjectFullStop_suggestedFix_iff h hbefore
    | blockedWords => exact blockedWords_suggestedFix_iff h hbefore
    | headerMaxLength => exact headerMaxLength_suggestedFix_iff h
    | bodyLeadingBlank | bodyMaxLineLength | footerLeadingBlank => cases hlevel
  | warning =>
    -- a warning is never among the errors, whatever fails
    refine iff_of_false (fun hfail => ?_) fun hmay => ?_
    · cases hfail.1
    · cases r with
      | bodyLeadingBlank | bodyMaxLineLength | footerLeadingBlank => exact hmay
      | _ => cases hlevel

/-- A header that is cut fails the rule about the full stop, and not the one about blocked words:
the word `wait` has no character that a cut could bring. -/
theorem errors_suggestedFix_cut :
    let c := { Config.default with maxHeaderLength := 20, blockedWords := ["wait".toList] }
    let raw := "feat: add the login page".toList
    let t := "feat: add the log...".toList
    suggestedFix c raw = some t ∧ (∃ i ∈ (lint c t).errors, i.rule = .subjectFullStop) ∧
      ¬ ∃ i ∈ (lint c t).errors, i.rule = .blockedWords := by
  intro c raw t
  have h : suggestedFix c raw = some t := by decide +kernel
  have hbefore : ∀ r ∈ [Rule.subjectFullStop, Rule.blockedWords],
      ¬ ∃ i ∈ (lint c raw).errors, i.rule = r := by
    decide +kernel
  have hcut : (Draft.ofMessage (Message.parse raw)).Shortened c := by
    rw [Draft.shortened_iff]
    decide +kernel
  refine ⟨h, ?_, ?_⟩
  · exact (errors_suggestedFix (by decide) h _ (hbefore _ (by simp))).mpr ⟨rfl, hcut⟩
  · rw [errors_suggestedFix (by decide) h _ (hbefore _ (by simp))]
    rintro ⟨y, -, w, hw, -, ⟨-, x, hx, hbrought⟩ | ⟨hcase, -⟩⟩
    · have hlower : Text.lowercase "wait".toList = "wait".toList := by decide +kernel
      rw [List.mem_singleton.mp hw, hlower] at hx
      rcases hbrought with rfl | rfl
      · exact absurd hx (by decide)
      · exact absurd hx (by decide)
    · cases hcase

/-- The ellipsis of a header that is cut ends in a full stop. So a subject with no full stop before
has one after the fix. -/
theorem errors_suggestedFix_shortened :
    ¬ ∀ (c : Config) (raw t : Text), (∀ g ∈ verbGroups, g.1 ∈ c.types) →
      suggestedFix c raw = some t → ∀ r, (∃ i ∈ (lint c t).errors, i.rule = r) →
        ∃ i ∈ (lint c raw).errors, i.rule = r := by
  intro hall
  have h : suggestedFix { Config.default with maxHeaderLength := 17 }
      "feat: xxxxxxxxxxxxxxxxxxxxxxxxxxxxxx".toList = some "feat: xxxxxxxx...".toList := by
    decide +kernel
  have hafter : ∃ i ∈ (lint { Config.default with maxHeaderLength := 17 }
      "feat: xxxxxxxx...".toList).errors, i.rule = .subjectFullStop := by
    decide +kernel
  have hbefore : ¬ ∃ i ∈ (lint { Config.default with maxHeaderLength := 17 }
      "feat: xxxxxxxxxxxxxxxxxxxxxxxxxxxxxx".toList).errors, i.rule = .subjectFullStop := by
    decide +kernel
  exact hbefore (hall _ _ _ (by decide) h _ hafter)

/-- A blocked word may be completed by the ellipsis, or by a sigma that ends a word once the
letters after it are cut off. -/
example :
    let dotted := { Config.default with maxHeaderLength := 17, blockedWords := ["x...".toList] }
    let final := { Config.default with maxHeaderLength := 17, blockedWords := ["ΟΔΟΣ".toList] }
    (lint dotted "feat: xxxxxxxxxxxx".toList).reports .blockedWords = false ∧
      (lint dotted "feat: xxxxxxxx...".toList).reports .blockedWords = true ∧
      (lint final "feat: ΧΟΔΟΣΗΜΑΝΣΗ".toList).reports .blockedWords = false ∧
      (lint final "feat: ΧΧΧΧΟΔΟΣ...".toList).reports .blockedWords = true := by
  decide +kernel

end ConventionalCommit
