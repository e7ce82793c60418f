import ConventionalCommit.Fix.Basic
import ConventionalCommit.Proofs.Message.HeaderFields

/-!
# ConventionalCommit — what the fixes edit

Each edit changes one field of a draft. A type is only ever inferred where none
is, the case of the first character changes to the one that is asked for, and
every other edit of the subject takes something from its end (`Draft.Cut`).

* `fixDraft_of_subject`: all fixes together, on a draft with a subject;
* `fixDraft_of_subject_none`: without a subject only the body is wrapped.
-/

namespace ConventionalCommit

open Unicode (isWhite isWordChar)
open Text (Tight)

variable {o : FixOptions} {c : Config} {case : SubjectCase} {d : Draft} {s t u w : Text}
  {ch : Char}

-- ---------------------------------------------------------------------------
-- Verbs and cases
-- ---------------------------------------------------------------------------

/-- Each type that a verb announces is a word, and the verbs are written in small letters. -/
theorem all_verbGroups : (verbGroups.all fun g => !g.1.isEmpty && g.1.all isWordChar &&
    g.2.all fun w => w.all Char.isLower) = true := by
  decide +kernel

theorem typeOfVerb?_word (h : typeOfVerb? w = some t) :
    t ≠ [] ∧ ∀ x ∈ t, isWordChar x = true := by
  obtain ⟨g, hg, rfl⟩ := Option.map_eq_some_iff.mp h
  have hword := List.all_eq_true.mp all_verbGroups g (List.mem_of_find?_eq_some hg)
  rw [Bool.and_eq_true, Bool.and_eq_true, Bool.not_eq_true', List.isEmpty_eq_false_iff] at hword
  exact ⟨hword.1.1, List.all_eq_true.mp hword.1.2⟩

theorem isLower_of_typeOfVerb? (h : typeOfVerb? w = some t) {x : Char} (hx : x ∈ w) :
    x.isLower = true := by
  obtain ⟨g, hg, -⟩ := Option.map_eq_some_iff.mp h
  have hverbs := List.all_eq_true.mp all_verbGroups g (List.mem_of_find?_eq_some hg)
  have hmem : w ∈ g.2 := by simpa using List.find?_some hg
  rw [Bool.and_eq_true] at hverbs
  exact List.all_eq_true.mp (List.all_eq_true.mp hverbs.2 w hmem) x hx

namespace SubjectCase

/-- A converted character begins with one that is admitted. This is a fact on the case tables: the
first character of an image is its own image. -/
theorem convert_head (case : SubjectCase) (ch : Char) :
    ∃ x rest, case.convert ch = x :: rest ∧ case.admits x = true := by
  have hcons : ∀ l : Text, ∀ x, l.head? = some x → ∃ rest, l = x :: rest := fun l x h =>
    List.head?_eq_some_iff.mp h
  cases case with
  | lower =>
    obtain ⟨x, hx, hrest⟩ := Unicode.lowerMapping_closed.map_head ch
    obtain ⟨rest, h⟩ := hcons _ x hx
    exact ⟨x, rest, h, beq_iff_eq.mpr hrest⟩
  | sentence =>
    obtain ⟨x, hx, hrest⟩ := Unicode.upperMapping_closed.map_head ch
    obtain ⟨rest, h⟩ := hcons _ x hx
    exact ⟨x, rest, h, beq_iff_eq.mpr hrest⟩
  | any => exact ⟨ch, [], rfl, rfl⟩

/-- Converting a character that is no white space brings none. So an edit of the first character
does not change what trimming takes. -/
theorem isWhite_of_mem_convert (hch : isWhite ch = false) {x : Char} (hx : x ∈ case.convert ch) :
    isWhite x = false := by
  cases case with
  | lower => exact Unicode.lowerMapping_closed.isWhite_eq_false hch hx
  | sentence => exact Unicode.upperMapping_closed.isWhite_eq_false hch hx
  | any => rwa [List.mem_singleton.mp hx]

end SubjectCase

namespace Draft

-- ---------------------------------------------------------------------------
-- One edit
-- ---------------------------------------------------------------------------

/-- What is left of a subject that loses something at its end. -/
structure Cut (s u : Text) : Prop where
  ne_nil : u ≠ []
  head : u.head? = s.head?
  shorter : u = s ∨ u.length < s.length
  chars : ∀ x ∈ u, x ∈ s ∨ x = '.'

/-- To take nothing is a cut as well. -/
theorem Cut.refl (h : s ≠ []) : Cut s s := ⟨h, rfl, Or.inl rfl, fun _ hx => Or.inl hx⟩

/-- One cut after another is a cut, so the edits of a subject can be looked at one by one. -/
theorem Cut.trans (hu : Cut s u) (ht : Cut u t) : Cut s t := by
  refine ⟨ht.ne_nil, ht.head.trans hu.head, ?_, fun x hx => ?_⟩
  · rcases ht.shorter with rfl | hlt
    · exact hu.shorter
    · right
      rcases hu.shorter with rfl | hlt'
      · exact hlt
      · omega
  · rcases ht.chars x hx with hx | hx
    · exact hu.chars x hx
    · exact Or.inr hx

/-- A subject with the first character in a case, and otherwise as it was. -/
structure Cased (case : SubjectCase) (s u : Text) : Prop where
  ne_nil : u ≠ []
  head : ∀ x ∈ u.head?, case.admits x = true ∧ isWhite x = false
  chars : ∀ x ∈ u, x ∈ s ∨ isWhite x = false
  same : (∀ x ∈ s.head?, case.admits x = true) → u = s

/-- A type is inferred only where there is a subject and no type, and then it is a word. -/
theorem withInferredType_eq (d : Draft) : ∃ type, d.withInferredType = { d with type } ∧
    (type = d.type ∨ d.type = none ∧ d.subject ≠ none ∧
      ∃ t, type = some t ∧ t ≠ [] ∧ ∀ x ∈ t, isWordChar x = true) := by
  rw [withInferredType]
  split
  · exact ⟨d.type, rfl, Or.inl rfl⟩
  · next hnone =>
    refine ⟨_, rfl, ?_⟩
    cases htype : (d.subject.bind (·.words.head?)).bind fun w => typeOfVerb? w.lowercase with
    | none => exact Or.inl hnone.symm
    | some t =>
      obtain ⟨w, hw, ht⟩ := Option.bind_eq_some_iff.mp htype
      refine Or.inr ⟨hnone, fun hs => ?_, t, rfl, typeOfVerb?_word ht⟩
      rw [hs] at hw
      cases hw

/-- Adjusting the case gives the subject a first character that is admitted, and one that is
admitted already stays. -/
theorem withSubjectCase_eq (hs : d.subject = some s) (ht : Tight s) :
    ∃ u, d.withSubjectCase case = { d with subject := some u } ∧ Cased case s u := by
  obtain ⟨first, rest, rfl⟩ := List.exists_cons_of_ne_nil ht.ne_nil
  have hfirst : isWhite first = false := ht.head first rfl
  simp only [withSubjectCase, hs]
  split
  · next hadmits =>
    refine ⟨first :: rest, by rw [← hs], List.cons_ne_nil _ _, fun x hx => ?_,
      fun x hx => Or.inl hx, fun _ => rfl⟩
    rw [← Option.some.inj hx]
    exact ⟨hadmits, hfirst⟩
  · next hadmits =>
    obtain ⟨x, tail, hconvert, hx⟩ := case.convert_head first
    -- one character may be converted to several
    have hwhite : ∀ y ∈ case.convert first, isWhite y = false := fun y hy =>
      SubjectCase.isWhite_of_mem_convert hfirst hy
    refine ⟨case.convert first ++ rest, rfl, by simp [hconvert], fun y hy => ?_,
      fun y hy => ?_, fun h => absurd (h first rfl) hadmits⟩
    · rw [hconvert] at hy hwhite
      obtain rfl : x = y := Option.some.inj hy
      exact ⟨hx, hwhite x (List.mem_cons_self ..)⟩
    · rcases List.mem_append.mp hy with hy | hy
      · exact Or.inr (hwhite y hy)
      · exact Or.inl (List.mem_cons_of_mem _ hy)

/-- Without the full stop the subject is cut by one character, or it is gone. -/
theorem withoutFullStop_eq (hs : d.subject = some s) (hne : s ≠ []) :
    ∃ u, d.withoutFullStop = { d with subject := u } ∧ ∀ v ∈ u, Cut s v := by
  simp only [withoutFullStop, hs]
  split
  · next hdot =>
    refine ⟨_, rfl, fun v hv => ?_⟩
    split at hv
    · cases hv
    · next hblank =>
      obtain rfl := Option.some.inj hv
      obtain ⟨front, rfl⟩ := List.getLast?_eq_some_iff.mp hdot
      rw [List.dropLast_concat] at hblank ⊢
      -- a subject that is the stop alone is gone, not cut
      have hfront : front ≠ [] := by
        rintro rfl
        exact hblank rfl
      refine ⟨hfront, (List.head?_append_of_ne_nil _ hfront).symm, Or.inr (by simp),
        fun x hx => Or.inl (List.mem_append_left _ hx)⟩
  · refine ⟨some s, by rw [← hs], fun v hv => ?_⟩
    rw [← Option.some.inj hv]
    exact Cut.refl hne

/-- Cutting the header cuts its subject. The ellipsis takes the room of what goes, so the subject
does not grow. -/
theorem withHeaderWithin_eq (hs : d.subject = some s) (hne : s ≠ []) (limit : Nat) :
    ∃ u, d.withHeaderWithin limit = { d with subject := some u } ∧ Cut s u := by
  simp only [withHeaderWithin, hs]
  split
  · exact ⟨s, by rw [← hs], Cut.refl hne⟩
  · next hlong =>
    rw [header_of_subject hs, List.length_append, not_or] at hlong
    have hellipsis : ellipsis.length = 3 := rfl
    have hleast : leastSubject = 10 := rfl
    generalize hroom : limit - d.typePrefix.length = room at hlong ⊢
    obtain ⟨x, rest, rfl⟩ := List.exists_cons_of_ne_nil hne
    -- the cut subject takes all the room, which is less than it took before
    have hlen : ((x :: rest).take (room - ellipsis.length) ++ ellipsis).length = room := by
      rw [List.length_append, List.length_take]
      omega
    refine ⟨_, rfl, by simp [ellipsis], ?_, Or.inr (by omega), fun y hy => ?_⟩
    · obtain ⟨n, hn⟩ : ∃ n, room - ellipsis.length = n + 1 :=
        ⟨room - ellipsis.length - 1, by omega⟩
      rw [hn]
      rfl
    · rcases List.mem_append.mp hy with hy | hy
      · exact Or.inl (List.mem_of_mem_take hy)
      · exact Or.inr (List.eq_of_mem_replicate (n := 3) hy)

-- ---------------------------------------------------------------------------
-- All edits
-- ---------------------------------------------------------------------------

/-- The body after the fixes that are enabled. -/
def fixedBody (o : FixOptions) (c : Config) (body : Option Text) : Option Text :=
  if o.wrapBody then body.map (Text.wrap c.maxLineLength.toNat) else body

/-- Wrapping is an edit of the body, so it can be looked at apart from the header. -/
theorem editIf_withWrappedBody (d : Draft) :
    d.editIf o.wrapBody (withWrappedBody c.maxLineLength.toNat) =
      { d with body := fixedBody o c d.body } := by
  cases h : o.wrapBody <;> simp [editIf, withWrappedBody, fixedBody, h]

/-- A fixed draft has a type that may be inferred, and what is cut from the cased subject. -/
structure Fixed (o : FixOptions) (c : Config) (s : Text) (d e : Draft) : Prop where
  type : e.type = d.type ∨
    d.type = none ∧ ∃ t, e.type = some t ∧ t ≠ [] ∧ ∀ x ∈ t, isWordChar x = true
  scope : e.scope = d.scope
  marked : e.marked = d.marked
  body : e.body = fixedBody o c d.body
  footer : e.footer = d.footer
  subject : ∃ u, (o.adjustCase = true → Cased c.subjectCase s u) ∧
    (o.adjustCase = false → u = s) ∧ ∀ v ∈ e.subject, Cut u v

/-- All fixes on a draft with a subject. The edits are taken one by one, each on what the one before
has left. -/
theorem fixDraft_of_subject (hs : d.subject = some s) (ht : Tight s) :
    Fixed o c s d (fixDraft o c d) := by
  -- first the type, which is the old one or comes from the subject as it was read
  obtain ⟨type, hinfer, htype⟩ : ∃ type, d.editIf o.inferType withInferredType = { d with type } ∧
      (type = d.type ∨ d.type = none ∧
        ∃ t, type = some t ∧ t ≠ [] ∧ ∀ x ∈ t, isWordChar x = true) := by
    rw [editIf]
    split
    · obtain ⟨type, h, htype⟩ := withInferredType_eq d
      exact ⟨type, h, htype.imp_right fun h => ⟨h.1, h.2.2⟩⟩
    · exact ⟨d.type, rfl, Or.inl rfl⟩
  -- then the case: `u` is what the later edits see
  obtain ⟨u, hcase, hcased, hsame⟩ : ∃ u,
      ({ d with type } : Draft).editIf o.adjustCase (withSubjectCase c.subjectCase) =
        { d with type, subject := some u } ∧
      (o.adjustCase = true → Cased c.subjectCase s u) ∧ (o.adjustCase = false → u = s) := by
    cases hon : o.adjustCase with
    | true =>
      obtain ⟨u, h, hu⟩ := withSubjectCase_eq (d := { d with type }) hs ht
      exact ⟨u, h, fun _ => hu, fun hoff => absurd hoff.symm Bool.false_ne_true⟩
    | false => exact ⟨s, by rw [← hs]; rfl, fun h => absurd h Bool.false_ne_true, fun _ => rfl⟩
  -- so the full stop is taken from a text that has a character
  have hne : u ≠ [] := by
    cases hon : o.adjustCase with
    | true => exact (hcased hon).ne_nil
    | false => rw [hsame hon]; exact ht.ne_nil
  obtain ⟨v, hstop, hv⟩ : ∃ v,
      ({ d with type, subject := some u } : Draft).editIf o.stripFullStop withoutFullStop =
        { d with type, subject := v } ∧ ∀ x ∈ v, Cut u x := by
    rw [editIf]
    split
    · exact withoutFullStop_eq (d := { d with type, subject := some u }) rfl hne
    · refine ⟨some u, rfl, fun x hx => ?_⟩
      rw [← Option.some.inj hx]
      exact Cut.refl hne
  -- the body does not depend on the header edits, so it can be wrapped before the header is cut
  rw [fixDraft, hinfer, hcase, hstop, editIf_withWrappedBody]
  cases v with
  | none =>
    exact ⟨htype, rfl, rfl, rfl, rfl, u, hcased, hsame,
      fun _ h => absurd h (Option.not_mem_none _)⟩
  | some v =>
    -- a cut of a cut is a cut
    obtain ⟨w, hwithin, hw⟩ := withHeaderWithin_eq
      (d := { d with type, subject := some v, body := fixedBody o c d.body }) rfl
      (hv v rfl).ne_nil c.maxHeaderLength.toNat
    rw [hwithin]
    refine ⟨htype, rfl, rfl, rfl, rfl, u, hcased, hsame, fun x hx => ?_⟩
    rw [← Option.some.inj hx]
    exact (hv v rfl).trans hw

/-- Without a subject the header edits do nothing: no type is inferred from nothing, and an empty
header is not too long. -/
theorem fixDraft_of_subject_none (hs : d.subject = none) :
    fixDraft o c d = { d with body := fixedBody o c d.body } := by
  have hinfer : d.editIf o.inferType withInferredType = d := by
    have hsame : d.withInferredType = d := by
      obtain ⟨type, h, rfl | ⟨-, hne, -⟩⟩ := withInferredType_eq d
      · exact h
      · exact absurd hs hne
    rw [editIf, hsame, ite_self]
  have hcase : d.editIf o.adjustCase (withSubjectCase c.subjectCase) = d := by
    simp [editIf, withSubjectCase, hs]
  have hstop : d.editIf o.stripFullStop withoutFullStop = d := by
    simp [editIf, withoutFullStop, hs]
  rw [fixDraft, hinfer, hcase, hstop, editIf_withWrappedBody, withHeaderWithin]
  simp only [hs]

end Draft

/-- Nothing is fixed exactly if the fixes leave the fields as they are. -/
theorem fixMessage_eq_none_iff {raw : Text} : fixMessage o c raw = none ↔
    fixDraft o c (Draft.ofMessage (Message.parse raw)) = Draft.ofMessage (Message.parse raw) := by
  rw [fixMessage]
  split
  · next h => exact iff_of_true rfl h
  · next h => exact iff_of_false (Option.some_ne_none _) h

end ConventionalCommit
