import ConventionalCommit.Proofs.Fix.Edits
import ConventionalCommit.Proofs.Text.Lowercase
import ConventionalCommit.Proofs.Text.Wrapping

/-!
# ConventionalCommit — the subject and the header of an edited draft

The exact form of a draft after the edits, field by field (`edited_eq`), and of
the last step, which cuts the header (`withHeaderWithin_cases`). The cut stands
apart, because it is the only edit that adds something to the end of a subject.

* `Tight.recased`, `getLast?_recased`: changing the case of the first character
  keeps a subject tight and never makes it end in a full stop;
* `length_header_withHeaderWithin_of_room`: a header that is cut has exactly the
  length that it may have.
-/

namespace ConventionalCommit

open Unicode (isWhite)
open Text (Tight)

variable {o : FixOptions} {c : Config} {case : SubjectCase} {d : Draft} {s t u : Text}
  {ch : Char} {limit : Nat}

namespace SubjectCase

/-- The character has no other form, and it is the form of no other. -/
structure Caseless (x : Char) : Prop where
  admits : ∀ case : SubjectCase, case.admits x = true
  alone : ∀ (case : SubjectCase) (ch : Char), x ∈ case.convert ch → x = ch

/-- No table of forms leads to the character. -/
def unreached (x : Char) : Bool :=
  [Unicode.lowerMapping, Unicode.upperMapping].all fun m =>
    m.runs.all (fun r => r.avoids x.toNat x.toNat) && m.several.all fun e => !e.2.contains x

/-- A character that no table of forms leads to, and that all cases admit, is caseless. The test
runs over the ranges of the tables and not over all characters. -/
theorem Caseless.of_unreached {x : Char} (h : unreached x = true)
    (hadmits : ∀ case : SubjectCase, case.admits x = true) : Caseless x := by
  refine ⟨hadmits, fun case ch hx => ?_⟩
  simp only [unreached, List.all_cons, List.all_nil, Bool.and_true, Bool.and_eq_true] at h
  obtain ⟨⟨hlowerRuns, hlowerSeveral⟩, hupperRuns, hupperSeveral⟩ := h
  cases case with
  | lower => exact Unicode.lowerMapping_closed.eq_of_mem_map hlowerRuns hlowerSeveral hx
  | sentence => exact Unicode.upperMapping_closed.eq_of_mem_map hupperRuns hupperSeveral hx
  | any => exact List.mem_singleton.mp hx

/-- A full stop has no case. It is the one character that stripping looks for, so changing the case
of a subject must neither make one nor hide one. -/
theorem caseless_stop : Caseless '.' :=
  .of_unreached (by decide +kernel) fun case => by cases case <;> decide +kernel

end SubjectCase

namespace Draft

-- ---------------------------------------------------------------------------
-- Edits of the subject
-- ---------------------------------------------------------------------------

/-- A subject with its first character in the form that a case asks for. -/
def recased (case : SubjectCase) : Text → Text
  | [] => []
  | first :: rest => if case.admits first then first :: rest else case.convert first ++ rest

/-- A subject without the full stop at its end, unless nothing is left then. -/
def unstopped (s : Text) : Option Text :=
  if s.getLast? = some '.' then
    if Text.isBlank s.dropLast then none else some s.dropLast
  else
    some s

/-- Changing the case touches the subject and no other field. -/
theorem withSubjectCase_eq_map (case : SubjectCase) (d : Draft) :
    d.withSubjectCase case = { d with subject := d.subject.map (recased case) } := by
  obtain ⟨type, scope, subject, body, footer, marked⟩ := d
  cases subject with
  | none => rfl
  | some s =>
    cases s with
    | nil => rfl
    | cons first rest =>
      simp only [withSubjectCase, recased, Option.map_some]
      split <;> rfl

/-- Stripping the full stop touches the subject and no other field, but it may take the whole
subject. -/
theorem withoutFullStop_eq_bind (d : Draft) :
    d.withoutFullStop = { d with subject := d.subject.bind unstopped } := by
  obtain ⟨type, scope, subject, body, footer, marked⟩ := d
  cases subject with
  | none => rfl
  | some s =>
    simp only [withoutFullStop, unstopped, Option.bind_some]
    split <;> rfl

theorem recased_cons_of_not_admits (h : case.admits ch = false) (rest : Text) :
    ∃ x tail, recased case (ch :: rest) = x :: tail ++ rest ∧ case.convert ch = x :: tail ∧
      case.admits x = true := by
  obtain ⟨x, tail, hconvert, hx⟩ := case.convert_head ch
  refine ⟨x, tail, ?_, hconvert, hx⟩
  rw [recased, h, hconvert]
  rfl

/-- Changing the case leaves a subject alone exactly if its first character is admitted already. A
character that is not admitted has another form, so the subject differs then. -/
theorem recased_eq_self_iff : recased case s = s ↔ ∀ x ∈ s.head?, case.admits x = true := by
  cases s with
  | nil => simp [recased]
  | cons first rest =>
    rw [List.head?_cons]
    cases h : case.admits first with
    | true => simp [recased, h]
    | false =>
      obtain ⟨x, tail, hrecased, -, hx⟩ := recased_cons_of_not_admits h rest
      simp only [Option.mem_some_iff, forall_eq', h, Bool.false_eq_true, iff_false, hrecased]
      intro heq
      obtain rfl : x = first := (List.cons.inj heq).1
      rw [hx] at h
      cases h

/-- The first character is one that is asked for, whatever it was before. If it is admitted already
it is not touched. -/
theorem admits_head_recased : ∀ x ∈ (recased case s).head?, case.admits x = true := by
  intro x hx
  cases s with
  | nil => cases hx
  | cons first rest =>
    cases h : case.admits first with
    | true =>
      rw [recased, if_pos h] at hx
      rwa [← Option.some.inj hx]
    | false =>
      obtain ⟨y, tail, hrecased, -, hy⟩ := recased_cons_of_not_admits h rest
      rw [hrecased] at hx
      rwa [← Option.some.inj hx]

/-- A character without other forms is the first before and after, or neither: it is not changed,
and it is no form of another character. -/
theorem head?_recased_eq_some_iff {x : Char} (hx : SubjectCase.Caseless x) :
    (recased case s).head? = some x ↔ s.head? = some x := by
  cases s with
  | nil => rfl
  | cons first rest =>
    cases hadmits : case.admits first with
    | true => rw [recased, if_pos hadmits]
    | false =>
      obtain ⟨y, tail, hrecased, hconvert, -⟩ := recased_cons_of_not_admits hadmits rest
      rw [hrecased, List.cons_append, List.head?_cons, List.head?_cons, Option.some.injEq,
        Option.some.injEq]
      constructor
      · -- what is converted to `x` is `x`, and then it was admitted
        rintro rfl
        exact (hx.alone case first (hconvert ▸ List.mem_cons_self ..)).symm
      · rintro rfl
        rw [hx.admits case] at hadmits
        cases hadmits

/-- Changing the case keeps a subject tight. One character may become several, and none of them is
white space. -/
theorem Tight.recased (h : Tight s) (case : SubjectCase) : Tight (recased case s) := by
  obtain ⟨first, rest, rfl⟩ := List.exists_cons_of_ne_nil h.ne_nil
  cases hadmits : case.admits first with
  | true =>
    rw [Draft.recased, if_pos hadmits]
    exact h
  | false =>
    obtain ⟨x, tail, hrecased, hconvert, -⟩ := recased_cons_of_not_admits hadmits rest
    have hwhite : ∀ y ∈ x :: tail, isWhite y = false := fun y hy =>
      SubjectCase.isWhite_of_mem_convert (h.head first rfl) (hconvert ▸ hy)
    rw [hrecased]
    refine ⟨by simp, fun y hy => ?_, fun y hy => ?_⟩
    · rw [← Option.some.inj hy]
      exact hwhite x (List.mem_cons_self ..)
    · -- if the subject is one character, its last one is a converted one
      by_cases hrest : rest = []
      · rw [hrest, List.append_nil] at hy
        exact hwhite y (List.mem_of_mem_getLast? hy)
      · rw [List.getLast?_append_of_ne_nil _ hrest] at hy
        refine h.last y ?_
        rwa [← List.singleton_append, List.getLast?_append_of_ne_nil _ hrest]

/-- A full stop at the end was there before. No form of a character ends in one, so a subject of a
single character does not gain it either. -/
theorem getLast?_recased (h : (recased case s).getLast? = some '.') : s.getLast? = some '.' := by
  cases s with
  | nil => exact h
  | cons first rest =>
    cases hadmits : case.admits first with
    | true => rwa [recased, if_pos hadmits] at h
    | false =>
      rw [recased, hadmits] at h
      -- only a subject of one character has a converted one at its end
      by_cases hrest : rest = []
      · subst hrest
        rw [if_neg Bool.false_ne_true, List.append_nil] at h
        rw [← SubjectCase.caseless_stop.alone case first (List.mem_of_getLast? h)]
        rfl
      · rw [if_neg Bool.false_ne_true, List.getLast?_append_of_ne_nil _ hrest] at h
        rwa [← List.singleton_append, List.getLast?_append_of_ne_nil _ hrest]

theorem unstopped_of_getLast?_ne (h : s.getLast? ≠ some '.') : unstopped s = some s := if_neg h

/-- A subject that is a full stop and nothing else goes as a whole. A tight one begins without white
space, so what is left of a longer one is not blank. -/
theorem unstopped_eq_none_iff (h : Tight s) : unstopped s = none ↔ s = ['.'] := by
  constructor
  · intro hnone
    rw [unstopped] at hnone
    split at hnone
    · next hstop =>
      split at hnone
      · next hblank =>
        obtain ⟨front, rfl⟩ := List.getLast?_eq_some_iff.mp hstop
        rw [List.dropLast_concat] at hblank
        -- a tight subject does not begin with the blanks that would be left
        cases front with
        | nil => rfl
        | cons x rest =>
          have hx := h.head x rfl
          rw [Text.isBlank_iff.mp hblank x (List.mem_cons_self ..)] at hx
          cases hx
      · cases hnone
    · cases hnone
  · rintro rfl
    rfl

/-- What is left without the full stop. -/
theorem of_unstopped_eq_some (h : unstopped s = some t) :
    (s.getLast? ≠ some '.' ∧ t = s) ∨ s = t ++ ['.'] := by
  rw [unstopped] at h
  split at h
  · next hstop =>
    split at h
    · cases h
    · obtain ⟨front, rfl⟩ := List.getLast?_eq_some_iff.mp hstop
      rw [List.dropLast_concat] at h
      exact Or.inr (by rw [Option.some.inj h])
  · next hstop => exact Or.inl ⟨hstop, (Option.some.inj h).symm⟩

/-- Stripping makes a shorter subject with the same start, provided that it leaves one. -/
theorem cut_of_unstopped (hne : s ≠ []) (h : unstopped s = some t) : Cut s t := by
  rcases of_unstopped_eq_some h with ⟨-, rfl⟩ | rfl
  · exact Cut.refl hne
  · have ht : t ≠ [] := by
      rintro rfl
      cases h
    exact ⟨ht, (List.head?_append_of_ne_nil _ ht).symm, Or.inr (by simp),
      fun x hx => Or.inl (List.mem_append_left _ hx)⟩

-- ---------------------------------------------------------------------------
-- All edits but the last
-- ---------------------------------------------------------------------------

/-- The draft after the edits that are enabled, before its header is cut. -/
def edited (o : FixOptions) (c : Config) (d : Draft) : Draft :=
  d |>.editIf o.inferType withInferredType
    |>.editIf o.adjustCase (withSubjectCase c.subjectCase)
    |>.editIf o.stripFullStop withoutFullStop
    |>.editIf o.wrapBody (withWrappedBody c.maxLineLength.toNat)

/-- Cutting the header is the last edit. The others are described by `edited_eq`, all at once. -/
theorem fixDraft_eq (o : FixOptions) (c : Config) (d : Draft) :
    fixDraft o c d = (d.edited o c).withHeaderWithin c.maxHeaderLength.toNat := rfl

/-- The header is still too long after the edits, and it is cut. -/
def Shortened (c : Config) (d : Draft) : Prop := fixDraft .all c d ≠ d.edited .all c

/-- The type of a draft, or the one that its first word announces. -/
def inferredType (d : Draft) : Option Text :=
  d.type.or ((d.subject.bind (·.words.head?)).bind fun w => typeOfVerb? w.lowercase)

/-- The subject after the edits that are enabled. -/
def editedSubject (o : FixOptions) (case : SubjectCase) (s : Text) : Option Text :=
  let cased := if o.adjustCase then recased case s else s
  if o.stripFullStop then unstopped cased else some cased

/-- Inferring a type touches the type and no other field, and only if there is none. -/
theorem withInferredType_eq_or (d : Draft) :
    d.withInferredType = { d with type := d.inferredType } := by
  obtain ⟨type, scope, subject, body, footer, marked⟩ := d
  cases type <;> rfl

/-- The edits touch different fields, or the subject in a fixed order, so their result can be given
field by field. This is the form in which the proofs below use them. -/
theorem edited_eq (o : FixOptions) (c : Config) (d : Draft) : d.edited o c =
    { d with
      type := if o.inferType then d.inferredType else d.type
      subject := d.subject.bind (editedSubject o c.subjectCase)
      body := fixedBody o c d.body } := by
  obtain ⟨infer, adjust, strip, wrap⟩ := o
  rw [edited, editIf_withWrappedBody]
  cases infer <;> cases adjust <;> cases strip <;> cases hs : d.subject <;>
    simp [editIf, withInferredType_eq_or, withSubjectCase_eq_map, withoutFullStop_eq_bind,
      editedSubject, hs]

@[simp] theorem edited_body : (d.edited o c).body = fixedBody o c d.body := by rw [edited_eq]

@[simp] theorem edited_scope : (d.edited o c).scope = d.scope := by rw [edited_eq]

@[simp] theorem edited_marked : (d.edited o c).marked = d.marked := by rw [edited_eq]

@[simp] theorem edited_subject :
    (d.edited o c).subject = d.subject.bind (editedSubject o c.subjectCase) := by rw [edited_eq]

@[simp] theorem edited_type :
    (d.edited o c).type = if o.inferType then d.inferredType else d.type := by rw [edited_eq]

/-- Only a subject that is a full stop is dropped. Adjusting the case does not make one of another
subject. -/
theorem editedSubject_eq_none_iff (h : Tight s) :
    editedSubject o case s = none ↔ o.stripFullStop = true ∧ s = ['.'] := by
  -- changing the case first makes no difference to what is a full stop alone
  have hcased : ∀ u, (u = recased case s ∨ u = s) → (unstopped u = none ↔ s = ['.']) := by
    rintro u (rfl | rfl)
    · rw [unstopped_eq_none_iff (Tight.recased h case)]
      refine ⟨fun heq => ?_, fun heq => ?_⟩
      · have hstop : (recased case s).getLast? = some '.' := by
          rw [heq]
          rfl
        have hlast := getLast?_recased hstop
        obtain ⟨front, rfl⟩ := List.getLast?_eq_some_iff.mp hlast
        cases front with
        | nil => rfl
        | cons x rest =>
          -- a full stop that was not changed has nothing in front of it
          have hlen := congrArg List.length heq
          cases hx : case.admits x with
          | true =>
            rw [List.cons_append, recased, if_pos hx] at hlen
            simp at hlen
          | false =>
            obtain ⟨y, tail, hrecased, -⟩ := recased_cons_of_not_admits hx (rest ++ ['.'])
            rw [List.cons_append, hrecased] at hlen
            simp at hlen
      · subst heq
        exact recased_eq_self_iff.mpr fun x hx => by
          rw [← Option.some.inj hx]
          exact SubjectCase.caseless_stop.admits case
    · exact unstopped_eq_none_iff h
  rw [editedSubject]
  cases o.stripFullStop with
  | false => simp
  | true => simpa using hcased _ (by split <;> simp)

-- ---------------------------------------------------------------------------
-- The cut
-- ---------------------------------------------------------------------------

/-- A draft is left alone because its header fits or because no room is left for a subject, or its
subject is cut. In the last case the lengths are known exactly, and all that follows about the cut
is read off from them. -/
theorem withHeaderWithin_cases (limit : Nat) (d : Draft) :
    (d.withHeaderWithin limit = d ∧ (d.header.length ≤ limit ∨
      limit - d.typePrefix.length ≤ leastSubject)) ∨
    ∃ s, d.subject = some s ∧ limit < d.header.length ∧
      leastSubject < limit - d.typePrefix.length ∧ d.withHeaderWithin limit =
        { d with
          subject := some
            (s.take (limit - d.typePrefix.length - ellipsis.length) ++ ellipsis) } := by
  cases hs : d.subject with
  | none =>
    left
    rw [header_of_subject_none hs, withHeaderWithin]
    simp only [hs]
    exact ⟨trivial, Or.inl (Nat.zero_le _)⟩
  | some s =>
    simp only [withHeaderWithin, hs]
    split
    · next hfits => exact Or.inl ⟨rfl, hfits⟩
    · next hlong =>
      rw [not_or] at hlong
      exact Or.inr ⟨s, rfl, by omega, by omega, rfl⟩

/-- A subject of a header that is too long is cut, if there is room for one. -/
theorem withHeaderWithin_of_room (hs : d.subject = some s) (hlong : limit < d.header.length)
    (hroom : leastSubject < limit - d.typePrefix.length) :
    d.withHeaderWithin limit =
      { d with
        subject := some
          (s.take (limit - d.typePrefix.length - ellipsis.length) ++ ellipsis) } := by
  rcases withHeaderWithin_cases limit d with ⟨-, h⟩ | ⟨s', hs', -, -, hcut⟩
  · omega
  · obtain rfl : s = s' := Option.some.inj (hs.symm.trans hs')
    exact hcut

/-- The header that is left takes all the room that it has: the cut is counted from the limit, with
the ellipsis in it. -/
theorem length_header_withHeaderWithin_of_room (hs : d.subject = some s)
    (hlong : limit < d.header.length) (hroom : leastSubject < limit - d.typePrefix.length) :
    (d.withHeaderWithin limit).header.length = limit := by
  have hleast : leastSubject = 10 := rfl
  have hellipsis : ellipsis.length = 3 := rfl
  rw [withHeaderWithin_of_room hs hlong hroom, header_of_subject rfl]
  rw [header_of_subject hs, List.length_append] at hlong
  rw [List.length_append, List.length_append, List.length_take]
  show d.typePrefix.length + _ = limit
  omega

/-- A header fits, or no room is left for a subject. In the second case it is left as long as it
was. -/
theorem length_header_withHeaderWithin (limit : Nat) (d : Draft) :
    (d.withHeaderWithin limit).header.length ≤ limit ∨
      limit - d.typePrefix.length ≤ leastSubject := by
  rcases withHeaderWithin_cases limit d with ⟨hsame, h⟩ | ⟨s, hs, hlong, hroom, -⟩
  · rwa [hsame]
  · exact Or.inl (Nat.le_of_eq (length_header_withHeaderWithin_of_room hs hlong hroom))

/-- A draft is left alone if its header fits, or if no room is left for a subject. -/
theorem withHeaderWithin_eq_self_iff : d.withHeaderWithin limit = d ↔
    d.header.length ≤ limit ∨ limit - d.typePrefix.length ≤ leastSubject := by
  constructor
  · intro hsame
    have h := length_header_withHeaderWithin limit d
    rwa [hsame] at h
  · intro h
    rcases withHeaderWithin_cases limit d with ⟨hsame, -⟩ | ⟨s, -, hlong, hroom, -⟩
    · exact hsame
    · omega

@[simp] theorem withHeaderWithin_type : (d.withHeaderWithin limit).type = d.type := by
  rcases withHeaderWithin_cases limit d with ⟨h, -⟩ | ⟨s, -, -, -, h⟩ <;> rw [h]

@[simp] theorem withHeaderWithin_scope : (d.withHeaderWithin limit).scope = d.scope := by
  rcases withHeaderWithin_cases limit d with ⟨h, -⟩ | ⟨s, -, -, -, h⟩ <;> rw [h]

@[simp] theorem withHeaderWithin_marked : (d.withHeaderWithin limit).marked = d.marked := by
  rcases withHeaderWithin_cases limit d with ⟨h, -⟩ | ⟨s, -, -, -, h⟩ <;> rw [h]

@[simp] theorem withHeaderWithin_typePrefix :
    (d.withHeaderWithin limit).typePrefix = d.typePrefix := by
  rw [typePrefix, withHeaderWithin_type, withHeaderWithin_scope, withHeaderWithin_marked]
  rfl

@[simp] theorem withHeaderWithin_body : (d.withHeaderWithin limit).body = d.body := by
  rcases withHeaderWithin_cases limit d with ⟨h, -⟩ | ⟨s, -, -, -, h⟩ <;> rw [h]

/-- The cut neither takes a subject nor makes one: what it leaves ends in an ellipsis. -/
theorem withHeaderWithin_subject_eq_none_iff :
    (d.withHeaderWithin limit).subject = none ↔ d.subject = none := by
  rcases withHeaderWithin_cases limit d with ⟨h, -⟩ | ⟨s, hs, -, -, h⟩
  · rw [h]
  · rw [h, hs]
    simp

/-- A subject is lost if there was none, or if it was nothing but a full stop. -/
theorem fixDraft_subject_eq_none_iff (hd : d.HeaderRead) : (fixDraft o c d).subject = none ↔
    d.subject = none ∨ o.stripFullStop = true ∧ d.subject = some ['.'] := by
  rw [fixDraft_eq, withHeaderWithin_subject_eq_none_iff, edited_subject]
  cases hs : d.subject with
  | none => simp
  | some s =>
    rw [Option.bind_some, editedSubject_eq_none_iff (hd.subject_fits s hs).1]
    simp

/-- The cut keeps the type, so it is the one that is left by the other edits. -/
theorem fixDraft_type :
    (fixDraft o c d).type = if o.inferType then d.inferredType else d.type := by
  rw [fixDraft_eq, withHeaderWithin_type, edited_type]

theorem fixDraft_scope : (fixDraft o c d).scope = d.scope := by
  rw [fixDraft_eq, withHeaderWithin_scope, edited_scope]

theorem fixDraft_marked : (fixDraft o c d).marked = d.marked := by
  rw [fixDraft_eq, withHeaderWithin_marked, edited_marked]

theorem type_eq_none_of_inferredType (h : d.inferredType = none) : d.type = none :=
  (Option.or_eq_none_iff.mp h).1

/-- No type is inferred from a word whose first letter, in lower case, is in no verb. -/
theorem inferredType_of_head {x y : Char} (htype : d.type = none) (hs : d.subject = some s)
    (hhead : s.head? = some x) (hx : isWhite x = false) (hy : y ∈ Unicode.toLower x)
    (hlower : y.isLower = false) : d.inferredType = none := by
  obtain ⟨rest, rfl⟩ := List.head?_eq_some_iff.mp hhead
  obtain ⟨word, others, hwords⟩ := exists_runs_cons hx rest
  have hmem : y ∈ Text.lowercase (x :: word) :=
    (Text.toLower_isPrefix_lowercase x word).subset hy
  rw [inferredType, htype, hs, Option.none_or, Option.bind_some, Text.words, hwords,
    List.head?_cons, Option.bind_some]
  cases hverb : typeOfVerb? (Text.lowercase (x :: word)) with
  | none => rfl
  | some type =>
    have := isLower_of_typeOfVerb? hverb hmem
    rw [hlower] at this
    cases this

/-- No fix takes a type away. -/
theorem type_eq_none_of_fixDraft (h : (fixDraft o c d).type = none) : d.type = none := by
  rw [fixDraft_type] at h
  split at h
  · exact type_eq_none_of_inferredType h
  · exact h

/-- A subject that is not lost begins as the cased one does, and it is no longer. -/
theorem exists_cut_of_fixDraft (hd : d.HeaderRead) (hs : d.subject = some s)
    (ht : (fixDraft o c d).subject = some t) :
    ∃ u, editedSubject o c.subjectCase s = some u ∧ Cut u t ∧
      t.head? = (if o.adjustCase then recased c.subjectCase s else s).head? := by
  have htight := (hd.subject_fits s hs).1
  have hne : (if o.adjustCase then recased c.subjectCase s else s) ≠ [] := by
    split
    · exact (Tight.recased htight c.subjectCase).ne_nil
    · exact htight.ne_nil
  -- the edits before the cut leave `editedSubject`
  have hsubject : (d.edited o c).subject = editedSubject o c.subjectCase s := by
    rw [edited_subject, hs]
    rfl
  cases hu : editedSubject o c.subjectCase s with
  | none =>
    -- a lost subject stays lost, so there is no `t`
    rw [fixDraft_eq, withHeaderWithin_subject_eq_none_iff.mpr (hsubject.trans hu)] at ht
    cases ht
  | some u =>
    -- taking the stop is a cut as well
    have hcut : Cut (if o.adjustCase then recased c.subjectCase s else s) u := by
      rw [editedSubject] at hu
      split at hu
      · exact cut_of_unstopped hne hu
      · rw [← Option.some.inj hu]
        exact Cut.refl hne
    obtain ⟨w, hwithin, hw⟩ :=
      withHeaderWithin_eq (hsubject.trans hu) hcut.ne_nil c.maxHeaderLength.toNat
    rw [fixDraft_eq, hwithin] at ht
    obtain rfl := Option.some.inj ht
    exact ⟨u, rfl, hw, hw.head.trans hcut.head⟩

/-- A header that is not cut fits, or there is no room for a subject. -/
theorem room_of_not_shortened (h : ¬ d.Shortened c) :
    (fixDraft .all c d).header.length ≤ c.maxHeaderLength.toNat ∨
      c.maxHeaderLength.toNat - (fixDraft .all c d).typePrefix.length ≤ leastSubject := by
  have hsame : fixDraft .all c d = d.edited .all c := not_not.mp h
  rw [hsame]
  exact withHeaderWithin_eq_self_iff.mp ((fixDraft_eq .all c d).symm.trans hsame)

/-- The edited draft has a subject only if the draft has one. An edit changes a subject or drops it,
and makes none. -/
theorem exists_subject_of_fixDraft (hd : d.HeaderRead)
    (hv : (fixDraft o c d).subject = some v) : ∃ s, d.subject = some s := by
  rw [← Option.ne_none_iff_exists']
  intro hnone
  rw [(fixDraft_subject_eq_none_iff hd).mpr (Or.inl hnone)] at hv
  cases hv

/-- The first character of an edited subject is in the right case. Neither the stop nor the cut
touches it. -/
theorem admits_head_fixDraft (hd : d.HeaderRead) (hcase : o.adjustCase = true) :
    ∀ v ∈ (fixDraft o c d).subject, ∀ x ∈ v.head?, c.subjectCase.admits x = true := by
  intro v hv x hx
  obtain ⟨s, hs⟩ := exists_subject_of_fixDraft hd hv
  obtain ⟨u, -, -, hhead⟩ := exists_cut_of_fixDraft hd hs hv
  rw [hhead, if_pos hcase] at hx
  exact admits_head_recased x hx

end Draft

end ConventionalCommit
