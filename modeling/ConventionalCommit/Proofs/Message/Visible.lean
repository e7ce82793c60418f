import ConventionalCommit.Message.Draft
import ConventionalCommit.Proofs.Message.HeaderFields
import ConventionalCommit.Proofs.Text.Visible

/-!
# ConventionalCommit — what shows of a message

Reading a message sorts its lines into sections, and only blank lines belong to none. So
the header, the body and the footer together show all that the message shows, once and in
order (`visible_sections`). Writing them again keeps all of it except for the header, of
which a type without a subject and the parentheses of a blank scope are not written
(`HeaderShows`).

* `visible_header_readHeader_iff`: when the header that is written shows what the line
  showed;
* `visible_parse`: both results, for every message.
-/

namespace ConventionalCommit

open Unicode (isWhite isWordChar)
open Text (visible trimmed? lines unlines isBlank)

variable {raw line s : Text} {body footer : Option Text} {p : Header}

-- ---------------------------------------------------------------------------
-- Reading
-- ---------------------------------------------------------------------------

/-- The sections of a message show what the message shows, in order. What is left out between them
are blank lines. -/
theorem visible_sections (raw : Text) :
    visible (Message.parse raw).header ++ visible ((Message.parse raw).body.getD []) ++
      visible ((Message.parse raw).footer.getD []) = visible raw := by
  have hsplit := congrArg (List.flatMap visible) (Sections.append_eq (lines raw))
  have hgap : (Sections.ofLines (lines raw)).gap.flatMap visible = [] :=
    Text.flatMap_visible_of_isBlank fun l hl => Text.of_mem_takeWhile hl
  have htrailing : (Sections.ofLines (lines raw)).trailing.flatMap visible = [] :=
    Text.flatMap_visible_of_isBlank fun l hl => Text.of_mem_takeWhile (List.mem_reverse.mp hl)
  simp only [List.flatMap_append, hgap, htrailing, List.nil_append, List.append_nil,
    Text.flatMap_visible_lines] at hsplit
  simp only [Message.parse, Text.visible_trimmed, Text.visible_flatten, Text.visible_unlines]
  rw [List.append_assoc, hsplit]

-- ---------------------------------------------------------------------------
-- Writing
-- ---------------------------------------------------------------------------

/-- Writing the header keeps all that shows of it: a type has a subject after it, and a
scope in parentheses is not blank. -/
structure HeaderShows (m : Message) : Prop where
  subject : m.type ≠ none → m.subject ≠ none
  scope : ∀ p : Header, p.WellFormed → p.text = m.header → ∀ s ∈ p.scope, isBlank s = false

namespace Draft

theorem visible_sectionText (section? : Option Text) :
    visible (sectionText section?) = visible (section?.getD []) := by
  cases section? with
  | none => rfl
  | some t => simp [sectionText, visible]

/-- A written draft shows its header, its body and its footer, in this order. -/
theorem visible_render (d : Draft) : visible d.render =
    visible d.header ++ visible (d.body.getD []) ++ visible (d.footer.getD []) := by
  rw [render, Text.visible_append, Text.visible_append, visible_sectionText, visible_sectionText]

/-- The parentheses of a scope show unless the scope is blank. A blank one is dropped together with
its parentheses, and these are not white space. -/
theorem visible_scopeText_iff (scope : Option Text) :
    visible (Header.scopeText (scope.bind trimmed?)) = visible (Header.scopeText scope) ↔
      ∀ s ∈ scope, isBlank s = false := by
  have hparen : ∀ t : Text, visible (Header.scopeText (some t)) = '(' :: (visible t ++ [')']) :=
    fun t => by
      rw [Header.scopeText, Text.visible_cons rfl, Text.visible_append]
      rfl
  cases scope with
  | none => simp
  | some s =>
    simp only [Option.bind_some, Option.mem_some_iff, forall_eq', hparen]
    have htrim := Text.visible_trimmed s
    cases ht : trimmed? s with
    | none =>
      -- a blank scope is dropped with its parentheses
      rw [Text.trimmed?_eq_none_iff_isBlank.mp ht]
      simp [Header.scopeText]
    | some u =>
      rw [ht, Option.getD_some] at htrim
      rw [hparen, htrim, Bool.eq_false_iff]
      refine iff_of_true rfl fun hblank => ?_
      rw [Text.trimmed?_eq_none_iff_isBlank.mpr hblank] at ht
      cases ht

/-- The header that is written shows what the line shows, unless a type or a pair of
parentheses is lost. -/
theorem visible_header_readHeader_iff (line : Text) (body footer : Option Text) :
    visible (readHeader line body footer).header = visible line ↔
      ((readHeader line body footer).type ≠ none → (readHeader line body footer).subject ≠ none) ∧
        ∀ p : Header, p.WellFormed → p.text = line → ∀ s ∈ p.scope, isBlank s = false := by
  cases hr : Header.read? line with
  | none =>
    have hno : ∀ p : Header, p.WellFormed → p.text ≠ line := fun p wf htext => by
      rw [Header.read?_eq_some_iff.mpr ⟨wf, htext⟩] at hr
      cases hr
    have htrim := Text.visible_trimmed line
    rw [readHeader_untyped hr]
    refine iff_of_true ?_ ⟨fun h => absurd rfl h, fun p wf htext => absurd htext (hno p wf)⟩
    cases hs : trimmed? line with
    | none => rw [← htrim, hs]; rfl
    | some s => rw [← htrim, hs]; rfl
  | some p =>
    obtain ⟨wf, htext⟩ := Header.read?_eq_some_iff.mp hr
    have honly : ∀ q : Header, q.WellFormed → q.text = line → q = p := fun q hq hqtext =>
      hq.eq_of_text_eq wf (hqtext.trans htext.symm)
    have hgap : visible p.gap = [] :=
      Text.visible_eq_nil_iff.mpr (Text.isBlank_iff.mpr wf.gap_white)
    have hscopes : (∀ q : Header, q.WellFormed → q.text = line → ∀ s ∈ q.scope,
        isBlank s = false) ↔ ∀ s ∈ p.scope, isBlank s = false :=
      ⟨fun h => h p wf htext, fun h q hq hqtext => honly q hq hqtext ▸ h⟩
    have htrim := Text.visible_trimmed p.subject
    rw [hscopes, readHeader_of_read? hr]
    subst htext
    cases hs : trimmed? p.subject with
    | none =>
      -- the type shows in the line, and nothing of it is written
      refine iff_of_false (fun hsame => ?_) fun h => h.1 (Option.some_ne_none _) rfl
      obtain ⟨ch, rest, htype⟩ := List.exists_cons_of_ne_nil wf.type_ne_nil
      have hch := wf.type_word ch (htype ▸ List.mem_cons_self ..)
      rw [header_of_subject_none rfl, Header.text, htype, List.cons_append, List.cons_append,
        List.cons_append, Text.visible_cons (Unicode.isWhite_eq_false_of_isWordChar hch)] at hsame
      cases hsame
    | some s =>
      rw [hs, Option.getD_some] at htrim
      rw [header_of_subject rfl, typePrefix, Header.text]
      simp only [Text.visible_append, Text.visible_cons (show isWhite ':' = false from rfl),
        Text.visible_cons_of_isWhite Unicode.isWhite_space, hgap, htrim,
        List.append_assoc, List.cons_append, List.nil_append, List.append_cancel_left_eq,
        List.append_cancel_right_eq, visible_scopeText_iff]
      exact (and_iff_right fun _ => Option.some_ne_none s).symm

end Draft

/--
The header, the body and the footer of a message show what the message shows, in order. Writing
the message again shows the same exactly if the header keeps all that shows of it.
-/
theorem visible_parse (raw : Text) :
    visible (Message.parse raw).header ++ visible ((Message.parse raw).body.getD []) ++
        visible ((Message.parse raw).footer.getD []) = visible raw ∧
      (visible (Message.parse raw).render = visible raw ↔ HeaderShows (Message.parse raw)) := by
  refine ⟨visible_sections raw, ?_⟩
  have hiff := Draft.visible_header_readHeader_iff (Message.parse raw).header
    (Message.parse raw).body (Message.parse raw).footer
  rw [← Draft.ofMessage_parse] at hiff
  conv_lhs => rw [← visible_sections raw, Message.render, Draft.visible_render]
  rw [List.append_assoc, List.append_assoc, Draft.ofMessage_body, Draft.ofMessage_footer,
    List.append_cancel_right_eq, hiff]
  exact ⟨fun h => ⟨h.1, h.2⟩, fun h => ⟨h.subject, h.scope⟩⟩

end ConventionalCommit
