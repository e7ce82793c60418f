import ConventionalCommit.Cli.Run
import ConventionalCommit.Proofs.Fix.Rereading
import ConventionalCommit.Proofs.Fix.Subject
import ConventionalCommit.Proofs.Fix.Termination
import ConventionalCommit.Proofs.Text.LineHeads

/-!
# ConventionalCommit — comments in a fixed message

Comments are dropped when a message is read, so no line of it begins with the comment
character, but the fixes know nothing of comments. A line of a fixed message begins with the
character in three places only: where white space was trimmed from the start of the first
line, or from the start of the body, and where wrapping breaks a line before it
(`Uncommented`). Such a line is gone when the message is read the next time.

* `Draft.head?_header_fixDraft`: the first line begins with the character after the fixes if
  it did before;
* `startsRow_fixMessage_iff`: which fixed messages have such a line;
* `lines_fixedText_iff`: the same for what is printed, and what reading it again drops.
-/

namespace ConventionalCommit

open Unicode (isWhite isWordChar)
open Text (Tight trimmed? lines unlines StartsRow PutsFirst)

variable {o : FixOptions} {c : Config} {d : Draft} {f line m s t : Text} {x : Char}

-- ---------------------------------------------------------------------------
-- The start of the first line
-- ---------------------------------------------------------------------------

/-- The comment character has no case, so changing the case of a subject makes no comment of it. -/
theorem SubjectCase.caseless_comment : Caseless '#' :=
  .of_unreached (by decide +kernel) fun case => by cases case <;> decide +kernel

/-- A trimmed text begins with what the text begins with behind its white space. For a blank text
there is neither. -/
theorem Text.exists_trimmed?_head_iff (hx : isWhite x = false) :
    (∃ u ∈ trimmed? t, u.head? = some x) ↔ t.trimStart.head? = some x := by
  cases h : trimmed? t with
  | none =>
    have hblank := trimmed?_eq_none_iff_isBlank.mp h
    rw [← Sections.isBlank_trimStart] at hblank
    refine iff_of_false (by simp) fun hhead => ?_
    rw [isBlank_eq_false_of_mem (List.mem_of_mem_head? hhead) hx] at hblank
    cases hblank
  | some u =>
    have htight := Tight.of_trimmed? h
    obtain ⟨front, back, rfl, hfront, -⟩ := exists_of_trimmed? h
    -- white space at the start goes either way, and the end does not matter
    have hstart : trimStart (front ++ u ++ back) = u ++ back := by
      rw [List.append_assoc]
      refine dropWhile_append_of_head (isBlank_iff.mp hfront) fun c hc => htight.head c ?_
      rwa [List.head?_append_of_ne_nil _ htight.ne_nil] at hc
    rw [hstart, List.head?_append_of_ne_nil _ htight.ne_nil]
    simp

namespace Draft

/-- A header begins with a character that belongs to no word if it has no type and its
subject begins so. -/
theorem HeaderFit.head?_header_iff (hd : d.HeaderFit) (hx : isWordChar x = false) :
    d.header.head? = some x ↔ d.type = none ∧ ∃ s ∈ d.subject, s.head? = some x := by
  cases hs : d.subject with
  | none => simp [header_of_subject_none hs]
  | some s =>
    rw [header_of_subject hs]
    cases ht : d.type with
    | none => simp [typePrefix_of_type_none ht]
    | some t =>
      obtain ⟨hne, hword⟩ := hd.fields.type_word t ht
      obtain ⟨ch, rest, rfl⟩ := List.exists_cons_of_ne_nil hne
      refine iff_of_false (fun hhead => ?_) fun h => Option.some_ne_none _ h.1
      rw [typePrefix, ht] at hhead
      obtain rfl : ch = x := by simpa using hhead
      rw [hword ch (List.mem_cons_self ..)] at hx
      cases hx

/-- The header that is read begins as the line does without the white space at its start. -/
theorem head?_header_readHeader (hword : isWordChar x = false) (hx : isWhite x = false)
    (hline : '\n' ∉ line) {body footer : Option Text} :
    (readHeader line body footer).header.head? = some x ↔ line.trimStart.head? = some x := by
  rw [(headerRead_readHeader hline body footer).headerFit.head?_header_iff hword,
    ← Text.exists_trimmed?_head_iff hx]
  cases hr : Header.read? line with
  | none =>
    rw [readHeader_untyped hr]
    exact and_iff_right rfl
  | some p =>
    -- a header begins with a word, which no trimming takes away
    obtain ⟨wf, rfl⟩ := Header.read?_eq_some_iff.mp hr
    obtain ⟨ch, rest, htype⟩ := List.exists_cons_of_ne_nil wf.type_ne_nil
    have hch := wf.type_word ch (htype ▸ List.mem_cons_self ..)
    have hstart : p.text.trimStart = p.text := Text.trimStart_eq_self fun y hy => by
      rw [Header.text, htype] at hy
      rw [← show ch = y by simpa using hy]
      exact Unicode.isWhite_eq_false_of_isWordChar hch
    rw [readHeader, hr]
    refine iff_of_false (fun h => Option.some_ne_none _ h.1) fun hhead => ?_
    rw [Text.exists_trimmed?_head_iff hx, hstart, Header.text, htype] at hhead
    rw [show ch = x by simpa using hhead, hword] at hch
    cases hch

/-- The fixes neither bring the comment character to the start of a header nor take it away. -/
theorem head?_header_fixDraft (hd : d.HeaderRead) :
    (fixDraft o c d).header.head? = some '#' ↔ d.header.head? = some '#' := by
  have hword : isWordChar '#' = false := by decide +kernel
  -- the comment character has no case, so casing cannot make it or take it away
  have hcased : ∀ s : Text, (if o.adjustCase then recased c.subjectCase s else s).head? = some '#' ↔
      s.head? = some '#' := by
    intro s
    split
    · exact head?_recased_eq_some_iff SubjectCase.caseless_comment
    · rfl
  rw [(headerFit_fixDraft hd).head?_header_iff hword, hd.headerFit.head?_header_iff hword]
  constructor
  · rintro ⟨hnone, v, hv, hhead⟩
    obtain ⟨s, hs⟩ := exists_subject_of_fixDraft hd hv
    obtain ⟨-, -, -, hsame⟩ := exists_cut_of_fixDraft hd hs hv
    exact ⟨type_eq_none_of_fixDraft hnone, s, hs, (hcased s).mp (hsame.symm.trans hhead)⟩
  · rintro ⟨htype, s, hs, hhead⟩
    -- no type is inferred from a word that starts so, and the line still starts with the subject
    have hinferred : d.inferredType = none :=
      inferredType_of_head htype hs hhead rfl (by decide +kernel : '#' ∈ Unicode.toLower '#') rfl
    have hnone : (fixDraft o c d).type = none := by
      rw [fixDraft_type, hinferred, htype, ite_self]
    obtain ⟨v, hv⟩ : ∃ v, (fixDraft o c d).subject = some v := by
      rw [← Option.ne_none_iff_exists', ne_eq, fixDraft_subject_eq_none_iff hd, hs]
      rintro (h | ⟨-, h⟩)
      · cases h
      · rw [Option.some.inj h] at hhead
        cases hhead
    obtain ⟨-, -, -, hsame⟩ := exists_cut_of_fixDraft hd hs hv
    exact ⟨hnone, v, hv, hsame.trans ((hcased s).mpr hhead)⟩

-- ---------------------------------------------------------------------------
-- The rows of a text that is written
-- ---------------------------------------------------------------------------

/-- A section begins on rows of its own, behind a blank one. -/
theorem startsRow_append_section (t : Text) (section? : Option Text) :
    StartsRow x (t ++ sectionText section?) ↔
      StartsRow x t ∨ ∃ u ∈ section?, StartsRow x u := by
  cases section? with
  | none => simp [sectionText]
  | some u => simp [sectionText, Text.startsRow_append_newline]

/-- The rows of a written draft are its header and those of its sections. -/
theorem startsRow_render (hh : '\n' ∉ d.header) : StartsRow x d.render ↔
    d.header.head? = some x ∨ (∃ b ∈ d.body, StartsRow x b) ∨ ∃ f ∈ d.footer, StartsRow x f := by
  rw [render, startsRow_append_section, startsRow_append_section,
    Text.startsRow_iff_of_not_mem hh, or_assoc]

end Draft

/-- A footer that is read begins as one of the lines does. Its first line is a trailer, which begins
without white space, so trimming leaves the start of it. -/
theorem Sections.Reads.head?_footer {ls : List Text} {body footer : Option Text}
    (h : Reads ls body footer) (hf : f ∈ footer) : ∃ l ∈ ls, f.head? = l.head? := by
  rw [h.2] at hf
  have hne := footerOf_ne_nil hf
  obtain ⟨hfirst, -⟩ := footerOf_ends hne
  have hsub : footerOf ls ⊆ ls := (footerOf_suffix ls).subset
  generalize footerOf ls = lines at *
  obtain ⟨l, rest, rfl⟩ := List.exists_cons_of_ne_nil hne
  obtain ⟨ch, tail, rfl, hch⟩ := Trailer.isTrailerLine_head (by simpa using hfirst)
  have hhead := Text.head?_unlines_cons (List.cons_ne_nil ch tail) rest
  obtain ⟨back, hback, -⟩ := Text.exists_append_of_trimmed? (fun y hy => by
    rw [hhead] at hy
    rwa [← Option.some.inj hy]) hf
  refine ⟨ch :: tail, hsub (List.mem_cons_self ..), ?_⟩
  rw [← hhead, hback, List.head?_append_of_ne_nil _ (Tight.of_trimmed? hf).ne_nil]

-- ---------------------------------------------------------------------------
-- Comments
-- ---------------------------------------------------------------------------

namespace Cli

/-- Nothing that is left is a comment. The lines that are kept are joined and read again, and that
does not make new lines of them. -/
theorem not_comment_of_mem_lines (raw : Text) :
    ∀ l ∈ (withoutComments raw).lines, l.head? ≠ some '#' := by
  intro l hl hhead
  have hstarts := (Text.exists_line_head_iff (by decide)).mp ⟨l, hl, hhead⟩
  rw [withoutComments, Text.startsRow_unlines fun l hl =>
    Text.not_mem_of_mem_lines (List.mem_of_mem_filter hl)] at hstarts
  obtain ⟨l, hl, hhead⟩ := hstarts
  have hkept := (List.mem_filter.mp hl).2
  simp [hhead] at hkept

/-- No line is dropped exactly if none is a comment. Endings of lines are normalised in any case, so
the text is compared with its own lines. -/
theorem withoutComments_eq_iff :
    withoutComments t = unlines (lines t) ↔ ∀ l ∈ lines t, l.head? ≠ some '#' := by
  constructor
  · intro hsame l hl hhead
    have hstarts : StartsRow '#' (unlines (lines t)) :=
      (Text.startsRow_unlines fun _ hl => Text.not_mem_of_mem_lines hl).mpr ⟨l, hl, hhead⟩
    rw [← hsame, ← Text.exists_line_head_iff (by decide)] at hstarts
    obtain ⟨l, hl, hhead⟩ := hstarts
    exact not_comment_of_mem_lines t l hl hhead
  · intro hno
    rw [withoutComments, List.filter_eq_self.mpr fun l hl => by simpa using hno l hl]

end Cli

/-- The fixes make no comment of a line: the first line does not begin with the comment
character behind white space that is trimmed, the body neither, and no row of the body that is
wrapped begins with the character. -/
structure Uncommented (o : FixOptions) (c : Config) (m : Message) : Prop where
  header : m.header.trimStart.head? ≠ some '#'
  body : ∀ b ∈ m.body, b.head? ≠ some '#'
  rows : o.wrapBody = true → ∀ b ∈ m.body, ∀ l ∈ lines b,
    ¬ PutsFirst (max c.maxLineLength.toNat 1) '#' l

theorem not_startsRow_core (hm : ∀ l ∈ lines m, l.head? ≠ some '#') :
    ¬ StartsRow '#' (unlines (Sections.core ((lines m).drop 1))) := by
  have hsub := Sections.core_drop_subset (lines m)
  rw [Text.startsRow_unlines fun l hl => Text.not_mem_of_mem_lines (hsub hl)]
  rintro ⟨l, hl, hhead⟩
  exact hm l (hsub hl) hhead

/-- Trimming a footer uncovers no comment, because the first line of it is a trailer. -/
theorem not_startsRow_footer (hm : ∀ l ∈ lines m, l.head? ≠ some '#') :
    ∀ f ∈ (Message.parse m).footer, ¬ StartsRow '#' f := by
  intro f hf hstarts
  have hreads := Sections.reads_core m
  rw [Text.startsRow_iff_of_isInfix (by decide) (hreads.isInfix_footer hf)
    (not_startsRow_core hm)] at hstarts
  obtain ⟨l, hl, hhead⟩ := hreads.head?_footer hf
  refine hm l (Sections.core_drop_subset _ hl) ?_
  rw [← hhead, hstarts]

/-- A fixed body has a comment on some row only at its very start, where white space was trimmed, or
where wrapping puts one first. -/
theorem startsRow_fixedBody_iff (hm : ∀ l ∈ lines m, l.head? ≠ some '#') :
    (∃ y ∈ Draft.fixedBody o c (Message.parse m).body, StartsRow '#' y) ↔
      ∃ b ∈ (Message.parse m).body, b.head? = some '#' ∨
        o.wrapBody = true ∧ ∃ l ∈ lines b, PutsFirst (max c.maxLineLength.toNat 1) '#' l := by
  have hnone := not_startsRow_core hm
  rw [Draft.fixedBody]
  cases hb : (Message.parse m).body with
  | none => simp
  | some b =>
    have hpart := (Sections.reads_core m).isInfix_body hb
    cases hon : o.wrapBody with
    | true => simp [Text.startsRow_wrap_iff_of_isInfix (by decide) hpart hnone]
    | false => simp [Text.startsRow_iff_of_isInfix (by decide) hpart hnone]

/-- A fixed message has a row that begins with the comment character exactly if the fixes make
one of it, given that the message has none. -/
theorem startsRow_fixMessage_iff (hm : ∀ l ∈ lines m, l.head? ≠ some '#')
    (h : fixMessage o c m = some t) : StartsRow '#' t ↔ ¬ Uncommented o c (Message.parse m) := by
  have hd := Draft.headerRead_ofMessage m
  obtain ⟨hbody, hfooter⟩ := Draft.fixDraft_sections (o := o) (c := c) hd
  have hheader : (fixDraft o c (Draft.ofMessage (Message.parse m))).header.head? = some '#' ↔
      (Message.parse m).header.trimStart.head? = some '#' := by
    rw [Draft.head?_header_fixDraft hd, Draft.ofMessage_parse]
    exact Draft.head?_header_readHeader (by decide +kernel) (by decide)
      (Draft.not_mem_header_parse m)
  -- the rows of the whole text, section by section
  rw [eq_render_of_fixMessage h, Draft.startsRow_render (Draft.not_mem_header_fixDraft hd), hbody,
    hfooter, Draft.ofMessage_body, Draft.ofMessage_footer, hheader, startsRow_fixedBody_iff hm]
  constructor
  · rintro (hhead | ⟨b, hb, hhead | ⟨hon, l, hl, hputs⟩⟩ | ⟨f, hf, hstarts⟩) hun
    · exact hun.header hhead
    · exact hun.body b hb hhead
    · exact hun.rows hon b hb l hl hputs
    · -- the footer is copied, and no line of the message begins so
      exact not_startsRow_footer hm f hf hstarts
  · intro hun
    by_contra hno
    rw [not_or, not_or] at hno
    exact hun ⟨hno.1, fun b hb hhead => hno.2.1 ⟨b, hb, Or.inl hhead⟩,
      fun hon b hb l hl hputs => hno.2.1 ⟨b, hb, Or.inr ⟨hon, l, hl, hputs⟩⟩⟩

-- ---------------------------------------------------------------------------
-- What is printed
-- ---------------------------------------------------------------------------

namespace Cli

/-- The message that is printed: after the fixes, or as it was without any. -/
def fixedText (o : FixOptions) (c : Config) (message : Text) : Text :=
  (fixMessage o c message).getD message

theorem stdout_fixOutcome (colours : Bool) :
    (fixOutcome colours c o m).stdout = fixedText o c m ++ ['\n'] := rfl

/--
No line of a fixed message begins with the comment character, and none is dropped when it is
read again, exactly if nothing was fixed or the fixes made a comment of nothing.
-/
theorem lines_fixedText_iff (o : FixOptions) (c : Config) (raw : Text) :
    let m := withoutComments raw
    ((∀ l ∈ lines (fixedText o c m), l.head? ≠ some '#') ↔
      fixMessage o c m = none ∨ Uncommented o c (Message.parse m)) ∧
    (withoutComments (fixedText o c m) = unlines (lines (fixedText o c m)) ↔
      fixMessage o c m = none ∨ Uncommented o c (Message.parse m)) := by
  intro m
  -- the comments of the input are gone already
  have hm : ∀ l ∈ lines m, l.head? ≠ some '#' := not_comment_of_mem_lines raw
  have hlines : (∀ l ∈ lines (fixedText o c m), l.head? ≠ some '#') ↔
      fixMessage o c m = none ∨ Uncommented o c (Message.parse m) := by
    cases h : fixMessage o c m with
    | none =>
      rw [fixedText, h]
      exact iff_of_true hm (Or.inl rfl)
    | some t =>
      rw [fixedText, h, Option.getD_some, or_iff_right (Option.some_ne_none t), ← not_iff_not,
        ← startsRow_fixMessage_iff hm h, ← Text.exists_line_head_iff (by decide)]
      simp
  exact ⟨hlines, withoutComments_eq_iff.trans hlines⟩

theorem lines_fixedText_wrapped :
    ¬ ∀ (o : FixOptions) (c : Config) (raw : Text),
      (∀ l ∈ lines (fixedText o c (withoutComments raw)), l.head? ≠ some '#') ∧
        withoutComments (fixedText o c (withoutComments raw)) =
          unlines (lines (fixedText o c (withoutComments raw))) := by
  intro hall
  have hno := (hall .all { Config.default with maxLineLength := 10 } "fix: x

see issue #12
".toList).1
  have hfixed : fixedText .all { Config.default with maxLineLength := 10 }
      (withoutComments "fix: x

see issue #12
".toList) = "fix: x

see issue
#12".toList := by decide +kernel
  rw [hfixed] at hno
  exact hno "#12".toList (by decide +kernel) rfl

end Cli

end ConventionalCommit
