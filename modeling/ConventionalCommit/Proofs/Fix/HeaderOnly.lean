import ConventionalCommit.Proofs.Fix.Kept
import ConventionalCommit.Proofs.Message.Clean
import ConventionalCommit.Proofs.Unicode.Words

/-!
# ConventionalCommit — fixes that leave the body as it is

Without wrapping, the fixes edit the header only, and of a clean message everything else is
read again as it was. What could go wrong is the first line: a subject without a type may
become a line that the header pattern fits. No cut does that, nor does the loss of a full
stop, because what makes a line a header stands at its start and ends in white space. The
case of the first character does it only where it makes a word character of what was none
(`BecomesHeader`).

* `Draft.fits_recased`, `Draft.fits_of_fixDraft`: whether the header pattern fits a subject
  before and after the fixes;
* `HeaderFixed.keeps_iff`: what is read from a fixed header;
* `clean_headerFixKeeps_iff`: what a fix keeps of a clean message.
-/

namespace ConventionalCommit

open Unicode (isWhite isWordChar youngCapitals)
open Text (dropReturn)

variable {o : FixOptions} {c : Config} {case : SubjectCase} {d : Draft} {m m' : Message}
  {raw raw' s t v w : Text} {ch x : Char}

-- ---------------------------------------------------------------------------
-- Words and the case of their first character
-- ---------------------------------------------------------------------------

namespace SubjectCase

/-- No form of a character is a word character unless the character is one, apart from the
small forms of two capitals. -/
theorem isWordChar_of_mem_convert (hx : x ∈ case.convert ch) (hword : isWordChar x = true) :
    isWordChar ch = true ∨ case = .lower ∧ ch ∈ youngCapitals := by
  cases case with
  | lower =>
    exact (Unicode.lowerMapping_wordsFrom.isWordChar_of_mem_map Unicode.lowerMapping_closed hx
      hword).imp_right fun h => ⟨rfl, h⟩
  | sentence =>
    exact (Unicode.upperMapping_wordsFrom.isWordChar_of_mem_map Unicode.upperMapping_closed hx
      hword).imp_right fun h => absurd h List.not_mem_nil
  | any => exact Or.inl (List.mem_singleton.mp hx ▸ hword)

/-- A form that begins with a word character is a word. A form of one character is that character,
and by the tables the longer ones are made of word characters only. -/
theorem isWordChar_convert {tail : Text} (h : case.convert ch = x :: tail)
    (hx : isWordChar x = true) : ∀ y ∈ case.convert ch, isWordChar y = true := by
  have hforms : (∃ y, case.convert ch = [y]) ∨ ∀ y ∈ case.convert ch, isWordChar y = true := by
    cases case with
    | lower => exact Unicode.lowerMapping_wordsFrom.eq_singleton_or ch
    | sentence => exact Unicode.upperMapping_wordsFrom.eq_singleton_or ch
    | any => exact Or.inl ⟨ch, rfl⟩
  rcases hforms with ⟨y, hy⟩ | hall
  · obtain ⟨rfl, rfl⟩ := List.cons.inj (h.symm.trans hy)
    intro z hz
    rw [h, List.mem_singleton] at hz
    rw [hz, hx]
  · exact hall

end SubjectCase

/-- The subject begins with a capital that is no word character, although its small form
is one. -/
def BeginsYoung (s : Text) : Prop := ∃ x ∈ s.head?, x ∈ youngCapitals

/-- No type is inferred from a subject that begins with such a capital, because no verb does. -/
theorem BeginsYoung.inferredType (htype : d.type = none) (hs : d.subject = some s)
    (h : BeginsYoung s) : d.inferredType = none := by
  obtain ⟨x, hx, hyoung⟩ := h
  have hletters : (youngCapitals.all fun x =>
      !isWhite x && (Unicode.toLower x).any fun y => !y.isLower) = true := by
    decide +kernel
  have hletter := List.all_eq_true.mp hletters x hyoung
  rw [Bool.and_eq_true, Bool.not_eq_true', List.any_eq_true] at hletter
  obtain ⟨hwhite, y, hy, hlower⟩ := hletter
  exact Draft.inferredType_of_head htype hs hx hwhite hy (by simpa using hlower)

namespace Draft

/-- With its first character in another case, a subject is no header either, unless that
character becomes a word character. -/
theorem fits_recased (h : Header.Fits (recased case s)) :
    Header.Fits s ∨ case = .lower ∧ BeginsYoung s := by
  cases s with
  | nil => exact Or.inl h
  | cons first rest =>
    cases hadmits : case.admits first with
    | true =>
      rw [recased, if_pos hadmits] at h
      exact Or.inl h
    | false =>
      obtain ⟨x, tail, hrecased, hconvert, -⟩ := recased_cons_of_not_admits hadmits rest
      rw [hrecased] at h
      obtain ⟨y, hy, hword⟩ := h.head
      obtain rfl : x = y := by simpa using hy
      rcases SubjectCase.isWordChar_of_mem_convert (hconvert ▸ List.mem_cons_self ..) hword with
        hfirst | ⟨hlower, hyoung⟩
      · left
        -- both forms are words, and it does not matter with which word a header begins
        have hfront := SubjectCase.isWordChar_convert hconvert hword
        rw [hconvert] at hfront
        refine Header.Fits.of_word hfront (List.cons_ne_nil first []) (fun y hy => ?_) h
        rw [List.mem_singleton.mp hy, hfirst]
      · exact Or.inr ⟨hlower, first, rfl, hyoung⟩

theorem fits_of_unstopped (hu : unstopped s = some t) (h : Header.Fits t) : Header.Fits s := by
  rcases of_unstopped_eq_some hu with ⟨-, rfl⟩ | rfl
  · exact h
  · exact h.of_isPrefix (List.prefix_append t ['.'])

/-- The edits make a header of a subject only by the case of its first character. -/
theorem fits_of_editedSubject (hu : editedSubject o case s = some t) (h : Header.Fits t) :
    Header.Fits s ∨ o.adjustCase = true ∧ case = .lower ∧ BeginsYoung s := by
  have hcased : Header.Fits (if o.adjustCase then recased case s else s) := by
    unfold editedSubject at hu
    dsimp only at hu
    split at hu
    · exact fits_of_unstopped hu h
    · rwa [Option.some.inj hu]
  split at hcased
  · next hon => exact (fits_recased hcased).imp_right fun hyoung => ⟨hon, hyoung⟩
  · exact Or.inl hcased

/-- Nor does the cut make a header of it: there is no white space in an ellipsis. -/
theorem fits_of_fixDraft (hs : d.subject = some s) (hv : (fixDraft o c d).subject = some v)
    (h : Header.Fits v) :
    Header.Fits s ∨ o.adjustCase = true ∧ c.subjectCase = .lower ∧ BeginsYoung s := by
  have hedited : (d.edited o c).subject = editedSubject o c.subjectCase s := by
    rw [edited_subject, hs, Option.bind_some]
  rw [fixDraft_eq] at hv
  rcases withHeaderWithin_cases c.maxHeaderLength.toNat (d.edited o c) with
    ⟨hsame, -⟩ | ⟨u, hu, -, -, hcut⟩
  · rw [hsame, hedited] at hv
    exact fits_of_editedSubject hv h
  · rw [hcut] at hv
    obtain rfl := Option.some.inj hv
    have hellipsis : ∀ y ∈ ellipsis, isWhite y = false := fun y hy => by
      rw [List.eq_of_mem_replicate (n := 3) hy]
      rfl
    -- the pattern needs white space after the colon, so it fits what was kept
    have hfront := h.of_append hellipsis
    exact fits_of_editedSubject (hedited.symm.trans hu) (hfront.of_isPrefix (List.take_prefix _ u))

-- ---------------------------------------------------------------------------
-- The type that is inferred
-- ---------------------------------------------------------------------------

/-- Without a type the first word of the subject decides which one is inferred. -/
theorem inferredType_of_word (htype : d.type = none) (hs : d.subject = some s)
    (hw : s.words.head? = some w) : d.inferredType = typeOfVerb? w.lowercase := by
  rw [inferredType, htype, hs, Option.none_or, Option.bind_some, hw, Option.bind_some]

/-- A type that is inferred comes of the first word of the subject. -/
theorem inferredType_eq_none_or (htype : d.type = none) : d.inferredType = none ∨
    ∃ s ∈ d.subject, ∃ w ∈ s.words.head?, d.inferredType = typeOfVerb? w.lowercase := by
  cases hword : d.subject.bind (·.words.head?) with
  | none =>
    left
    rw [inferredType, htype, hword]
    rfl
  | some w =>
    obtain ⟨s, hs, hw⟩ := Option.bind_eq_some_iff.mp hword
    exact Or.inr ⟨s, hs, w, hw, inferredType_of_word htype hs hw⟩

end Draft

-- ---------------------------------------------------------------------------
-- What is read from the fixed message
-- ---------------------------------------------------------------------------

/-- All of the message but the subject is as it was, unless a type was inferred from the
first word of the subject. -/
structure HeaderFixKeeps (o : FixOptions) (m m' : Message) : Prop where
  scope : m'.scope = m.scope
  marked : m'.marked = m.marked
  body : m'.body = m.body
  footer : m'.footer = m.footer
  isBreaking : m'.isBreaking = m.isBreaking
  type : ∀ t, m.type = some t → m'.type = some t
  inferred : m.type = none → m'.type = none ∨ o.inferType = true ∧
    ∃ s ∈ m.subject, ∃ w ∈ s.words.head?, m'.type = typeOfVerb? w.lowercase

/-- A subject without a type begins with a young capital, which the fix takes to lower case,
and `line`, the first line that this makes, is one that the header pattern fits. -/
structure BecomesHeader (o : FixOptions) (c : Config) (m : Message) (line : Text) : Prop where
  untyped : m.type = none
  adjusts : o.adjustCase = true
  lower : c.subjectCase = .lower
  young : ∃ s ∈ m.subject, BeginsYoung s
  fits : Header.Fits line

/-- The header pattern fits a first line without a type only by the case of its first
character, if it does not fit the subject before. -/
theorem BecomesHeader.of_fits {line : Text} (hd : (Draft.ofMessage m).HeaderRead)
    (hunfit : m.type = none → ∀ s ∈ m.subject, ¬ Header.Fits s)
    (hline : line = (fixDraft o c (Draft.ofMessage m)).header ∨
      line = dropReturn (fixDraft o c (Draft.ofMessage m)).header)
    (htype : (fixDraft o c (Draft.ofMessage m)).type = none) (hfits : Header.Fits line) :
    BecomesHeader o c m line := by
  have huntyped : m.type = none := Draft.type_eq_none_of_fixDraft htype
  have hheader : Header.Fits (fixDraft o c (Draft.ofMessage m)).header := by
    rcases hline with hline | hline
    · rwa [hline] at hfits
    · -- the return that the line lost stood in the subject, so the pattern fits with it too
      rw [hline] at hfits
      exact hfits.of_isPrefix (Text.dropReturn_isPrefix _)
  cases hv : (fixDraft o c (Draft.ofMessage m)).subject with
  | none =>
    rw [Draft.header_of_subject_none hv] at hheader
    obtain ⟨x, hx, -⟩ := hheader.head
    cases hx
  | some v =>
    rw [Draft.header_of_subject hv, Draft.typePrefix_of_type_none htype, List.nil_append] at hheader
    obtain ⟨s, hs⟩ := Draft.exists_subject_of_fixDraft hd hv
    -- the pattern fits the subject before, or only the small form of its first character is a word
    rcases Draft.fits_of_fixDraft hs hv hheader with hbefore | ⟨hon, hlower, hyoung⟩
    · exact absurd hbefore (hunfit huntyped s hs)
    · exact ⟨huntyped, hon, hlower, ⟨s, hs, hyoung⟩, hfits⟩

/-- Whether a change is breaking depends on the mark and the footer only. -/
theorem isBreaking_congr (hmarked : (Message.parse raw').marked = (Message.parse raw).marked)
    (hfooter : (Message.parse raw').footer = (Message.parse raw).footer) :
    (Message.parse raw').isBreaking = (Message.parse raw).isBreaking := by
  rw [Message.isBreaking_parse, Message.isBreaking_parse, hmarked, hfooter]

/-- `m'` is read from the canonical fields of `m` after a fix of its header. -/
structure HeaderFixed (o : FixOptions) (c : Config) (m m' : Message) : Prop where
  headerRead : (Draft.ofMessage m).HeaderRead
  canonical : (Draft.ofMessage m).Canonical
  line : m'.header = (fixDraft o c (Draft.ofMessage m)).header ∨
    m'.header = dropReturn (fixDraft o c (Draft.ofMessage m)).header
  readAs : (fixDraft o c (Draft.ofMessage m)).ReadAs m'.header (Draft.ofMessage m')
  body : m'.body = m.body
  footer : m'.footer = m.footer
  isBreaking : m'.marked = m.marked → m'.isBreaking = m.isBreaking

/-- Without wrapping, a fix of canonical fields is a fix of the header. The sections are written as
they were, and canonical sections are read back under any header. -/
theorem headerFixed_of_fixMessage (hcanonical : (Draft.ofMessage (Message.parse raw)).Canonical)
    (hwrap : o.wrapBody = false) (h : fixMessage o c raw = some t) :
    HeaderFixed o c (Message.parse raw) (Message.parse t) := by
  have hd := Draft.headerRead_ofMessage raw
  obtain ⟨hbody, hfooter⟩ := Draft.fixDraft_sections (o := o) (c := c) hd
  have hkept : Draft.fixedBody o c (Draft.ofMessage (Message.parse raw)).body =
      (Draft.ofMessage (Message.parse raw)).body := by
    rw [Draft.fixedBody, hwrap, if_neg Bool.false_ne_true]
  -- the sections are read under the new header as under the old one
  have hsections := hcanonical.sections_reread (Draft.not_mem_header_fixDraft (o := o) (c := c) hd)
    (hbody.trans hkept) hfooter
  rw [← (fixMessage_eq_some h).2, Draft.ofMessage_body, Draft.ofMessage_body,
    Draft.ofMessage_footer, Draft.ofMessage_footer] at hsections
  exact
    { headerRead := hd
      canonical := hcanonical
      line := header_fixMessage h
      readAs := readAs_fixMessage h
      body := hsections.1
      footer := hsections.2
      isBreaking := fun hmarked => isBreaking_congr hmarked hsections.2 }

namespace HeaderFixed

/-- Canonical fields without a subject are no header fields at all, because without a subject no
header is written that they could be read from. -/
theorem of_subject_none (h : HeaderFixed o c m m') (hnone : m.subject = none) :
    m.type = none ∧ m.scope = none ∧ m.marked = false := by
  rcases h.canonical.header with htyped | huntyped
  · obtain ⟨s, hs, -⟩ := htyped.subject
    rw [show m.subject = some s from hs] at hnone
    cases hnone
  · exact ⟨huntyped.type, huntyped.scope, huntyped.marked⟩

/-- The fields are kept if the header pattern does not fit a first line without a type. -/
theorem keeps (h : HeaderFixed o c m m')
    (hstop : ¬ (o.stripFullStop = true ∧ m.subject = some ['.']))
    (hunfit : (fixDraft o c (Draft.ofMessage m)).type = none → ¬ Header.Fits m'.header) :
    HeaderFixKeeps o m m' := by
  rcases h.readAs with ⟨hlost, -, hfields⟩ | ⟨v, y, -, -, -, hfields⟩ | ⟨p, htype, wf, htext, -⟩
  · -- the subject was lost: there was none, since a lone full stop is excluded
    have hnone : m.subject = none :=
      ((Draft.fixDraft_subject_eq_none_iff h.headerRead).mp hlost).resolve_right hstop
    obtain ⟨htype, hscope, hmarked⟩ := h.of_subject_none hnone
    have htype' : m'.type = none := congrArg Draft.type hfields
    have hscope' : m'.scope = m.scope := (congrArg Draft.scope hfields).trans hscope.symm
    have hmarked' : m'.marked = m.marked := (congrArg Draft.marked hfields).trans hmarked.symm
    refine ⟨hscope', hmarked', h.body, h.footer, h.isBreaking hmarked', fun t ht => ?_,
      fun _ => Or.inl htype'⟩
    rw [htype] at ht
    cases ht
  · -- the line is no header, so the fields read are those of the fixed draft
    have htype' : m'.type = if o.inferType then (Draft.ofMessage m).inferredType else m.type :=
      (congrArg Draft.type hfields).trans Draft.fixDraft_type
    have hscope' : m'.scope = m.scope := (congrArg Draft.scope hfields).trans Draft.fixDraft_scope
    have hmarked' : m'.marked = m.marked :=
      (congrArg Draft.marked hfields).trans Draft.fixDraft_marked
    refine ⟨hscope', hmarked', h.body, h.footer, h.isBreaking hmarked', fun t ht => ?_,
      fun hnone => ?_⟩
    · -- a type that was there is what inference gives
      have hinferred : (Draft.ofMessage m).inferredType = some t := by
        rw [Draft.inferredType, show (Draft.ofMessage m).type = some t from ht, Option.some_or]
      rw [htype', hinferred, ht, ite_self]
    · split at htype'
      · next hon =>
        rcases Draft.inferredType_eq_none_or (d := Draft.ofMessage m) hnone with
          hno | ⟨s, hs, w, hw, hverb⟩
        · exact Or.inl (htype'.trans hno)
        · exact Or.inr ⟨hon, s, hs, w, hw, htype'.trans hverb⟩
      · exact Or.inl (htype'.trans hnone)
  · exact absurd ⟨p, wf, htext⟩ (hunfit htype)

/-- The type of a header that was none before is not one that was inferred. -/
theorem not_keeps (h : HeaderFixed o c m m')
    (htype : (fixDraft o c (Draft.ofMessage m)).type = none) (hfits : Header.Fits m'.header) :
    ¬ HeaderFixKeeps o m m' := by
  intro hkeeps
  have huntyped : m.type = none := Draft.type_eq_none_of_fixDraft htype
  have htyped : m'.type ≠ none := by
    rcases h.readAs with ⟨-, hnil, -⟩ | ⟨v, y, -, -, hunfit, -⟩ | ⟨p, -, -, -, hfields⟩
    · obtain ⟨x, hx, -⟩ := hfits.head
      rw [hnil] at hx
      cases hx
    · exact absurd hfits (hunfit htype)
    · rw [show m'.type = some p.type from congrArg Draft.type hfields]
      exact Option.some_ne_none p.type
  -- to be kept, the type would have to be inferred, and then the draft has it
  rcases hkeeps.inferred huntyped with hno | ⟨hon, s, hs, w, hw, hverb⟩
  · exact htyped hno
  · have hinferred := Draft.inferredType_of_word (d := Draft.ofMessage m) huntyped hs hw
    rw [Draft.fixDraft_type, if_pos hon, hinferred, ← hverb] at htype
    exact htyped htype

/-- If the header pattern fits a first line without a type, then the case of the first
character made it fit. -/
theorem becomesHeader (h : HeaderFixed o c m m')
    (htype : (fixDraft o c (Draft.ofMessage m)).type = none) (hfits : Header.Fits m'.header) :
    BecomesHeader o c m m'.header := by
  refine .of_fits h.headerRead (fun huntyped s hs => ?_) h.line htype hfits
  -- the header pattern does not fit the subject of a canonical draft without a type
  rcases h.canonical.header with hd | hd
  · obtain ⟨t, ht, -⟩ := hd.type
    rw [show m.type = some t from ht] at huntyped
    cases huntyped
  · exact (hd.subject s hs).2.2

end HeaderFixed

/-- No verb begins with a young capital, so the subject that becomes a header has no type
before it is read. -/
theorem BecomesHeader.type_fixDraft {line : Text} (h : BecomesHeader o c m line) :
    (fixDraft o c (Draft.ofMessage m)).type = none := by
  obtain ⟨s, hs, hyoung⟩ := h.young
  have huntyped : (Draft.ofMessage m).type = none := h.untyped
  rw [Draft.fixDraft_type, hyoung.inferredType huntyped hs, huntyped, ite_self]

/-- A fix of the header keeps everything else unless the new first line reads as a header for the
first time. A subject that was a full stop is excluded, because it goes as a whole. -/
theorem HeaderFixed.keeps_iff (h : HeaderFixed o c m m')
    (hstop : ¬ (o.stripFullStop = true ∧ m.subject = some ['.'])) :
    HeaderFixKeeps o m m' ↔ ¬ BecomesHeader o c m m'.header := by
  constructor
  · exact fun hkeeps hbecomes => h.not_keeps hbecomes.type_fixDraft hbecomes.fits hkeeps
  · exact fun hnot => h.keeps hstop fun htype hfits => hnot (h.becomesHeader htype hfits)

-- ---------------------------------------------------------------------------
-- Clean messages
-- ---------------------------------------------------------------------------

/--
The fields of a clean message are read back from what they are written as. A fix that leaves the
body alone and does not drop the subject keeps all of them but the subject, or infers a type,
exactly if it does not make a header of a subject by the case of its first character.
-/
theorem clean_headerFixKeeps_iff (hclean : Message.Clean raw) :
    (Draft.ofMessage (Message.parse (Message.parse raw).render) =
        Draft.ofMessage (Message.parse raw) ∧
      (Message.parse (Message.parse raw).render).isBreaking = (Message.parse raw).isBreaking) ∧
    ∀ (o : FixOptions) (c : Config) (t : Text), o.wrapBody = false →
      fixMessage o c raw = some t →
      ¬ (o.stripFullStop = true ∧ (Message.parse raw).subject = some ['.']) →
      (HeaderFixKeeps o (Message.parse raw) (Message.parse t) ↔
        ¬ BecomesHeader o c (Message.parse raw) (Message.parse t).header) := by
  have hsame : Draft.ofMessage (Message.parse (Message.parse raw).render) =
      Draft.ofMessage (Message.parse raw) := hclean.canonical.reread_eq
  -- the breaking status follows from the mark and the footer
  have hmarked := congrArg Draft.marked hsame
  have hfooter := congrArg Draft.footer hsame
  rw [Draft.ofMessage_marked, Draft.ofMessage_marked] at hmarked
  rw [Draft.ofMessage_footer, Draft.ofMessage_footer] at hfooter
  refine ⟨⟨hsame, isBreaking_congr hmarked hfooter⟩, ?_⟩
  intro o c t hwrap h hstop
  exact (headerFixed_of_fixMessage hclean.canonical hwrap h).keeps_iff hstop

/-- The type is inferred, and the body and the footer stay. -/
theorem clean_headerFixKeeps_iff_inferred :
    let raw := "Add x

why

Refs: #1".toList
    Message.Clean raw ∧ ∃ t, fixMessage ⟨true, true, true, false⟩ .default raw = some t ∧
      HeaderFixKeeps ⟨true, true, true, false⟩ (Message.parse raw) (Message.parse t) := by
  intro raw
  have hclean : Message.Clean raw := by decide +kernel
  have h : fixMessage ⟨true, true, true, false⟩ .default raw = some "feat: add x

why

Refs: #1".toList := by decide +kernel
  have hsubject : (Message.parse raw).subject = some "Add x".toList := by decide +kernel
  have hstop : ¬ (FixOptions.stripFullStop ⟨true, true, true, false⟩ = true ∧
      (Message.parse raw).subject = some ['.']) := by
    rw [hsubject]
    decide
  refine ⟨hclean, _, h, ((clean_headerFixKeeps_iff hclean).2 _ _ _ rfl h hstop).mpr ?_⟩
  intro hbecomes
  obtain ⟨s, hs, x, hx, hyoung⟩ := hbecomes.young
  rw [hsubject] at hs
  obtain rfl := Option.some.inj hs
  obtain rfl : 'A' = x := Option.some.inj hx
  exact absurd hyoung (by decide)

/-- The small form of a young capital begins a header. The capital is no word character for the
pattern, so the line was none before. -/
theorem clean_headerFixKeeps_iff_young :
    ¬ ∀ raw : Text, Message.Clean raw →
      (Draft.ofMessage (Message.parse (Message.parse raw).render) =
          Draft.ofMessage (Message.parse raw) ∧
        (Message.parse (Message.parse raw).render).isBreaking = (Message.parse raw).isBreaking) ∧
      ∀ (o : FixOptions) (c : Config) (t : Text), o.wrapBody = false →
        fixMessage o c raw = some t →
        ¬ (o.stripFullStop = true ∧ (Message.parse raw).subject = some ['.']) →
        HeaderFixKeeps o (Message.parse raw) (Message.parse t) := by
  intro hall
  have hclean : Message.Clean "\ua7d2: x".toList := by decide +kernel
  have h : fixMessage ⟨false, true, false, false⟩ .default "\ua7d2: x".toList =
      some "\ua7d3: x".toList := by decide +kernel
  have hbefore : (Message.parse "\ua7d2: x".toList).type = none := by decide +kernel
  have hafter : (Message.parse "\ua7d3: x".toList).type = some "\ua7d3".toList := by
    decide +kernel
  have hkeeps := (hall _ hclean).2 _ _ _ rfl h fun hstop => absurd hstop.1 Bool.false_ne_true
  rcases hkeeps.inferred hbefore with hno | ⟨hon, -⟩
  · rw [hafter] at hno
    cases hno
  · cases hon

end ConventionalCommit
