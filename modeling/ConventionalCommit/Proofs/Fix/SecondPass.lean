import ConventionalCommit.Proofs.Fix.AtRest
import ConventionalCommit.Proofs.Fix.Rereading
import ConventionalCommit.Proofs.Fix.Termination

/-!
# ConventionalCommit — the second pass

A suggested fix is meant to be enough, and where its header is not cut it nearly is. What
is left to fix in its text is what one pass makes or uncovers: a pass strips one full stop
only, a verb counts once its full stop is gone, a subject may read as a header by now, lines
lose one return at a time, and footer text that is read as body is wrapped there.
`Draft.Settled` rules these out, and nothing else.

* `wrap_body_reread_iff`: when a wrapped body is wrapped again;
* `stop_readHeader_iff`, `verb_readHeader_iff`, `case_readHeader_iff`: when the header is
  edited again;
* `suggestedFix_suggestedFix_eq_none_iff`: the text of a fix needs no fix exactly if the
  edited draft is settled.
-/

namespace ConventionalCommit

open Unicode (isWhite)
open Text (Tight Wrapped WrappedRows trimmed? lines rows unlines dropReturn isBlank)
open Trailer (isTrailerLine)
open Sections (Reads FooterRead footerOf beforeFooter)

variable {o : FixOptions} {c : Config} {d : Draft} {b f T line raw t v x y : Text} {width : Nat}

-- ---------------------------------------------------------------------------
-- The body that is read after wrapping
-- ---------------------------------------------------------------------------

namespace Draft

/-- The text at the start of a footer that is body when its lines are read anew: the last of
them lost its value when it was trimmed, or the first lost the return that was its value. -/
def strayText (f : Text) : Option Text := trimmed? (unlines (beforeFooter (lines f)))

/-- Stray text is part of a footer, so it has no blank row and is one paragraph. -/
theorem not_blank_strayText (hf : Tight f) (hread : FooterRead f) (hy : strayText f = some y) :
    ∀ row ∈ rows y, isBlank row = false := by
  have hlines : ∀ l ∈ lines f, '\n' ∉ l ∧ isBlank l = false := by
    intro l hl
    refine ⟨Text.not_mem_of_mem_lines hl, ?_⟩
    rw [hf.lines_eq_map] at hl
    obtain ⟨row, hrow, rfl⟩ := List.mem_map.mp hl
    rw [Text.isBlank_dropReturn]
    exact hread.not_blank row hrow
  have hsub : beforeFooter (lines f) ⊆ lines f := List.take_subset _ _
  exact Sections.not_blank_of_trimmed? (fun l hl => (hlines l (hsub hl)).1)
    (fun l hl => (hlines l (hsub hl)).2) hy

/-- Stray text begins without white space, because it begins where the footer did, and a footer is
trimmed. -/
theorem head_beforeFooter_lines (hf : Tight f) :
    ∀ c ∈ (unlines (beforeFooter (lines f))).head?, isWhite c = false := by
  intro c hc
  cases hl : beforeFooter (lines f) with
  | nil =>
    rw [hl] at hc
    cases hc
  | cons l rest =>
    obtain ⟨hne, hstart⟩ := hf.first_line (l := l) (by
      rw [← Sections.beforeFooter_append_footerOf (lines f), hl]
      rfl)
    rw [hl, Text.head?_unlines_cons hne] at hc
    exact hstart c hc

/-- The lines before the footer are those of the body, a blank one and the stray ones. -/
theorem strayText_under (hs : d.SectionsFit) (hb : d.body = some b) (hf : d.footer = some f)
    (hu : d.under = some T) : strayText T =
      trimmed? (unlines (lines b) ++ '\n' :: unlines ([] :: beforeFooter (lines f))) := by
  have hbefore : beforeFooter (lines T) = lines b ++ [] :: beforeFooter (lines f) := by
    refine Sections.beforeFooter_eq (footerOf_lines_under hf hu) ?_
    rw [lines_under hs hb hf hu, List.append_assoc, List.cons_append,
      Sections.beforeFooter_append_footerOf]
  rw [strayText, hbefore,
    Text.unlines_append (hs.body_tight b hb).lines_ne_nil (List.cons_ne_nil _ _)]

/-- The body that is read, if there is a footer: the body that was written and, if it comes to
that, the stray text after it. -/
theorem body_reread_cases (hh : '\n' ∉ d.header) (hs : d.SectionsFit) (hf : d.footer = some f) :
    (d.body = none ∧ d.reread.body = strayText f) ∨
      ∃ b ∈ d.body, (strayText f = none ∧ d.reread.body = some (unlines (lines b))) ∨
        ∃ y, strayText f = some y ∧
          d.reread.body = some (unlines (lines b) ++ '\n' :: '\n' :: y) := by
  -- `T` is all the text under the header; what of it is no footer is the body
  obtain ⟨T, hu⟩ := exists_under_of_footer hf
  have hread : d.reread.body = strayText T := by
    rw [reread_of_under_some hh hu (tight_under hs hu) ⟨rfl, rfl⟩, readHeader_body, strayText]
  rw [hread]
  cases hb : d.body with
  | none =>
    rw [under, hb, hf] at hu
    rw [Option.some.inj hu]
    exact Or.inl ⟨rfl, rfl⟩
  | some b =>
    refine Or.inr ⟨b, rfl, ?_⟩
    rw [strayText_under hs hb hf hu]
    have htight := (hs.body_tight b hb).unlines_lines
    cases hy : strayText f with
    | none =>
      left
      -- no stray text: what is left between body and footer is blank and is trimmed away
      rw [strayText, Text.trimmed?_eq_none_iff_isBlank, Text.isBlank_unlines] at hy
      have hblank : isBlank ('\n' :: unlines ([] :: beforeFooter (lines f))) = true := by
        rw [← List.singleton_append, Text.isBlank_append, Text.isBlank_unlines, List.all_cons, hy]
        rfl
      rw [Text.trimmed?_append_of_isBlank _ hblank]
      exact ⟨rfl, htight.trimmed?_eq⟩
    | some y =>
      -- stray text stays, one empty line after the body
      have hne : beforeFooter (lines f) ≠ [] := fun hnil => by
        rw [strayText, hnil] at hy
        cases hy
      have hread := htight.trimmed?_append
        (head_beforeFooter_lines (hs.footer_tight f hf)) hy ['\n', '\n']
      rw [Text.unlines_cons [] hne]
      exact Or.inr ⟨y, rfl, by simpa using hread⟩

/-- A wrapped body has the form of wrapped text after it is read, unless stray text comes to it
that does not fit. -/
theorem wrapped_body_reread_iff (hh : '\n' ∉ d.header) (hs : d.SectionsFit)
    (hbody : ∀ b ∈ d.body, WrappedRows width (lines b)) :
    (∀ x ∈ d.reread.body, Wrapped width x) ↔
      ∀ f ∈ d.footer, ∀ y ∈ strayText f, ∀ row ∈ rows y, row.length ≤ width := by
  have hwritten : ∀ b ∈ d.body, Wrapped width (unlines (lines b)) := by
    intro b hb
    have hw := hbody b hb
    rw [← (hs.body_tight b hb).rows_unlines_lines] at hw
    exact hw.wrapped
  -- without a footer the body may be cut, and every part of it is in wrapped form
  cases hf : d.footer with
  | none =>
    refine iff_of_true (fun x hx => ?_) fun _ h => absurd h (Option.not_mem_none _)
    cases hb : d.body with
    | none =>
      rw [reread_of_under_none hh (under_eq_none_iff.mpr ⟨hb, hf⟩), readHeader_body] at hx
      cases hx
    | some b =>
      have hreads : Reads (lines b) (trimmed? (unlines (beforeFooter (lines b))))
          (trimmed? (unlines (footerOf (lines b)))) := ⟨rfl, rfl⟩
      rw [reread_of_under_some hh ((under_eq_body hf).trans hb) (hs.body_tight b hb) hreads,
        readHeader_body] at hx
      exact (hwritten b hb).of_isInfix (hreads.isInfix_body hx)
  | some f =>
    have hblank : ∀ y, strayText f = some y → ∀ row ∈ rows y, isBlank row = false := fun _ hy =>
      not_blank_strayText (hs.footer_tight f hf) (hs.footer_read f hf) hy
    simp only [Option.mem_def, Option.some.injEq, forall_eq']
    -- stray text alone, the body alone, or the body and a paragraph of stray text
    rcases body_reread_cases hh hs hf with ⟨-, hr⟩ | ⟨b, hb, ⟨hy, hr⟩ | ⟨y, hy, hr⟩⟩
    · rw [hr]
      exact forall₂_congr fun y hy => Text.wrapped_iff_of_paragraph (hblank y hy)
    · simp only [hr, hy, Option.some.injEq, forall_eq', reduceCtorEq, false_imp_iff,
        implies_true, iff_true]
      exact hwritten b hb
    · simp only [hr, hy, Option.some.injEq, forall_eq']
      constructor
      · intro hw row hrow
        refine hw.fits row ?_
        rw [rows_blank_between]
        exact List.mem_append_right _ (List.mem_cons_of_mem _ hrow)
      · intro hfits
        refine WrappedRows.wrapped ?_
        rw [rows_blank_between, (hs.body_tight b hb).rows_unlines_lines]
        refine (hbody b hb).append (fun l hl => ?_) fun row hrow =>
          ⟨hfits row hrow, hblank y hy row hrow⟩
        obtain ⟨hne, hend⟩ := (hs.body_tight b hb).last_line hl
        exact Text.isBlank_eq_false_of_last hne hend

/-- A wrapped body needs no more wrapping after it is read exactly if it has no returns left
before its newlines and the stray text of the footer fits. -/
theorem wrap_body_reread_iff (hh : '\n' ∉ d.header) (hs : d.SectionsFit)
    (hbody : ∀ b ∈ d.body, WrappedRows (max width 1) (lines b)) :
    (∀ x ∈ d.reread.body, Text.wrap width x = x) ↔
      (∀ x ∈ d.reread.body, Text.ReturnsBelow 1 x) ∧
        ∀ f ∈ d.footer, ∀ y ∈ strayText f, ∀ row ∈ rows y, row.length ≤ max width 1 := by
  have htight : ∀ x ∈ d.reread.body, Tight x := (sectionsRead_ofMessage _).body_tight
  rw [← wrapped_body_reread_iff hh hs hbody, and_comm, ← forall₂_and]
  exact forall₂_congr fun x hx => (htight x hx).wrap_eq_iff

-- ---------------------------------------------------------------------------
-- The header that is read after the edits
-- ---------------------------------------------------------------------------

theorem words_append_of_isBlank (y : Text) (hb : isBlank b = true) :
    Text.words (y ++ b) = y.words :=
  runs_append_of_separates (Text.isBlank_iff.mp hb) y

variable {body footer : Option Text}

theorem tight_subject_readHeader (hy : (readHeader line body footer).subject = some y) :
    Tight y := by
  unfold readHeader at hy
  split at hy <;> exact Tight.of_trimmed? hy

/-- A first line that is read without a subject ends in the colon of a header, apart from white
space, so the subject that was written there does. -/
theorem getLast?_of_unread (hd : d.HeaderFit)
    (hline : line = d.header ∨ line = dropReturn d.header) (hv : d.subject = some v)
    (hnone : (readHeader line body footer).subject = none) :
    (Text.trimEnd v).getLast? = some ':' := by
  rcases hd.readAs hline body footer with ⟨hsubject, -, -⟩ | ⟨w, y, -, -, -, hr⟩ |
    ⟨p, htype, wf, htext, hr⟩
  · rw [hv] at hsubject
    cases hsubject
  · rw [hr] at hnone
    cases hnone
  · rw [hr] at hnone
    have hsubject := Text.trimmed?_eq_none_iff_isBlank.mp hnone
    obtain ⟨rest, rfl, hrest⟩ := exists_append_of_untyped hv htype hline
    have hsplit : line ++ rest = p.type ++ Header.scopeText p.scope ++
        Header.markText p.marked ++ [':'] ++ (p.gap ++ p.subject ++ rest) := by
      rw [← htext, Header.text]
      simp
    -- all that follows the colon is white
    have hblank : isBlank (p.gap ++ p.subject ++ rest) = true := by
      rw [Text.isBlank_append, Text.isBlank_append, hsubject, hrest,
        Text.isBlank_iff.mpr wf.gap_white]
      rfl
    rw [hsplit, Text.trimEnd_append (by simp; decide) hblank, List.getLast?_concat]

/-- The subject that is read ends in a full stop exactly if this one does, apart from white
space. -/
theorem stop_readHeader_iff (hd : d.HeaderFit)
    (hline : line = d.header ∨ line = dropReturn d.header) (body footer : Option Text) :
    (∀ y ∈ (readHeader line body footer).subject, y.getLast? ≠ some '.') ↔
      ∀ v ∈ d.subject, (Text.trimEnd v).getLast? ≠ some '.' := by
  cases hv : d.subject with
  | none =>
    rw [header_of_subject_none hv] at hline
    obtain rfl : line = [] := hline.elim id id
    rw [readHeader_nil]
    exact iff_of_true (fun _ h => absurd h (Option.not_mem_none _))
      fun _ h => absurd h (Option.not_mem_none _)
  | some v =>
    simp only [Option.mem_def, Option.some.injEq, forall_eq']
    cases hy : (readHeader line body footer).subject with
    | none =>
      -- nothing was read because the line ends after the colon, which is no full stop
      rw [getLast?_of_unread hd hline hv hy]
      exact iff_of_true (fun _ h => by cases h) (by decide)
    | some y =>
      have htight := tight_subject_readHeader hy
      -- what is read is what was written between white space, so both end alike
      obtain ⟨front, back, rfl, -, hback⟩ := hd.exists_subject_eq hv hline hy
      have hlast : ∀ x ∈ (front ++ y).getLast?, isWhite x = false := by
        rw [List.getLast?_append_of_ne_nil _ htight.ne_nil]
        exact htight.last
      rw [Text.trimEnd_append hlast hback, List.getLast?_append_of_ne_nil _ htight.ne_nil]
      simp only [Option.some.injEq, forall_eq']

/-- A verb counts after a pass if the subject begins with one by now and the line is still no
header. White space at the end, which trimming takes, adds no word. -/
theorem verb_readHeader_iff (hd : d.HeaderFit)
    (hline : line = d.header ∨ line = dropReturn d.header) (body footer : Option Text) :
    ((readHeader line body footer).type = none → ∀ y ∈ (readHeader line body footer).subject,
        ∀ w ∈ y.words.head?, typeOfVerb? w.lowercase = none) ↔
      (d.type = none → ¬ Header.Fits line → ∀ v ∈ d.subject,
        ∀ w ∈ v.words.head?, typeOfVerb? w.lowercase = none) := by
  rcases hd.readAs hline body footer with ⟨hnone, -, hr⟩ | ⟨v, y, hv, htrim, hunfit, hr⟩ |
    ⟨p, htype, wf, htext, hr⟩
  · rw [hr, hnone]
    exact iff_of_true (fun _ _ h => absurd h (Option.not_mem_none _))
      fun _ _ _ h => absurd h (Option.not_mem_none _)
  · obtain ⟨hne, hhead, -⟩ := hd.subject v hv
    obtain ⟨back, rfl, hback⟩ := Text.exists_append_of_trimmed? hhead htrim
    -- the words of the subject are those of the trimmed one
    have hwords := words_append_of_isBlank y hback
    rw [hr, hv]
    simp only [Option.mem_def, Option.some.injEq, forall_eq', hwords]
    exact ⟨fun h htype _ => h htype, fun h htype => h htype (hunfit htype)⟩
  · rw [hr]
    -- the line is a header, so a type is read
    exact iff_of_true (fun h => by cases h) fun _ hfits => absurd ⟨p, wf, htext⟩ hfits

/-- An admitted subject stays so, unless it becomes a header with a subject of its own. -/
theorem case_readHeader_iff (hd : d.HeaderFit)
    (hline : line = d.header ∨ line = dropReturn d.header)
    (hadmits : ∀ v ∈ d.subject, ∀ x ∈ v.head?, c.subjectCase.admits x = true)
    (body footer : Option Text) :
    (∀ y ∈ (readHeader line body footer).subject,
        ∀ x ∈ y.head?, c.subjectCase.admits x = true) ↔
      (d.type = none → ∀ p : Header, p.WellFormed → p.text = line →
        ∀ x ∈ p.subject.head?, c.subjectCase.admits x = true) := by
  rcases hd.readAs hline body footer with ⟨-, rfl, hr⟩ | ⟨v, y, hv, htrim, hunfit, hr⟩ |
    ⟨p, htype, wf, htext, hr⟩
  · rw [hr]
    -- an empty line has neither a subject nor a header to become
    refine iff_of_true (fun _ h => absurd h (Option.not_mem_none _)) fun _ p _ htext => ?_
    simp [Header.text] at htext
  · -- the subject loses at most its end, so it begins as before
    obtain ⟨hne, hhead, -⟩ := hd.subject v hv
    obtain ⟨z, hz, hvz⟩ := exists_trimmed?_cut hne hhead
    obtain rfl : z = y := Option.some.inj (hz.symm.trans htrim)
    rw [hr]
    refine iff_of_true (fun z' hz' x hx => ?_) fun htype p wf htext =>
      absurd ⟨p, wf, htext⟩ (hunfit htype)
    rw [← Option.some.inj hz', hvz.head] at hx
    exact hadmits v hv x hx
  · -- the line is a header of one kind only, the one that is read
    have hunique : ∀ q : Header, q.WellFormed → q.text = line → q = p := fun q hq hqtext =>
      hq.eq_of_text_eq wf (hqtext.trans htext.symm)
    have hsubject : (∀ y ∈ trimmed? p.subject, ∀ x ∈ y.head?, c.subjectCase.admits x = true) ↔
        ∀ x ∈ p.subject.head?, c.subjectCase.admits x = true := by
      rcases wf.trimmed?_subject_cases with ⟨hnil, hy⟩ | ⟨-, y, hy, hhead⟩
      · rw [hy, hnil]
        exact iff_of_true (fun _ h => by cases h) fun _ h => by cases h
      · simp only [hy, Option.mem_def, Option.some.injEq, forall_eq', hhead]
    rw [hr, hsubject]
    exact ⟨fun h _ q hq hqtext => by rwa [hunique q hq hqtext], fun h => h htype p wf htext⟩

/-- A header that is not cut before is not cut after it is read. It gets no longer, and what stands
before the subject gets no shorter. -/
theorem room_readHeader (hd : d.HeaderFit)
    (hline : line = d.header ∨ line = dropReturn d.header) {limit : Nat}
    (hroom : d.header.length ≤ limit ∨ limit - d.typePrefix.length ≤ leastSubject) :
    (readHeader line body footer).header.length ≤ limit ∨
      limit - (readHeader line body footer).typePrefix.length ≤ leastSubject := by
  have hlen : line.length ≤ d.header.length := by
    rcases hline with rfl | rfl
    · exact Nat.le_refl _
    · exact (Text.dropReturn_isPrefix _).length_le
  have hshorter := length_header_readHeader line body footer
  -- a header that fits gets no longer, and one without room has the same prefix or none
  rcases hroom with hfits | hroom
  · left
    omega
  · rcases hd.readAs hline body footer with ⟨-, -, hr⟩ | ⟨v, y, -, -, -, hr⟩ | ⟨p, htype, -, -, -⟩
    · left
      rw [hr]
      exact Nat.zero_le _
    · right
      rw [hr]
      exact hroom
    · right
      rw [typePrefix_of_type_none htype] at hroom
      exact (Nat.sub_le_sub_left (Nat.zero_le _) _).trans hroom

-- ---------------------------------------------------------------------------
-- Drafts that are fixed once and for all
-- ---------------------------------------------------------------------------

/-- An edited draft whose text, with the header `line` and the body `body` when it is read,
needs no further fix: it does not still end in a full stop, no type can be inferred now, a
subject that reads as a header does not begin in the wrong case there, and the lines of the
body lost all their returns, with no stray text among them that does not fit. -/
structure Settled (c : Config) (line : Text) (body : Option Text) (d : Draft) : Prop where
  stop : ∀ v ∈ d.subject, (Text.trimEnd v).getLast? ≠ some '.'
  verb : d.type = none → ¬ Header.Fits line →
    ∀ v ∈ d.subject, ∀ w ∈ v.words.head?, typeOfVerb? w.lowercase = none
  case : d.type = none → ∀ p : Header, p.WellFormed → p.text = line →
    ∀ x ∈ p.subject.head?, c.subjectCase.admits x = true
  returns : ∀ b ∈ body, Text.ReturnsBelow 1 b
  stray : ∀ f ∈ d.footer, ∀ y ∈ strayText f, ∀ row ∈ rows y,
    row.length ≤ max c.maxLineLength.toNat 1

/-- What is read from a fixed draft is at rest exactly if the draft is settled, field by field. What
a pass establishes anyway, the case and the length of the header, is a hypothesis here. -/
theorem atRest_readHeader_iff (hd : d.HeaderFit)
    (hline : line = d.header ∨ line = dropReturn d.header)
    (hadmits : ∀ v ∈ d.subject, ∀ x ∈ v.head?, c.subjectCase.admits x = true)
    (hroom : d.header.length ≤ c.maxHeaderLength.toNat ∨
      c.maxHeaderLength.toNat - d.typePrefix.length ≤ leastSubject)
    (hbody : (∀ x ∈ body, Text.wrap c.maxLineLength.toNat x = x) ↔
      (∀ x ∈ body, Text.ReturnsBelow 1 x) ∧ ∀ f ∈ d.footer, ∀ y ∈ strayText f, ∀ row ∈ rows y,
        row.length ≤ max c.maxLineLength.toNat 1) :
    (readHeader line body footer).AtRest c ↔ d.Settled c line body := by
  have hstop := stop_readHeader_iff hd hline body footer
  have hverb := verb_readHeader_iff hd hline body footer
  have hcase := case_readHeader_iff hd hline hadmits body footer
  -- a field of the one for each field of the other
  constructor
  · intro h
    have hwrap := h.body
    rw [readHeader_body] at hwrap
    obtain ⟨hreturns, hstray⟩ := hbody.mp hwrap
    exact ⟨hstop.mp h.stop, hverb.mp h.verb, hcase.mp h.case, hreturns, hstray⟩
  · intro h
    refine ⟨hverb.mpr h.verb, hcase.mpr h.case, hstop.mpr h.stop, ?_,
      room_readHeader hd hline hroom⟩
    rw [readHeader_body]
    exact hbody.mpr ⟨h.returns, h.stray⟩

/-- The lines of a wrapped body have the form of wrapped text. Lines are rows that have lost a
return, so they fit as well. -/
theorem wrappedRows_body_fixDraft (hon : o.wrapBody = true) (hd : d.HeaderRead)
    (hs : d.SectionsFit) : ∀ b ∈ (fixDraft o c d).body,
      WrappedRows (max c.maxLineLength.toNat 1) (lines b) := by
  intro b hb
  rw [(fixDraft_sections hd).1, fixedBody, if_pos hon] at hb
  obtain ⟨x, hx, rfl⟩ := Option.map_eq_some_iff.mp hb
  rw [((hs.body_tight x hx).wrap _).lines_eq_map]
  exact (Text.wrappedRows_wrap _ x).map_dropReturn

/-- What is read after a suggested fix that did not cut is at rest exactly if the edited
draft is settled. -/
theorem atRest_fixDraft_iff (hd : d.HeaderRead) (hs : d.SectionsFit) (hcut : ¬ d.Shortened c)
    (hread : (fixDraft .all c d).reread = readHeader line body footer)
    (hline : line = (fixDraft .all c d).header ∨ line = dropReturn (fixDraft .all c d).header) :
    (fixDraft .all c d).reread.AtRest c ↔ (fixDraft .all c d).Settled c line body := by
  have hfit := headerFit_fixDraft (o := .all) (c := c) hd
  have hwrap := wrap_body_reread_iff hfit.not_mem_header (sectionsFit_fixDraft hd hs)
    (wrappedRows_body_fixDraft rfl hd hs)
  rw [hread, readHeader_body] at hwrap
  rw [hread]
  exact atRest_readHeader_iff hfit hline (admits_head_fixDraft hd rfl)
    (room_of_not_shortened hcut) hwrap

end Draft

/--
If a suggested fix did not cut the header, then its text gets no further fix exactly if the
edited draft is settled, given the header and the body that are read from the text.
-/
theorem suggestedFix_suggestedFix_eq_none_iff
    (hcut : ¬ (Draft.ofMessage (Message.parse raw)).Shortened c)
    (h : suggestedFix c raw = some t) :
    suggestedFix c t = none ↔
      (fixDraft .all c (Draft.ofMessage (Message.parse raw))).Settled c
        (Message.parse t).header (Message.parse t).body := by
  have hreread := (fixMessage_eq_some h).2
  have hread := hreread.symm.trans (Draft.ofMessage_parse t)
  rw [suggestedFix_eq_none_iff, hreread]
  exact Draft.atRest_fixDraft_iff (Draft.headerRead_ofMessage raw)
    (Draft.sectionsRead_ofMessage raw).toSectionsFit hcut hread (header_fixMessage h)

/-- One pass is enough where a type is inferred and one full stop is stripped. -/
theorem suggestedFix_suggestedFix_eq_none_inferred :
    suggestedFix .default "Add login page.".toList = some "feat: add login page".toList ∧
      suggestedFix .default "feat: add login page".toList = none := by
  have h : suggestedFix .default "Add login page.".toList =
      some "feat: add login page".toList := by decide +kernel
  have hedited : fixDraft .all .default (Draft.ofMessage (Message.parse "Add login page.".toList)) =
      ⟨some "feat".toList, none, some "add login page".toList, none, none, false⟩ := by
    decide +kernel
  have hcut : ¬ (Draft.ofMessage (Message.parse "Add login page.".toList)).Shortened .default :=
    not_not.mpr (by decide +kernel)
  have hbody : (Message.parse "feat: add login page".toList).body = none := by decide +kernel
  have hsettled : (fixDraft .all .default (Draft.ofMessage
      (Message.parse "Add login page.".toList))).Settled .default
        (Message.parse "feat: add login page".toList).header
        (Message.parse "feat: add login page".toList).body := by
    rw [hedited, hbody]
    exact
      { stop := fun v hv => by rw [← Option.some.inj hv]; decide
        verb := fun hnone => nomatch hnone
        case := fun hnone => nomatch hnone
        returns := fun b hb => nomatch hb
        stray := fun f hf => nomatch hf }
  exact ⟨h, (suggestedFix_suggestedFix_eq_none_iff hcut h).mpr hsettled⟩

/-- A pass strips one full stop only, so a second pass finds the next one although nothing was cut.
-/
theorem suggestedFix_suggestedFix_eq_none_stops :
    ¬ ∀ (c : Config) (raw t : Text), ¬ (Draft.ofMessage (Message.parse raw)).Shortened c →
      suggestedFix c raw = some t → suggestedFix c t = none := by
  intro hall
  have hcut : ¬ (Draft.ofMessage (Message.parse "feat: wait...".toList)).Shortened .default :=
    not_not.mpr (by decide +kernel)
  have h : suggestedFix .default "feat: wait...".toList = some "feat: wait..".toList := by
    decide +kernel
  have hagain : suggestedFix .default "feat: wait..".toList = some "feat: wait.".toList := by
    decide +kernel
  have hnone := hall _ _ _ hcut h
  rw [hagain] at hnone
  cases hnone

end ConventionalCommit
