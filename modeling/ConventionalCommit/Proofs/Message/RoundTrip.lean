import ConventionalCommit.Proofs.Message.Rereading

/-!
# ConventionalCommit — what survives writing and reading

A draft is canonical if its fields show in the text that it is written as and
nowhere else, and a message is canonical if it is in the form in which drafts
are written. Both notions are stated on characters, rows and pieces of a header
and do not mention reading.

* `ofMessage_parse_render_eq_iff`: exactly the canonical drafts are read back
  from what they are written as;
* `render_parse_eq_iff`: exactly the canonical messages are written back as
  they were read.
-/

namespace ConventionalCommit

open Text (trimmed? Tight lines rows unlines dropReturn isBlank)
open Trailer (isTrailerLine)
open Unicode (isWhite isWordChar)

variable {d : Draft} {h T b f s t raw : Text} {body footer : Option Text}

-- ---------------------------------------------------------------------------
-- Canonical drafts
-- ---------------------------------------------------------------------------

namespace Draft

/-- A type and a subject that show, and a scope that stays between its parentheses. -/
structure TypedHeader (d : Draft) : Prop where
  type : ∃ t, d.type = some t ∧ t ≠ [] ∧ ∀ c ∈ t, isWordChar c = true
  scope : ∀ s ∈ d.scope, Tight s ∧ '(' ∉ s ∧ ')' ∉ s ∧ '\r' ∉ s ∧ '\n' ∉ s
  subject : ∃ s, d.subject = some s ∧ Tight s ∧ '\n' ∉ s

/-- A subject alone, if any, which no header pattern fits. -/
structure UntypedHeader (d : Draft) : Prop where
  type : d.type = none
  scope : d.scope = none
  marked : d.marked = false
  subject : ∀ s ∈ d.subject, Tight s ∧ '\n' ∉ s ∧ ¬ Header.Fits s

/-- Every field of the draft can be told from the text that it is written as. -/
structure Canonical (d : Draft) : Prop where
  header : d.TypedHeader ∨ d.UntypedHeader
  body : ∀ b ∈ d.body, Tight b ∧ ¬ ['\r', '\n'] <:+: b
  footer : ∀ f ∈ d.footer, Tight f ∧ ¬ ['\r', '\n'] <:+: f ∧
    (∀ row ∈ rows f, isBlank row = false) ∧ (rows f).head?.any isTrailerLine = true ∧
    (rows f).getLast?.any isTrailerLine = true
  boundary : d.footer = none → ∀ b ∈ d.body, (rows b).getLast?.any isTrailerLine = false

/-- The header fields of a canonical draft are such as reading a line yields. So what holds of
fields that have been read holds of them. -/
theorem Canonical.headerRead (hd : d.Canonical) : d.HeaderRead := by
  rcases hd.header with h | h
  · -- a header with a type
    obtain ⟨t, ht, hword⟩ := h.type
    obtain ⟨s, hs, hsubject⟩ := h.subject
    refine ⟨?_, fun s hs => ?_, fun hnone => ?_, ?_⟩
    · intro x hx
      rw [ht] at hx
      exact Option.some.inj hx ▸ hword
    · obtain ⟨htight, h1, h2, h3, h4⟩ := h.scope s hs
      refine ⟨htight, fun c hc => ?_⟩
      -- the four characters that would end the scope or the line
      simp only [Header.isScopeChar, Bool.not_eq_true', Bool.or_eq_false_iff, beq_eq_false_iff_ne]
      exact ⟨⟨⟨fun e => h1 (e ▸ hc), fun e => h2 (e ▸ hc)⟩, fun e => h3 (e ▸ hc)⟩,
        fun e => h4 (e ▸ hc)⟩
    · rw [ht] at hnone
      cases hnone
    · intro x hx
      rw [hs] at hx
      exact Option.some.inj hx ▸ hsubject
  · refine ⟨fun t ht => ?_, fun s hs => ?_, fun _ => ⟨h.scope, h.marked⟩, fun s hs => ?_⟩
    · rw [h.type] at ht
      cases ht
    · rw [h.scope] at hs
      cases hs
    · exact ⟨(h.subject s hs).1, (h.subject s hs).2.1⟩

/-- The sections of a canonical draft are trimmed, and its footer begins with a trailer. -/
theorem Canonical.sectionsFit (hd : d.Canonical) : d.SectionsFit :=
  ⟨fun b hb => (hd.body b hb).1, fun f hf => (hd.footer f hf).1, fun f hf =>
    ⟨(hd.footer f hf).2.2.1, Or.inl (hd.footer f hf).2.2.2.1⟩⟩

/-- No section of a canonical draft has a return before a newline, which reading would take away. -/
theorem Canonical.returnsBelow (hd : d.Canonical) : d.ReturnsBelow 1 :=
  ⟨fun b hb => (hd.body b hb).2, fun f hf => (hd.footer f hf).2.1⟩

/-- The header fields of a canonical draft are read from its header line, with a type by the pattern
and without one because the pattern does not fit. -/
theorem Canonical.readHeader_header (hd : d.Canonical) :
    readHeader d.header d.body d.footer = d := by
  have hread := hd.headerRead
  rcases hd.header with h | h
  · obtain ⟨t, ht, _⟩ := h.type
    obtain ⟨s, hs, htight, _⟩ := h.subject
    rw [header_of_subject hs, readHeader_typed hread ht htight.head, htight.trimmed?_eq, ← hs]
  · -- without a type the line is the subject, and the pattern does not fit it
    obtain ⟨type, scope, subject, body, footer, marked⟩ := d
    obtain rfl : type = none := h.type
    obtain rfl : scope = none := h.scope
    obtain rfl : marked = false := h.marked
    cases subject with
    | none => rfl
    | some s =>
      obtain ⟨htight, _, hfits⟩ := h.subject s rfl
      rw [header_of_subject rfl, typePrefix_of_type_none rfl, List.nil_append,
        readHeader_untyped (Header.read?_eq_none_iff.mpr hfits), htight.trimmed?_eq]

/-- The sections of a canonical draft are read from the text under its header. Its footer begins and
ends in a trailer, and a body alone does not end in one. -/
theorem Canonical.reads (hd : d.Canonical) (hu : d.under = some T) :
    Sections.Reads (rows T) d.body d.footer := by
  cases hf : d.footer with
  | some f =>
    obtain ⟨_, _, hblank, hfirst, hlast⟩ := hd.footer f hf
    have hstands := footerOf_rows ⟨hblank, Or.inl hfirst⟩ hlast
    have := reads_of_stands hd.sectionsFit hf hstands hu
    rwa [hf] at this
  | none =>
    rw [under, hf] at hu
    cases hb : d.body with
    | none => rw [hb] at hu; cases hu
    | some b =>
      rw [hb] at hu
      obtain rfl := Option.some.inj hu
      exact reads_of_no_trailer (hd.body b hb).1 (hd.boundary hf b hb)

/-- The sections of a canonical draft are read again from under any header. So a fix of the header
does not need to be looked at for them. -/
theorem Canonical.sections_reread {e : Draft} (hd : d.Canonical) (hh : '\n' ∉ e.header)
    (hbody : e.body = d.body) (hfooter : e.footer = d.footer) :
    e.reread.body = d.body ∧ e.reread.footer = d.footer := by
  -- what stands under the header is the same text
  have hunder : e.under = d.under := by
    unfold under
    rw [hbody, hfooter]
  cases hu : d.under with
  | none =>
    obtain ⟨hb, hf⟩ := under_eq_none_iff.mp hu
    rw [reread_of_under_none hh (hunder.trans hu), readHeader_body, readHeader_footer, hb, hf]
    exact ⟨rfl, rfl⟩
  | some T =>
    have hs : e.SectionsFit := hd.sectionsFit.of_body hfooter fun b hb =>
      (hd.body b (hbody ▸ hb)).1
    have hr : e.ReturnsBelow 1 := hd.returnsBelow.of_body hfooter fun b hb =>
      (hd.body b (hbody ▸ hb)).2
    rw [reread_of_reads hh hs hr (hunder.trans hu) (hd.reads hu), readHeader_body,
      readHeader_footer]
    exact ⟨rfl, rfl⟩

/-- A canonical draft is read back from what it is written as: its header from the first line, its
sections from the text under it. -/
theorem Canonical.reread_eq (hd : d.Canonical) : d.reread = d := by
  have hno := not_mem_header hd.headerRead
  cases hu : d.under with
  | none =>
    obtain ⟨hb, hf⟩ := under_eq_none_iff.mp hu
    have := hd.readHeader_header
    rw [hb, hf] at this
    rw [reread_of_under_none hno hu, this]
  | some T =>
    rw [reread_of_reads hno hd.sectionsFit hd.returnsBelow hu (hd.reads hu),
      dropReturn_header hd.headerRead, hd.readHeader_header]

-- ---------------------------------------------------------------------------
-- Drafts that are read back
-- ---------------------------------------------------------------------------

/-- A draft that is read back has lost no return, so there is none to lose. -/
theorem returnsBelow_of_reread_eq (hd : d.SectionsFit) (hh : '\n' ∉ d.header)
    (he : d.reread = d) : d.ReturnsBelow 1 := by
  obtain ⟨k, hk⟩ := exists_returnsBelow d
  induction k with
  | zero => exact hk
  | succ k ih =>
    have := returnsBelow_reread (Nat.succ_pos k) hd hh hk
    rw [he] at this
    exact ih this

/-- A draft that is read back is read from its own header and sections. The two parts do not mix,
because the header has no newline. -/
theorem eq_of_reread_eq (hd : d.HeaderRead) (hs : d.SectionsFit) (he : d.reread = d) :
    readHeader d.header d.body d.footer = d ∧
      ∀ T, d.under = some T → Sections.Reads (rows T) d.body d.footer := by
  have hno := not_mem_header hd
  cases hu : d.under with
  | none =>
    obtain ⟨hb, hf⟩ := under_eq_none_iff.mp hu
    have := reread_of_under_none hno hu
    rw [he] at this
    refine ⟨?_, fun T hT => absurd hT.symm (Option.some_ne_none T)⟩
    rw [hb, hf, ← this]
  | some T =>
    -- no return is lost, so the rows are what is read
    have hreread := reread_of_reads hno hs (returnsBelow_of_reread_eq hs hno he) hu ⟨rfl, rfl⟩
    rw [he, dropReturn_header hd] at hreread
    have hbody := congrArg Draft.body hreread
    have hfooter := congrArg Draft.footer hreread
    rw [readHeader_body] at hbody
    rw [readHeader_footer] at hfooter
    rw [← hbody, ← hfooter] at hreread
    refine ⟨hreread.symm, fun U hU => ?_⟩
    obtain rfl := Option.some.inj hU
    exact ⟨hbody, hfooter⟩

/-- A header that is read back has a type and a subject, or a subject alone that no header pattern
fits. A type without a subject would not be written. -/
theorem canonical_header_of_eq (hd : d.HeaderRead)
    (he : readHeader d.header d.body d.footer = d) : d.TypedHeader ∨ d.UntypedHeader := by
  cases ht : d.type with
  | some t =>
    left
    -- without a subject nothing is written, and nothing gives no type
    have hsubject : ∃ s, d.subject = some s := by
      cases hs : d.subject with
      | some s => exact ⟨s, rfl⟩
      | none =>
        rw [header_of_subject_none hs, readHeader_nil] at he
        rw [← he] at ht
        cases ht
    obtain ⟨s, hs⟩ := hsubject
    refine ⟨⟨t, ht, hd.type_word t ht⟩, fun x hx => ?_, ⟨s, hs, hd.subject_fits s hs⟩⟩
    obtain ⟨htight, hchars⟩ := hd.scope_fits x hx
    refine ⟨htight, ?_, ?_, ?_, ?_⟩ <;> exact fun hc => absurd (hchars _ hc) (by decide)
  | none =>
    right
    obtain ⟨hscope, hmarked⟩ := hd.untyped ht
    refine ⟨ht, hscope, hmarked, fun s hs => ?_⟩
    obtain ⟨htight, hno⟩ := hd.subject_fits s hs
    refine ⟨htight, hno, ?_⟩
    -- the written line is the subject, so a header pattern in it would give a type
    rw [header_of_subject hs, typePrefix_of_type_none ht, List.nil_append] at he
    rw [← Header.read?_eq_none_iff]
    cases hr : Header.read? s with
    | none => rfl
    | some p =>
      rw [readHeader, hr] at he
      rw [← he] at ht
      cases ht

/-- A draft that is read back has a footer that ends in a trailer, or a body that does not. -/
theorem trailer_of_reads (hreads : Sections.Reads (rows T) d.body d.footer) :
    (rows T).getLast?.any isTrailerLine = d.footer.isSome := by
  cases hf : d.footer with
  | none =>
    rw [hf] at hreads
    exact Sections.footerOf_eq_nil_iff.mp (Sections.footerOf_eq_nil_of_reads hreads.2.symm)
  | some f =>
    rw [hf] at hreads
    rw [Option.isSome_some, ← Bool.not_eq_false, ← Sections.footerOf_eq_nil_iff]
    exact Sections.footerOf_ne_nil hreads.2.symm

/-- A draft that is read back is canonical. Each condition fails for a draft that is written as the
same text as another one. -/
theorem canonical_of_reread_eq (hd : d.HeaderRead) (hs : d.SectionsRead) (he : d.reread = d) :
    d.Canonical := by
  obtain ⟨hheader, hreads⟩ := eq_of_reread_eq hd hs.toSectionsFit he
  have hbelow := returnsBelow_of_reread_eq hs.toSectionsFit (not_mem_header hd) he
  refine ⟨canonical_header_of_eq hd hheader, fun b hb => ⟨hs.body_tight b hb, hbelow.body b hb⟩,
    fun f hf => ?_, fun hnone b hb => ?_⟩
  · -- a footer that is read again ends in a trailer
    obtain ⟨T, hu⟩ := exists_under_of_footer hf
    have hlast := trailer_of_reads (hreads T hu)
    rw [getLast?_rows_under hf hu, Option.mem_def.mp hf] at hlast
    refine ⟨hs.footer_tight f hf, hbelow.footer f hf, (hs.footer_read f hf).not_blank, ?_, hlast⟩
    rcases (hs.footer_read f hf).first with hfirst | hsingle
    · exact hfirst
    · rw [hsingle] at hlast ⊢
      exact hlast
  · -- and a body that is read without one does not
    have hu : d.under = some b := by
      rw [under, hnone, Option.mem_def.mp hb]
    have hlast := trailer_of_reads (hreads b hu)
    rwa [hnone] at hlast

end Draft

/-- Exactly the canonical drafts are read back from the text that they are written as. -/
theorem ofMessage_parse_render_eq_iff (d : Draft) :
    Draft.ofMessage (Message.parse d.render) = d ↔ d.Canonical := by
  constructor
  · intro he
    have hd := Draft.headerRead_ofMessage d.render
    have hs := Draft.sectionsRead_ofMessage d.render
    rw [he] at hd hs
    exact Draft.canonical_of_reread_eq hd hs he
  · exact Draft.Canonical.reread_eq

-- ---------------------------------------------------------------------------
-- Canonical messages
-- ---------------------------------------------------------------------------

namespace Message

/-- The characters before the first newline. -/
def firstRow (raw : Text) : Text := raw.takeWhile (· != '\n')

/-- The message is in the form in which drafts are written. -/
structure Canonical (raw : Text) : Prop where
  no_returns : ¬ ['\r', '\n'] <:+: raw
  header_start : ∀ c ∈ (firstRow raw).head?, isWhite c = false
  header_end : ∀ c ∈ (firstRow raw).getLast?, isWhite c = false
  header_plain : ∀ p : Header, p.WellFormed → p.text = firstRow raw →
    p.gap = [' '] ∧ ∀ s ∈ p.scope, Tight s
  shape : raw = firstRow raw ∨ ∃ T, raw = firstRow raw ++ '\n' :: '\n' :: T ∧ Tight T
  sections : ∀ b ∈ (parse raw).body, ∀ f ∈ (parse raw).footer,
    raw = firstRow raw ++ '\n' :: '\n' :: (b ++ '\n' :: '\n' :: f)

theorem not_mem_firstRow (raw : Text) : '\n' ∉ firstRow raw := fun hn => by
  have := Text.of_mem_takeWhile hn
  simp at this

/-- The first row of a written draft is its header, with sections or without. -/
theorem firstRow_append_section (hh : '\n' ∉ h) (u : Option Text) :
    firstRow (h ++ Draft.sectionText u) = h := by
  refine Text.takeWhile_append_of_head (fun c hc => ?_) fun c hc => ?_
  · simpa using fun e : c = '\n' => hh (e ▸ hc)
  · cases u with
    | none => cases hc
    | some t =>
      obtain rfl : '\n' = c := Option.some.inj hc
      rfl

/-- A plain header is written as the line it is read from: with one space as the gap and nothing to
trim, no character of the line is lost. -/
theorem header_readHeader_of_plain (hstart : ∀ c ∈ h.head?, isWhite c = false)
    (hend : ∀ c ∈ h.getLast?, isWhite c = false)
    (hplain : ∀ p : Header, p.WellFormed → p.text = h → p.gap = [' '] ∧ ∀ s ∈ p.scope, Tight s) :
    (Draft.readHeader h body footer).header = h := by
  cases hr : Header.read? h with
  | none =>
    rw [Draft.readHeader_untyped hr]
    by_cases hne : h = []
    · rw [hne]
      rfl
    · rw [Tight.trimmed?_eq ⟨hne, hstart, hend⟩, Draft.header_of_subject rfl]
      rfl
  | some p =>
    obtain ⟨wf, htext⟩ := Header.read?_eq_some_iff.mp hr
    obtain ⟨hgap, hscope⟩ := hplain p wf htext
    have hsubject : Tight p.subject := wf.tight_subject (htext ▸ hend)
    -- the scope has nothing to trim, so it is written as it stood
    have hbind : p.scope.bind trimmed? = p.scope := by
      cases hs : p.scope with
      | none => rfl
      | some s => exact (hscope s hs).trimmed?_eq
    rw [Draft.readHeader, hr]
    dsimp only
    rw [hsubject.trimmed?_eq, hbind, Draft.header_of_subject rfl, Draft.typePrefix]
    dsimp only
    rw [← htext, Header.text, hgap]
    simp

/-- The sections of a plain text under a header make it up again. -/
theorem under_readHeader (hT : Tight T) (hr : Sections.Reads (rows T) body footer)
    (hboth : ∀ b ∈ body, ∀ f ∈ footer, T = b ++ '\n' :: '\n' :: f) :
    (Draft.readHeader h body footer).under = some T := by
  rw [Draft.under, Draft.readHeader_body, Draft.readHeader_footer]
  rcases Draft.reads_cases hT hr with ⟨rfl, rfl⟩ | ⟨rfl, rfl⟩ | ⟨b, f, rfl, rfl⟩
  · rfl
  · rfl
  · rw [hboth b rfl f rfl]

/-- A canonical message is written back as it was read: its first row and the text under it, each by
itself. -/
theorem Canonical.render_parse (hc : Canonical raw) : (parse raw).render = raw := by
  obtain ⟨hreturns, hstart, hend, hplain, hshape, hsections⟩ := hc
  have hno := not_mem_firstRow raw
  generalize firstRow raw = h at *
  have hheader : ∀ body footer, (Draft.readHeader h body footer).header = h := fun _ _ =>
    header_readHeader_of_plain hstart hend hplain
  rw [render, Draft.render_eq]
  rcases hshape with rfl | ⟨T, rfl, hT⟩
  · rw [Draft.ofMessage_parse_none hno, hheader, Draft.under_eq_none_iff.mpr (by simp)]
    exact List.append_nil _
  · obtain ⟨body, footer, hreads⟩ : ∃ body footer, Sections.Reads (rows T) body footer :=
      ⟨_, _, rfl, rfl⟩
    have hsuffix : T <:+ h ++ '\n' :: '\n' :: T := ⟨h ++ ['\n', '\n'], by simp⟩
    have hbelow : Text.ReturnsBelow 1 T := fun hr => hreturns (hr.trans hsuffix.isInfix)
    have hdrop : dropReturn h = h := Text.dropReturn_eq_self fun hr => by
      have := hend _ hr
      simp at this
    have hlines := hreads
    rw [← hT.lines_eq_rows hbelow] at hlines
    have hread := Draft.ofMessage_parse_some hno hT hlines
    rw [Draft.sectionText, hdrop] at hread
    have hbody := congrArg Draft.body hread
    have hfooter := congrArg Draft.footer hread
    rw [Draft.readHeader_body, Draft.ofMessage_body] at hbody
    rw [Draft.readHeader_footer, Draft.ofMessage_footer] at hfooter
    -- with two sections, one blank line stands between them
    have hboth : ∀ b ∈ body, ∀ f ∈ footer, T = b ++ '\n' :: '\n' :: f := by
      intro b hb f hf
      have := hsections b (hbody.trans hb) f (hfooter.trans hf)
      simpa using this
    rw [hread, hheader, under_readHeader hT hreads hboth]
    rfl

/-- A message that is written back as it was read is what its fields are written as. -/
theorem canonical_of_render_parse (he : (parse raw).render = raw) : Canonical raw := by
  have hd := Draft.headerRead_ofMessage raw
  have hs := Draft.sectionsRead_ofMessage raw
  -- the text is what its own draft is written as, so reading gives that draft again
  have hreread : (Draft.ofMessage (parse raw)).reread = Draft.ofMessage (parse raw) := by
    rw [Draft.reread, ← render, he]
  obtain ⟨hheader, _⟩ := Draft.eq_of_reread_eq hd hs.toSectionsFit hreread
  have hbelow := Draft.returnsBelow_of_reread_eq hs.toSectionsFit (Draft.not_mem_header hd) hreread
  have hbody := Draft.ofMessage_body (parse raw)
  have hfooter := Draft.ofMessage_footer (parse raw)
  rw [render] at he
  generalize Draft.ofMessage (parse raw) = d at *
  have hreturns := Draft.returnsBelow_render Nat.one_pos hd hs.toSectionsFit hbelow
  rw [he] at hreturns
  rw [Draft.render_eq] at he
  have hfirst : firstRow raw = d.header := by
    rw [← he, firstRow_append_section (Draft.not_mem_header hd)]
  refine ⟨hreturns, ?_, ?_, ?_, ?_, ?_⟩
  · rw [hfirst]
    exact Draft.head_header hd
  · rw [hfirst]
    exact Draft.last_header hd
  · intro p wf htext
    have hr := Header.read?_eq_some_iff.mpr ⟨wf, htext⟩
    rw [hfirst] at hr
    rcases Draft.canonical_header_of_eq hd hheader with htyped | huntyped
    · obtain ⟨t, ht, _⟩ := htyped.type
      obtain ⟨s, hsubject, htight, _⟩ := htyped.subject
      rw [Draft.header_of_subject hsubject, Draft.read?_typed hd ht htight.head] at hr
      obtain rfl := Option.some.inj hr
      exact ⟨rfl, fun s hs => (hd.scope_fits s hs).1⟩
    · have htype := huntyped.type
      rw [← hheader, Draft.readHeader, hr] at htype
      cases htype
  · rw [hfirst]
    cases hu : d.under with
    | none =>
      left
      rw [← he, hu, Draft.sectionText, List.append_nil]
    | some T =>
      right
      refine ⟨T, ?_, Draft.tight_under hs.toSectionsFit hu⟩
      rw [← he, hu]
      rfl
  · intro b hb f hf
    rw [← hbody, Option.mem_def] at hb
    rw [← hfooter, Option.mem_def] at hf
    have hu : d.under = some (b ++ '\n' :: '\n' :: f) := by rw [Draft.under, hb, hf]
    rw [hfirst, ← he, hu]
    rfl

end Message

/-- Exactly the canonical messages are written back as they were read. The conditions are on the
text and its sections, and none of them speaks of writing. -/
theorem render_parse_eq_iff (raw : Text) :
    (Message.parse raw).render = raw ↔ Message.Canonical raw :=
  ⟨Message.canonical_of_render_parse, Message.Canonical.render_parse⟩

end ConventionalCommit
