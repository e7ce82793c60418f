import ConventionalCommit.Proofs.Message.HeaderFields
import ConventionalCommit.Proofs.Message.SectionTexts

/-!
# ConventionalCommit — reading a written draft again

A draft is written as its header and, after a blank line, the text of its
sections (`Draft.under`). Reading that text cuts it again: at a footer that
still stands, or nowhere.

* `ofMessage_parse_some`: the header line and the text under it are read
  independently of each other;
* `sectionsRead_ofMessage`: what every reading yields.
-/

namespace ConventionalCommit

open Text (trimmed? Tight lines rows unlines dropReturn isBlank ReturnsBelow)
open Trailer (isTrailerLine)

-- ---------------------------------------------------------------------------
-- The text under the header
-- ---------------------------------------------------------------------------

namespace Draft

variable {d : Draft} {h T b f : Text} {u : Option Text}

/-- The sections of a draft as one text, with a blank line between them. -/
def under (d : Draft) : Option Text :=
  match d.body, d.footer with
  | none, footer => footer
  | some b, none => some b
  | some b, some f => some (b ++ '\n' :: '\n' :: f)

/-- A draft is written as its header line and the text under it. The blank line between them is part
of `sectionText`. -/
theorem render_eq (d : Draft) : d.render = d.header ++ sectionText d.under := by
  rw [render, under]
  cases d.body <;> cases d.footer <;> simp [sectionText]

theorem under_eq_body (h : d.footer = none) : d.under = d.body := by
  rw [under, h]
  cases d.body <;> rfl

/-- The draft that is read from a draft as it is written. -/
def reread (d : Draft) : Draft := ofMessage (Message.parse d.render)

/-- A header line alone is one line, or none if it is empty. -/
theorem lines_section_none (hh : '\n' ∉ h) :
    lines (h ++ sectionText none) = if h = [] then [] else [h] := by
  rw [sectionText, List.append_nil, lines, Text.rows_of_not_mem hh]
  simp [Text.endings]

/-- The lines of a written draft: the header line, which loses a return at its end, a blank line,
and the lines of the sections. -/
theorem lines_section_some (hh : '\n' ∉ h) (T : Text) :
    lines (h ++ sectionText (some T)) = dropReturn h :: [] :: lines T := by
  rw [sectionText, Text.lines_append_newline, Text.rows_of_not_mem hh, Text.lines_newline]
  rfl

end Draft

-- ---------------------------------------------------------------------------
-- The sections of a draft
-- ---------------------------------------------------------------------------

namespace Draft

open Sections (Reads FooterRead BodyRead footerOf)

variable {d : Draft} {h T b f line : Text} {body footer : Option Text} {k : Nat}

/-- The sections are trimmed, and the footer may have been read as one. -/
structure SectionsFit (d : Draft) : Prop where
  body_tight : ∀ b ∈ d.body, Tight b
  footer_tight : ∀ f ∈ d.footer, Tight f
  footer_read : ∀ f ∈ d.footer, FooterRead f

/-- The sections are such as reading a message yields. -/
structure SectionsRead (d : Draft) : Prop extends SectionsFit d where
  body_read : d.footer = none → ∀ b ∈ d.body, BodyRead b

/-- Another tight body fits as well. -/
theorem SectionsFit.of_body {e : Draft} (h : d.SectionsFit) (hfooter : e.footer = d.footer)
    (hbody : ∀ b ∈ e.body, Tight b) : e.SectionsFit := by
  refine ⟨hbody, ?_, ?_⟩
  · rw [hfooter]
    exact h.footer_tight
  · rw [hfooter]
    exact h.footer_read

/-- The sections of every message that is read are trimmed. A footer begins and ends in a trailer,
and a body without a footer does not end in one, because it would be read as a footer otherwise. -/
theorem sectionsRead_ofMessage (raw : Text) : (ofMessage (Message.parse raw)).SectionsRead := by
  obtain ⟨hbody, hfooter⟩ := Sections.reads_core raw
  have hno : ∀ l ∈ Sections.core ((lines raw).drop 1), '\n' ∉ l := fun l hl =>
    Text.not_mem_of_mem_lines (Sections.core_drop_subset _ hl)
  generalize Message.parse raw = m at hbody hfooter ⊢
  refine ⟨⟨fun b hb => ?_, fun f hf => ?_, fun f hf => ?_⟩, fun hnone b hb => ?_⟩
  · exact Tight.of_trimmed? (hbody.symm.trans hb)
  · exact Tight.of_trimmed? (hfooter.symm.trans hf)
  · exact Sections.footerRead_of_reads hno (hfooter.symm.trans hf)
  · have hnil := Sections.footerOf_eq_nil_of_reads (hfooter.symm.trans hnone)
    rw [Sections.beforeFooter_eq hnil (List.append_nil _).symm] at hbody
    exact Sections.bodyRead_of_reads hno (Sections.isBlank_head_core _)
      (Sections.isBlank_getLast_core _) hnil (hbody.symm.trans hb)

/-- A header line on its own is read as a header without sections. A return at its end is no part of
the line only if a newline follows, so it stays. -/
theorem ofMessage_parse_none (hh : '\n' ∉ h) :
    ofMessage (Message.parse h) = readHeader h none none := by
  have hlines := lines_section_none hh
  rw [sectionText, List.append_nil] at hlines
  rw [ofMessage_parse]
  simp only [Message.parse, hlines]
  -- an empty line is no line, and an empty header says the same
  by_cases hne : h = []
  · rw [hne]
    rfl
  · rw [if_neg hne]
    have hheader : (Sections.ofLines [h]).header.flatten = h := by simp [Sections.ofLines]
    rw [hheader]
    rfl

theorem core_lines (hT : Tight T) : Sections.core (lines T) = lines T := by
  refine Sections.core_eq_self (fun l hl => ?_) fun l hl => ?_
  · obtain ⟨hne, hhead⟩ := hT.first_line hl
    exact Text.isBlank_eq_false_of_head hne hhead
  · obtain ⟨hne, hlast⟩ := hT.last_line hl
    exact Text.isBlank_eq_false_of_last hne hlast

/-- What is under the header of a written draft are the lines of its sections. -/
theorem core_section_some (hh : '\n' ∉ h) (hT : Tight T) :
    Sections.core ((lines (h ++ sectionText (some T))).drop 1) = lines T := by
  rw [lines_section_some hh, List.drop_succ_cons, List.drop_zero, Sections.core_cons_blank rfl,
    core_lines hT]

/-- The header line and the text under it are read independently of each other. -/
theorem ofMessage_parse_some (hh : '\n' ∉ h) (hT : Tight T) (hr : Reads (lines T) body footer) :
    ofMessage (Message.parse (h ++ sectionText (some T))) =
      readHeader (dropReturn h) body footer := by
  obtain ⟨hbody, hfooter⟩ := Sections.reads_core (h ++ sectionText (some T))
  rw [core_section_some hh hT] at hbody hfooter
  have hheader : (Message.parse (h ++ sectionText (some T))).header = dropReturn h := by
    rw [Message.header_parse, Text.firstLine, lines_section_some hh]
    rfl
  rw [ofMessage_parse, hheader, hbody, hfooter, hr.1, hr.2]

theorem not_mem_header_parse (raw : Text) : '\n' ∉ (Message.parse raw).header := by
  rw [Message.header_parse]
  exact Text.not_mem_firstLine raw

/-- The header fields of every message that is read are such as reading a line yields. -/
theorem headerRead_ofMessage (raw : Text) : (ofMessage (Message.parse raw)).HeaderRead := by
  rw [ofMessage_parse]
  exact headerRead_readHeader (not_mem_header_parse raw) _ _

/-- A header that has been read does not end in a return, so it stays whole when its line is cut off
again. -/
theorem dropReturn_header (hd : d.HeaderRead) : dropReturn d.header = d.header :=
  Text.dropReturn_eq_self (getLast?_header_ne_return hd)

/-- Without sections only the header is read again. -/
theorem reread_of_under_none (hh : '\n' ∉ d.header) (hu : d.under = none) :
    d.reread = readHeader d.header none none := by
  rw [reread, render_eq, hu, sectionText, List.append_nil, ofMessage_parse_none hh]

/-- With sections the header line and the lines under it are read, each on its own. -/
theorem reread_of_under_some (hh : '\n' ∉ d.header) (hu : d.under = some T) (hT : Tight T)
    (hr : Reads (lines T) body footer) :
    d.reread = readHeader (dropReturn d.header) body footer := by
  rw [reread, render_eq, hu, ofMessage_parse_some hh hT hr]

/-- The text under the header is trimmed as a whole, because its first and its last section are. -/
theorem tight_under (hd : d.SectionsFit) (hu : d.under = some T) : Tight T := by
  unfold under at hu
  split at hu
  · exact hd.footer_tight T hu
  · next b hb _ =>
    obtain rfl := Option.some.inj hu
    exact hd.body_tight b hb
  · next b f hb hf =>
    obtain rfl := Option.some.inj hu
    have := (hd.body_tight b hb).append (hd.footer_tight f hf) ['\n', '\n']
    simpa using this

/-- A pass reads the header fields from the header line alone. The line may have lost a return, if a
section follows. -/
theorem exists_reread_eq (hh : '\n' ∉ d.header) (hs : d.SectionsFit) :
    ∃ line body footer, (line = d.header ∨ line = dropReturn d.header) ∧
      d.reread = readHeader line body footer := by
  cases hu : d.under with
  | none => exact ⟨_, none, none, Or.inl rfl, reread_of_under_none hh hu⟩
  | some T =>
    exact ⟨_, _, _, Or.inr rfl, reread_of_under_some hh hu (tight_under hs hu) ⟨rfl, rfl⟩⟩

-- ---------------------------------------------------------------------------
-- Where the text under the header is cut
-- ---------------------------------------------------------------------------

theorem rows_blank_between (b f : Text) :
    rows (b ++ '\n' :: '\n' :: f) = rows b ++ [] :: rows f := by
  rw [Text.rows_append_newline, Text.rows_newline]

theorem under_eq_none_iff : d.under = none ↔ d.body = none ∧ d.footer = none := by
  unfold under
  split <;> simp_all

theorem exists_under_of_body (hb : d.body = some b) : ∃ T, d.under = some T := by
  rw [← Option.ne_none_iff_exists']
  intro hnone
  rw [(under_eq_none_iff.mp hnone).1] at hb
  cases hb

theorem exists_under_of_footer (hf : d.footer = some f) : ∃ T, d.under = some T := by
  rw [← Option.ne_none_iff_exists']
  intro hnone
  rw [(under_eq_none_iff.mp hnone).2] at hf
  cases hf

/-- The last row of the text is the last row of the footer, if there is one. -/
theorem getLast?_rows_under (hf : d.footer = some f) (hu : d.under = some T) :
    (rows T).getLast? = (rows f).getLast? := by
  unfold under at hu
  rw [hf] at hu
  split at hu
  · rw [Option.some.inj hu]
  · next h => cases h
  · next b g hb hg =>
    obtain rfl := Option.some.inj hg
    obtain rfl := Option.some.inj hu
    rw [rows_blank_between, List.getLast?_append_of_ne_nil _ (List.cons_ne_nil _ _),
      ← List.singleton_append, List.getLast?_append_of_ne_nil _ (Text.rows_ne_nil f)]

/-- The lines of body and footer, with a blank one between them. The body is trimmed, so none of its
lines is lost where it ends. -/
theorem lines_under (hs : d.SectionsFit) (hb : d.body = some b) (hf : d.footer = some f)
    (hu : d.under = some T) : lines T = lines b ++ [] :: lines f := by
  rw [under, hb, hf] at hu
  obtain rfl := Option.some.inj hu
  rw [Text.lines_append_newline, Text.lines_newline, (hs.body_tight b hb).lines_eq_map]

/-- What stands before the footer has no part in what is found, because a blank line is in front of
the footer. -/
theorem footerOf_lines_under (hf : d.footer = some f) (hu : d.under = some T) :
    footerOf (lines T) = footerOf (lines f) := by
  unfold under at hu
  rw [hf] at hu
  split at hu
  · rw [Option.some.inj hu]
  · next h => cases h
  · next b g hb hg =>
    obtain rfl := Option.some.inj hg
    obtain rfl := Option.some.inj hu
    rw [Text.lines_append_newline, Text.lines_newline, Sections.footerOf_append_blank rfl]

/-- A footer that still ends in a trailer is a footer as a whole. -/
theorem footerOf_rows (hf : FooterRead f) (hlast : (rows f).getLast?.any isTrailerLine = true) :
    footerOf (rows f) = rows f := by
  refine Sections.footerOf_eq_self hf.not_blank ?_ hlast
  rcases hf.first with h | h
  · exact h
  · rw [h] at hlast ⊢
    exact hlast

/-- A footer that stands is found again, and so is the body before it: the blank line between them
keeps the search for the footer from going on into the body. -/
theorem reads_of_stands (hd : d.SectionsFit) (hf : d.footer = some f)
    (hstands : footerOf (rows f) = rows f) (hu : d.under = some T) :
    Reads (rows T) d.body d.footer := by
  have htight := hd.footer_tight f hf
  have hreads : trimmed? (unlines (rows f)) = some f := by
    rw [Text.unlines_rows, htight.trimmed?_eq]
  unfold under at hu
  rw [hf] at hu ⊢
  split at hu
  · -- a footer alone
    next hb =>
    obtain rfl := Option.some.inj hu
    rw [hb, ← hreads]
    exact Sections.reads_of_footerOf_eq_self hstands
  · next h => cases h
  · -- a body, an empty row and the footer
    next b g hb hg =>
    obtain rfl := Option.some.inj hg
    obtain rfl := Option.some.inj hu
    rw [hb, ← hreads, rows_blank_between]
    exact Sections.reads_append_blank (hd.body_tight b hb) rfl rfl hstands

/-- Without a trailer at the end the whole text is read as the body. -/
theorem reads_of_no_trailer (hT : Tight T) (h : (rows T).getLast?.any isTrailerLine = false) :
    Reads (rows T) (some T) none := by
  have := Sections.reads_of_no_trailer h
  rwa [Text.unlines_rows, hT.trimmed?_eq] at this

/-- A footer that is read from a tight text ends in a trailer. The last row of the text is not
trimmed any further, so it is the last line of the footer. -/
theorem stands_of_reads (hT : Tight T) (hr : Reads (rows T) body footer) :
    ∀ f ∈ footer, (rows f).getLast?.any isTrailerLine = true := by
  intro f hf
  have hreads : trimmed? (unlines (footerOf (rows T))) = some f := hr.2.symm.trans hf
  have hne := Sections.footerOf_ne_nil hreads
  have hsuffix := Sections.footerOf_suffix (rows T)
  obtain ⟨hfirst, hlast⟩ := Sections.footerOf_ends hne
  -- its first line begins with a letter, and its last line is the last one of a tight text
  have htight : Tight (unlines (footerOf (rows T))) := by
    refine Text.tight_unlines hne (fun l hl => ?_) fun l hl => ?_
    · rw [hl, Option.any_some] at hfirst
      obtain ⟨c, tail, rfl, hc⟩ := Trailer.isTrailerLine_head hfirst
      refine ⟨List.cons_ne_nil _ _, fun x hx => ?_⟩
      rwa [← Option.some.inj hx]
    · obtain ⟨front, hfront⟩ := List.getLast?_eq_some_iff.mp hl
      obtain ⟨before, hbefore⟩ := hsuffix
      rw [hfront, ← List.append_assoc] at hbefore
      exact hT.last_row hbefore.symm
  rw [htight.trimmed?_eq] at hreads
  rw [← Option.some.inj hreads, Text.rows_unlines hne fun l hl =>
    Text.not_mem_of_mem_rows (hsuffix.subset hl)]
  exact hlast

/-- A tight text is read as a body, as a footer, or as both. It cannot be read as neither, because
it is not blank. -/
theorem reads_cases (hT : Tight T) (hr : Reads (rows T) body footer) :
    (body = some T ∧ footer = none) ∨ (body = none ∧ footer = some T) ∨
      ∃ b f, body = some b ∧ footer = some f := by
  obtain ⟨hbody, hfooter⟩ := hr
  have hsplit := Sections.beforeFooter_append_footerOf (rows T)
  have hwhole : trimmed? (unlines (rows T)) = some T := by rw [Text.unlines_rows, hT.trimmed?_eq]
  cases footer with
  | none =>
    rw [Sections.footerOf_eq_nil_of_reads hfooter.symm, List.append_nil] at hsplit
    rw [hsplit, hwhole] at hbody
    exact Or.inl ⟨hbody, rfl⟩
  | some f =>
    right
    cases body with
    | some b => exact Or.inr ⟨b, f, rfl, rfl⟩
    | none =>
      left
      -- the first row is not blank, so there is no row before the footer
      have hblank := Text.trimmed?_eq_none_iff_isBlank.mp hbody.symm
      rw [Text.isBlank_unlines] at hblank
      cases hbefore : Sections.beforeFooter (rows T) with
      | nil =>
        rw [hbefore, List.nil_append] at hsplit
        rw [hsplit, hwhole] at hfooter
        exact ⟨rfl, hfooter⟩
      | cons x rest =>
        rw [hbefore, List.all_cons, Bool.and_eq_true] at hblank
        rw [hbefore, List.cons_append] at hsplit
        obtain ⟨hne, hhead⟩ := hT.first_row hsplit.symm
        have := Text.isBlank_eq_false_of_head hne hhead
        rw [hblank.1] at this
        cases this

/-- A text of one row is read as one section, the footer if the row is a trailer and the body
otherwise. -/
theorem reads_of_single_row (hT : Tight T) (h : rows T = [T]) :
    Reads (rows T) (some T) none ∨ Reads (rows T) none (some T) := by
  cases ht : isTrailerLine T with
  | false => exact Or.inl (reads_of_no_trailer hT (by rw [h]; simpa using ht))
  | true =>
    right
    have hfooter : footerOf (rows T) = rows T := by
      refine Sections.footerOf_eq_self (fun l hl => ?_) ?_ ?_
      · rw [h, List.mem_singleton] at hl
        rw [hl]
        exact hT.isBlank_eq_false
      all_goals rw [h]; simpa using ht
    have := Sections.reads_of_footerOf_eq_self hfooter
    rwa [Text.unlines_rows, hT.trimmed?_eq] at this

-- ---------------------------------------------------------------------------
-- Returns before newlines in the sections
-- ---------------------------------------------------------------------------

/-- No newline in a section has `k` returns directly before it. -/
structure ReturnsBelow (k : Nat) (d : Draft) : Prop where
  body : ∀ b ∈ d.body, Text.ReturnsBelow k b
  footer : ∀ f ∈ d.footer, Text.ReturnsBelow k f

theorem ReturnsBelow.mono {j : Nat} (h : ReturnsBelow j d) (hjk : j ≤ k) : ReturnsBelow k d :=
  ⟨fun b hb => (h.body b hb).mono hjk, fun f hf => (h.footer f hf).mono hjk⟩

/-- An edit of the body alone keeps the bound if the new body does. -/
theorem ReturnsBelow.of_body {e : Draft} (h : ReturnsBelow k d) (hfooter : e.footer = d.footer)
    (hbody : ∀ b ∈ e.body, Text.ReturnsBelow k b) : ReturnsBelow k e := by
  refine ⟨hbody, ?_⟩
  rw [hfooter]
  exact h.footer

/-- The blank line between the sections brings no return before a newline, since a trimmed body does
not end in one. -/
theorem returnsBelow_under (hk : 0 < k) (hd : d.SectionsFit) (h : d.ReturnsBelow k)
    (hu : d.under = some T) : Text.ReturnsBelow k T := by
  unfold under at hu
  split at hu
  · exact h.footer T hu
  · next b hb _ =>
    obtain rfl := Option.some.inj hu
    exact h.body b hb
  · next b f hb hf =>
    obtain rfl := Option.some.inj hu
    exact Text.returnsBelow_append_blank hk (h.body b hb) (hd.body_tight b hb).getLast?_ne_return
      (h.footer f hf)

theorem reread_of_reads (hh : '\n' ∉ d.header) (hs : d.SectionsFit) (hr : d.ReturnsBelow 1)
    (hu : d.under = some T) (hreads : Reads (rows T) body footer) :
    d.reread = readHeader (dropReturn d.header) body footer := by
  have hT := tight_under hs hu
  have hbelow := returnsBelow_under Nat.one_pos hs hr hu
  rw [← hT.lines_eq_rows hbelow] at hreads
  exact reread_of_under_some hh hu hT hreads

/-- The header line has no newline at all, so only the sections matter. -/
theorem returnsBelow_render (hk : 0 < k) (hd : d.HeaderRead) (hs : d.SectionsFit)
    (h : d.ReturnsBelow k) : Text.ReturnsBelow k d.render := by
  have hheader : Text.ReturnsBelow k d.header := fun hr =>
    not_mem_header hd (hr.subset (by simp))
  rw [render_eq]
  cases hu : d.under with
  | none => rwa [sectionText, List.append_nil]
  | some T =>
    exact Text.returnsBelow_append_blank hk hheader (getLast?_header_ne_return hd)
      (returnsBelow_under hk hs h hu)

/-- The sections are parts of the text that they are read from, and take over its bound. -/
theorem returnsBelow_of_reads {ls : List Text} (hr : Reads ls body footer)
    (h : Text.ReturnsBelow k (unlines ls)) :
    (readHeader line body footer).ReturnsBelow k := by
  refine ⟨fun b hb => h.of_isInfix ?_, fun f hf => h.of_isInfix ?_⟩
  · rw [readHeader_body] at hb
    exact hr.isInfix_body hb
  · rw [readHeader_footer] at hf
    exact hr.isInfix_footer hf

/-- Reading a message takes a return from before each newline, and the sections are parts of what is
left. -/
theorem returnsBelow_ofMessage (hk : 0 < k) {raw : Text} (h : Text.ReturnsBelow (k + 1) raw) :
    (ofMessage (Message.parse raw)).ReturnsBelow k := by
  rw [ofMessage_parse]
  refine returnsBelow_of_reads (Sections.reads_core raw) ?_
  obtain ⟨xs, ys, hcore⟩ :=
    (Sections.core_isInfix ((lines raw).drop 1)).trans (List.drop_suffix _ _).isInfix
  have hpart := Text.unlines_isInfix xs (Sections.core ((lines raw).drop 1)) ys
  rw [hcore] at hpart
  exact (Text.returnsBelow_unlines_lines hk h).of_isInfix hpart

/-- Each reading takes a return from before each newline, so the bound goes down by one. -/
theorem returnsBelow_reread (hk : 0 < k) (hd : d.SectionsFit) (hh : '\n' ∉ d.header)
    (h : d.ReturnsBelow (k + 1)) : d.reread.ReturnsBelow k := by
  cases hu : d.under with
  | none =>
    rw [reread_of_under_none hh hu]
    exact returnsBelow_of_reads Sections.reads_nil fun hi => by simpa using hi.length_le
  | some T =>
    have hT := tight_under hd hu
    have hbelow := returnsBelow_under (Nat.succ_pos k) hd h hu
    rw [reread_of_under_some hh hu hT ⟨rfl, rfl⟩]
    exact returnsBelow_of_reads ⟨rfl, rfl⟩ (Text.returnsBelow_unlines_lines hk hbelow)

/-- Some bound holds of every draft, for instance the length of its sections. So there is a reading
after which no return is left before a newline. -/
theorem exists_returnsBelow (d : Draft) : ∃ k, d.ReturnsBelow (k + 1) := by
  have hsection : ∀ o : Option Text, ∃ k, ∀ t ∈ o, Text.ReturnsBelow (k + 1) t := fun o =>
    match o with
    | none => ⟨0, fun _ h => absurd h (Option.not_mem_none _)⟩
    | some t => ⟨t.length, fun u hu => Option.some.inj hu ▸ Text.returnsBelow_length t⟩
  obtain ⟨j, hj⟩ := hsection d.body
  obtain ⟨k, hk⟩ := hsection d.footer
  exact ⟨max j k, fun b hb => (hj b hb).mono (by omega), fun f hf => (hk f hf).mono (by omega)⟩

end Draft

end ConventionalCommit
