import ConventionalCommit.Proofs.Fix.Header
import ConventionalCommit.Proofs.Fix.Subject
import ConventionalCommit.Proofs.Message.RoundTrip

/-!
# ConventionalCommit — reading a fixed header again

The first line of a fixed message is the header of the fixed draft. What is read
from it falls into three cases (`ReadAs`): the subject was lost and the line is
empty, or the fields come back with what is left of the subject, or a line that had
no type is one that the header pattern fits by now.

* `HeaderFit.readAs`: there are no other cases;
* `HeaderFit.exists_subject_eq`: the next subject is a part of this one, between white
  space;
* `length_header_readHeader`: no header is longer than the line it was read from;
* `header_cut_exact`: a header is cut to its exact limit, so what is read from a fixed message
  fits as well.
-/

namespace ConventionalCommit

open Unicode (isWhite)
open Text (Tight trimmed? lines dropReturn isBlank)

variable {o : FixOptions} {c : Config} {d r : Draft} {line raw t v y : Text}
  {body footer : Option Text}

namespace Draft

/-- The first line of a written draft is its header, which may lose a return. -/
theorem header_parse_render (hh : '\n' ∉ d.header) :
    (Message.parse d.render).header = d.header ∨
      (Message.parse d.render).header = dropReturn d.header := by
  rw [Message.header_parse, Text.firstLine, render_eq]
  cases hu : d.under with
  | none =>
    left
    rw [lines_section_none hh]
    split
    · next hnil => rw [hnil]; rfl
    · simp
  | some T =>
    right
    rw [lines_section_some hh]
    simp

/-- How the header fields of a draft can come back from its header line. -/
inductive ReadAs (d : Draft) (line : Text) (r : Draft) : Prop where
  /-- The subject was lost, and all other fields with it. -/
  | empty (subject : d.subject = none) (line_nil : line = [])
      (fields : r = { type := none, scope := none, subject := none, body := r.body,
                      footer := r.footer, marked := false })
  /-- The fields are kept, but for white space at the end of the subject. -/
  | kept (v y : Text) (subject : d.subject = some v) (trimmed : trimmed? v = some y)
      (unfit : d.type = none → ¬ Header.Fits line)
      (fields : r = { d with subject := some y, body := r.body, footer := r.footer })
  /-- The line had no type, but it is a header. -/
  | typed (p : Header) (untyped : d.type = none) (wellFormed : p.WellFormed)
      (text : p.text = line)
      (fields : r = { type := some p.type, scope := p.scope.bind trimmed?,
                      subject := trimmed? p.subject, body := r.body, footer := r.footer,
                      marked := p.marked })

/-- Whatever is read from a fixed header, it is one of the three cases. Which one it is depends on
whether there is a subject and on whether the line fits the pattern without a type. -/
theorem HeaderFit.readAs (hd : d.HeaderFit)
    (hline : line = d.header ∨ line = dropReturn d.header) (body footer : Option Text) :
    d.ReadAs line (readHeader line body footer) := by
  cases hv : d.subject with
  | none =>
    rw [header_of_subject_none hv] at hline
    obtain rfl : line = [] := hline.elim id id
    exact .empty hv rfl rfl
  | some v =>
    -- a typed header is always read as it was written, an untyped one unless it fits the pattern
    by_cases hread : d.type = none → Header.read? line = none
    · obtain ⟨hne, hhead, -⟩ := hd.subject v hv
      obtain ⟨y, hy, -⟩ := exists_trimmed?_cut hne hhead
      refine .kept v y hv hy (fun h => Header.read?_eq_none_iff.mp (hread h)) ?_
      rw [hd.readHeader_eq hv hline hread, hy]
    · rw [Classical.not_imp] at hread
      obtain ⟨p, hp⟩ := Option.ne_none_iff_exists'.mp hread.2
      obtain ⟨wf, htext⟩ := Header.read?_eq_some_iff.mp hp
      refine .typed p hread.1 wf htext ?_
      rw [readHeader, hp]

/-- Without a type the line is the subject, which may lose a return. -/
theorem exists_append_of_untyped (hv : d.subject = some v) (htype : d.type = none)
    (hline : line = d.header ∨ line = dropReturn d.header) :
    ∃ rest, v = line ++ rest ∧ isBlank rest = true := by
  rw [header_of_subject hv, typePrefix_of_type_none htype, List.nil_append] at hline
  rcases hline with rfl | rfl
  · exact ⟨[], (List.append_nil _).symm, rfl⟩
  · rcases Text.dropReturn_cases v with ⟨-, hsame⟩ | hsame
    · exact ⟨[], by rw [hsame, List.append_nil], rfl⟩
    · exact ⟨['\r'], hsame, rfl⟩

/-- The next subject is a part of this one, with nothing but white space next to it. -/
theorem HeaderFit.exists_subject_eq (hd : d.HeaderFit) (hv : d.subject = some v)
    (hline : line = d.header ∨ line = dropReturn d.header)
    (hy : (readHeader line body footer).subject = some y) :
    ∃ front back, v = front ++ y ++ back ∧ (∀ x ∈ front.getLast?, isWhite x = true) ∧
      isBlank back = true := by
  have hblank : ∀ {t : Text}, isBlank t = true → ∀ x ∈ t.getLast?, isWhite x = true :=
    fun ht x hx => Text.isBlank_iff.mp ht x (List.mem_of_mem_getLast? hx)
  rcases hd.readAs hline body footer with ⟨hnone, -, -⟩ | ⟨v', y', hv', htrim, -, hr⟩ |
    ⟨p, htype, wf, htext, hr⟩
  · rw [hv] at hnone
    cases hnone
  · rw [hr] at hy
    obtain rfl := Option.some.inj hy
    obtain rfl := Option.some.inj (hv.symm.trans hv')
    obtain ⟨front, back, hsplit, hfront, hback⟩ := Text.exists_of_trimmed? htrim
    exact ⟨front, back, hsplit, hblank hfront, hback⟩
  · rw [hr] at hy
    obtain ⟨front, back, hsplit, hfront, hback⟩ := Text.exists_of_trimmed? hy
    -- the line is the subject, and in it the gap of the header comes before the next one
    obtain ⟨rest, rfl, hrest⟩ := exists_append_of_untyped hv htype hline
    refine ⟨p.type ++ Header.scopeText p.scope ++ Header.markText p.marked ++
      ':' :: (p.gap ++ front), back ++ rest, ?_, fun x hx => ?_, ?_⟩
    · rw [← htext, Header.text, hsplit]
      simp
    · rw [List.getLast?_append_of_ne_nil _ (List.cons_ne_nil _ _),
        ← List.singleton_append, List.getLast?_append_of_ne_nil _ (by simp [wf.gap_ne_nil])] at hx
      rcases List.mem_append.mp (List.mem_of_mem_getLast? hx) with hx | hx
      · exact wf.gap_white x hx
      · exact Text.isBlank_iff.mp hfront x hx
    · rw [Text.isBlank_append, hback, hrest]
      rfl

/-- Reading a header and writing it makes it no longer. The gap becomes one space, and scope and
subject lose the white space around them. -/
theorem length_header_readHeader (line : Text) (body footer : Option Text) :
    (readHeader line body footer).header.length ≤ line.length := by
  have htrim : ∀ {t u : Text}, trimmed? t = some u → u.length ≤ t.length := fun h =>
    (Text.infix_of_trimmed? h).length_le
  cases hs : (readHeader line body footer).subject with
  | none =>
    rw [header_of_subject_none hs]
    exact Nat.zero_le _
  | some s =>
    rw [header_of_subject hs, List.length_append]
    cases hr : Header.read? line with
    | none =>
      rw [readHeader_untyped hr] at hs ⊢
      exact (Nat.zero_add _).trans_le (htrim hs)
    | some p =>
      obtain ⟨wf, rfl⟩ := Header.read?_eq_some_iff.mp hr
      -- the gap has a character at least, and it is written as one space
      have hgap := List.length_pos_of_ne_nil wf.gap_ne_nil
      have hscope : (Header.scopeText (p.scope.bind trimmed?)).length ≤
          (Header.scopeText p.scope).length := by
        cases hp : p.scope with
        | none => exact Nat.le_refl _
        | some scope =>
          cases ht : trimmed? scope with
          | none =>
            rw [Option.bind_some, ht]
            exact Nat.zero_le _
          | some u =>
            have hu := htrim ht
            rw [Option.bind_some, ht]
            simp only [Header.scopeText, List.length_cons, List.length_append]
            omega
      rw [readHeader, hr] at hs ⊢
      have hsubject := htrim hs
      simp only [typePrefix, Header.text, List.length_append, List.length_cons, List.length_nil]
      omega

end Draft

-- ---------------------------------------------------------------------------
-- The first line of a fixed message
-- ---------------------------------------------------------------------------

/-- The text of a fix is the fixed draft as it is written. -/
theorem eq_render_of_fixMessage (h : fixMessage o c raw = some t) :
    t = (fixDraft o c (Draft.ofMessage (Message.parse raw))).render := by
  rw [fixMessage] at h
  split at h
  · cases h
  · exact (Option.some.inj h).symm

/-- The first line of a fixed message is the fixed header, without a return at its end. -/
theorem header_fixMessage (h : fixMessage o c raw = some t) :
    (Message.parse t).header = (fixDraft o c (Draft.ofMessage (Message.parse raw))).header ∨
      (Message.parse t).header =
        dropReturn (fixDraft o c (Draft.ofMessage (Message.parse raw))).header := by
  rw [eq_render_of_fixMessage h]
  exact Draft.header_parse_render
    (Draft.headerFit_fixDraft (Draft.headerRead_ofMessage raw)).not_mem_header

theorem readAs_fixMessage (h : fixMessage o c raw = some t) :
    (fixDraft o c (Draft.ofMessage (Message.parse raw))).ReadAs (Message.parse t).header
      (Draft.ofMessage (Message.parse t)) := by
  rw [Draft.ofMessage_parse t]
  exact (Draft.headerFit_fixDraft (Draft.headerRead_ofMessage raw)).readAs (header_fixMessage h) _ _

/-- A subject is fixed to begin in the right case. It does not begin so when it is read again only
if a line without a type is a header by now. -/
theorem fits_of_not_admits (hcase : o.adjustCase = true) (h : fixMessage o c raw = some t)
    (hy : (Message.parse t).subject = some y) {x : Char} (hx : x ∈ y.head?)
    (hadmits : c.subjectCase.admits x = false) :
    (fixDraft o c (Draft.ofMessage (Message.parse raw))).type = none ∧
      Header.Fits (Message.parse t).header := by
  have hd := Draft.headerRead_ofMessage raw
  have hy : (Draft.ofMessage (Message.parse t)).subject = some y := hy
  rcases readAs_fixMessage h with ⟨-, -, hr⟩ | ⟨v, y', hv, htrim, -, hr⟩ | ⟨p, hnone, wf, htext, -⟩
  · rw [hr] at hy
    cases hy
  · -- the cased subject begins as it must, and so does what is left of it
    rw [hr] at hy
    obtain rfl : y' = y := Option.some.inj hy
    obtain ⟨hne, hhead, -⟩ := (Draft.headerFit_fixDraft (o := o) (c := c) hd).subject v hv
    obtain ⟨z, hz, hvz⟩ := Draft.exists_trimmed?_cut hne hhead
    obtain rfl : z = y' := Option.some.inj (hz.symm.trans htrim)
    rw [hvz.head] at hx
    rw [Draft.admits_head_fixDraft hd hcase v hv x hx] at hadmits
    cases hadmits
  · exact ⟨hnone, p, wf, htext⟩

-- ---------------------------------------------------------------------------
-- The length of the first line
-- ---------------------------------------------------------------------------

/-- The header that is read is no longer than the header that was written. -/
theorem length_header_fixMessage (h : fixMessage o c raw = some t) :
    (Message.parse t).header.length ≤
      (fixDraft o c (Draft.ofMessage (Message.parse raw))).header.length := by
  rcases header_fixMessage h with hline | hline
  · exact Nat.le_of_eq (congrArg List.length hline)
  · rw [hline]
    exact (Text.dropReturn_isPrefix _).length_le

/-- The header that is read fits, or no room is left for a subject. -/
theorem length_header_fixMessage_le (h : fixMessage o c raw = some t) :
    (Message.parse t).header.length ≤ c.maxHeaderLength.toNat ∨
      c.maxHeaderLength.toNat ≤
        ((Draft.ofMessage (Message.parse raw)).edited o c).typePrefix.length +
          Draft.leastSubject := by
  have hread := length_header_fixMessage h
  rw [Draft.fixDraft_eq] at hread
  rcases Draft.length_header_withHeaderWithin c.maxHeaderLength.toNat
    ((Draft.ofMessage (Message.parse raw)).edited o c) with hfits | hfull
  · exact Or.inl (Nat.le_trans hread hfits)
  · exact Or.inr (by omega)

/--
A header that is too long is cut to exactly its limit, if more than ten characters are left for the
subject. Every other draft stays as it is. So the header that is read from a fixed message fits,
unless the part before the subject takes that room.
-/
theorem header_cut_exact :
    (∀ (d : Draft) (limit : Nat),
      (d.header.length ≤ limit ∨ d.subject = none ∨ limit ≤ d.typePrefix.length + 10 →
        d.withHeaderWithin limit = d) ∧
      ∀ s, d.subject = some s → limit < d.header.length → d.typePrefix.length + 10 < limit →
        let cut := s.take (limit - d.typePrefix.length - 3) ++ ['.', '.', '.']
        d.withHeaderWithin limit = { d with subject := some cut } ∧
          (d.withHeaderWithin limit).header = d.typePrefix ++ cut ∧
          (d.withHeaderWithin limit).header.length = limit) ∧
    ∀ (o : FixOptions) (c : Config) (raw t : Text), fixMessage o c raw = some t →
      let fixed := fixDraft o c (Draft.ofMessage (Message.parse raw))
      t = fixed.render ∧
        ((Message.parse t).header.length ≤ c.maxHeaderLength.toNat ∨
          c.maxHeaderLength.toNat ≤ fixed.typePrefix.length + 10) := by
  have hleast : Draft.leastSubject = 10 := rfl
  refine ⟨fun d limit => ⟨fun h => ?_, fun s hs hlong hroom => ?_⟩, fun o c raw t h => ?_⟩
  · -- no cut: the header fits, or there is nothing or too little to cut
    rw [Draft.withHeaderWithin_eq_self_iff]
    rcases h with hfits | hnone | hfull
    · exact Or.inl hfits
    · rw [Draft.header_of_subject_none hnone]
      exact Or.inl (Nat.zero_le _)
    · exact Or.inr (by omega)
  · -- the cut, with its exact length
    have hleft : Draft.leastSubject < limit - d.typePrefix.length := by omega
    intro cut
    have hcut : d.withHeaderWithin limit = { d with subject := some cut } :=
      Draft.withHeaderWithin_of_room hs hlong hleft
    refine ⟨hcut, ?_, Draft.length_header_withHeaderWithin_of_room hs hlong hleft⟩
    rw [hcut, Draft.header_of_subject rfl]
    rfl
  · -- a whole fix: the cut does not touch the part before the subject
    intro fixed
    have hkept : fixed.typePrefix =
        ((Draft.ofMessage (Message.parse raw)).edited o c).typePrefix :=
      Draft.withHeaderWithin_typePrefix
    rw [hkept]
    exact ⟨eq_render_of_fixMessage h, length_header_fixMessage_le h⟩

/-- The type that is inferred takes its part of the limit, and the header is cut to what is left. -/
theorem header_cut_exact_inferred :
    let d : Draft := ⟨some "feat".toList, none, some "add the login page".toList, none, none, false⟩
    let c := { Config.default with maxHeaderLength := 20 }
    d.subject = some "add the login page".toList ∧ 20 < d.header.length ∧
      d.typePrefix.length + 10 < 20 ∧ (d.withHeaderWithin 20).header.length = 20 ∧
      fixMessage .all c "add the login page".toList = some "feat: add the log...".toList ∧
      (Message.parse "feat: add the log...".toList).header.length ≤ 20 := by
  intro d c
  have hlong : 20 < d.header.length := by decide +kernel
  have hroom : d.typePrefix.length + 10 < 20 := by decide +kernel
  have hfixed : fixMessage .all c "add the login page".toList =
      some "feat: add the log...".toList := by decide +kernel
  obtain ⟨hcut, hread⟩ := header_cut_exact
  refine ⟨rfl, hlong, hroom, ((hcut d 20).2 _ rfl hlong hroom).2.2, hfixed, ?_⟩
  exact (hread .all c _ _ hfixed).2.resolve_right (by decide +kernel)

end ConventionalCommit
