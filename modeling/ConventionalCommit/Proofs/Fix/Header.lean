import ConventionalCommit.Proofs.Fix.Edits
import ConventionalCommit.Proofs.Message.Rereading
import Mathlib.Data.Prod.Lex

/-!
# ConventionalCommit — the header after a pass of fixes

A pass writes the fixed draft and reads it again. Whatever the fixes do to the
header, the next draft is further along in one of three respects, in this
order: what kind of header it has, whether the subject still begins in the
wrong case, and how long the subject is.

* `readHeader_fixed`: what is read from the header of a fixed draft;
* `headerRank_step`: the rank of the header falls, or no header field is edited.
-/

namespace ConventionalCommit

open Unicode (isWhite isWordChar)
open Text (Tight trimmed? dropReturn)

variable {o : FixOptions} {c : Config} {d e : Draft} {s t u v line : Text}

namespace Draft

-- ---------------------------------------------------------------------------
-- Reading a fixed header
-- ---------------------------------------------------------------------------

/-- Trimming a subject that does not begin with white space takes some of its end at most, and
leaves something. -/
theorem exists_trimmed?_cut (hne : s ≠ []) (hhead : ∀ x ∈ s.head?, isWhite x = false) :
    ∃ u, trimmed? s = some u ∧ Cut s u := by
  cases h : trimmed? s with
  | none =>
    have hblank := Text.trimmed?_eq_none_iff_isBlank.mp h
    rw [Text.isBlank_eq_false_of_head hne hhead] at hblank
    cases hblank
  | some u =>
    have htight := Tight.of_trimmed? h
    obtain ⟨spaces, rfl, -⟩ := Text.exists_append_of_trimmed? hhead h
    refine ⟨u, rfl, htight.ne_nil, (List.head?_append_of_ne_nil _ htight.ne_nil).symm, ?_,
      fun x hx => Or.inl (List.mem_append_left _ hx)⟩
    -- nothing to trim, or a character at least
    by_cases hspaces : spaces = []
    · left
      rw [hspaces, List.append_nil]
    · right
      have := List.length_pos_of_ne_nil hspaces
      rw [List.length_append]
      omega

end Draft

/-- A header has a subject exactly if there is something after its gap, and the subject begins
there. -/
theorem Header.WellFormed.trimmed?_subject_cases {p : Header} (wf : p.WellFormed) :
    p.subject = [] ∧ trimmed? p.subject = none ∨
      p.subject ≠ [] ∧ ∃ y, trimmed? p.subject = some y ∧ y.head? = p.subject.head? := by
  by_cases hnil : p.subject = []
  · exact Or.inl ⟨hnil, by rw [hnil]; rfl⟩
  · obtain ⟨y, hy, hcut⟩ := Draft.exists_trimmed?_cut hnil wf.subject_head
    exact Or.inr ⟨hnil, y, hy, hcut.head⟩

namespace Draft

/-- The header fields are such as a fix leaves them: the subject may end in white space. -/
structure HeaderFit (d : Draft) : Prop where
  fields : ({ d with subject := none } : Draft).HeaderRead
  subject : ∀ v ∈ d.subject, v ≠ [] ∧ (∀ x ∈ v.head?, isWhite x = false) ∧ '\n' ∉ v

theorem HeaderFit.of_body (h : d.HeaderFit) (body : Option Text) :
    ({ d with body } : Draft).HeaderFit :=
  ⟨⟨h.fields.type_word, h.fields.scope_fits, h.fields.untyped, h.fields.subject_fits⟩, h.subject⟩

/-- Header fields that have been read are as a fix may leave them. -/
theorem HeaderRead.headerFit (hd : d.HeaderRead) : d.HeaderFit := by
  refine ⟨⟨hd.type_word, hd.scope_fits, hd.untyped, fun _ h => absurd h (Option.not_mem_none _)⟩,
    fun v hv => ?_⟩
  obtain ⟨htight, hn⟩ := hd.subject_fits v hv
  exact ⟨htight.ne_nil, htight.head, hn⟩

/-- The header line of a fixed draft is one line. An inferred type is a word, so it has no newline
either. -/
theorem HeaderFit.not_mem_header (hd : d.HeaderFit) : '\n' ∉ d.header := by
  cases hv : d.subject with
  | none =>
    rw [header_of_subject_none hv]
    exact List.not_mem_nil
  | some v =>
    rw [header_of_subject hv, List.mem_append, not_or]
    have hfront : '\n' ∉ d.typePrefix :=
      not_mem_typePrefix (d := { d with subject := none }) hd.fields
    exact ⟨hfront, (hd.subject v hv).2.2⟩

/-- The cased subject begins without white space, as the subject does, and no cut changes how it
begins. -/
theorem Fixed.head_subject (h : Fixed o c s d e) (hs : Tight s) (hv : e.subject = some v) :
    ∀ x ∈ v.head?, isWhite x = false := by
  obtain ⟨u, hcased, hsame, hcut⟩ := h.subject
  intro x hx
  rw [(hcut v hv).head] at hx
  cases hon : o.adjustCase with
  | true => exact ((hcased hon).head x hx).2
  | false =>
    rw [hsame hon] at hx
    exact hs.head x hx

/-- No edit brings a newline into the subject. What they add is a character in the right case or a
full stop. -/
theorem Fixed.not_mem_subject (h : Fixed o c s d e) (hs : '\n' ∉ s) (hv : e.subject = some v) :
    '\n' ∉ v := by
  obtain ⟨u, hcased, hsame, hcut⟩ := h.subject
  intro hn
  rcases (hcut v hv).chars _ hn with hn | hn
  · cases hon : o.adjustCase with
    | true =>
      rcases (hcased hon).chars _ hn with hn | hn
      · exact hs hn
      · simp at hn
    | false =>
      rw [hsame hon] at hn
      exact hs hn
  · simp at hn

/-- The fixes leave a header that can be written on a line and read again: a type that is inferred
is a word, and the subject is not empty. -/
theorem Fixed.headerFit (h : Fixed o c s d e) (hd : d.HeaderRead) (hs : Tight s) (hn : '\n' ∉ s) :
    e.HeaderFit := by
  obtain ⟨u, -, -, hcut⟩ := h.subject
  refine ⟨⟨fun t ht => ?_, fun x hx => hd.scope_fits x ?_, fun hnone => ?_,
    fun _ h => absurd h (Option.not_mem_none _)⟩,
    fun v hv => ⟨(hcut v hv).ne_nil, h.head_subject hs hv, h.not_mem_subject hn hv⟩⟩
  · -- the type is the old one or an inferred word
    rcases h.type with htype | ⟨-, t', ht', hword⟩
    · exact hd.type_word t (htype ▸ ht)
    · obtain rfl : t' = t := Option.some.inj (ht'.symm.trans ht)
      exact hword
  · rw [← h.scope]
    exact hx
  · -- no type: then there was none before either, and neither a scope nor a mark
    show e.scope = none ∧ e.marked = false
    have hnone : e.type = none := hnone
    rw [h.scope, h.marked]
    rcases h.type with htype | ⟨-, t, ht, -⟩
    · rw [htype] at hnone
      exact hd.untyped hnone
    · rw [ht] at hnone
      cases hnone

theorem headerFit_fixDraft (hd : d.HeaderRead) : (fixDraft o c d).HeaderFit := by
  rcases Option.eq_none_or_eq_some d.subject with hs | ⟨s, hs⟩
  · rw [fixDraft_of_subject_none hs]
    exact hd.headerFit.of_body _
  · obtain ⟨htight, hn⟩ := hd.subject_fits s hs
    exact (fixDraft_of_subject hs htight).headerFit hd htight hn

/-- The fields are read back with what is left of the subject, unless a header without a
type is one that the header pattern fits. -/
theorem HeaderFit.readHeader_eq (hd : d.HeaderFit) (hv : d.subject = some v)
    (hline : line = d.header ∨ line = dropReturn d.header)
    (huntyped : d.type = none → Header.read? line = none) (body footer : Option Text) :
    readHeader line body footer = { d with subject := trimmed? v, body, footer } := by
  obtain ⟨hne, hhead, -⟩ := hd.subject v hv
  -- the line is the prefix and a subject that differs at its end at most
  obtain ⟨v', rfl, hv', hhead'⟩ : ∃ v', line = d.typePrefix ++ v' ∧ trimmed? v' = trimmed? v ∧
      ∀ y ∈ v'.head?, isWhite y = false := by
    rw [header_of_subject hv, Text.dropReturn_append _ hne] at hline
    rcases hline with hline | hline
    · exact ⟨v, hline, rfl, hhead⟩
    · exact ⟨dropReturn v, hline, Text.trimmed?_dropReturn v,
        fun y hy => hhead y (Text.mem_head?_of_dropReturn hy)⟩
  rw [← hv']
  -- with a type the prefix is matched again, and without one nothing must match
  cases ht : d.type with
  | some t =>
    rw [← ht]
    exact readHeader_typed (d := { d with subject := none }) hd.fields ht hhead'
  | none =>
    have hread := huntyped ht
    rw [typePrefix_of_type_none ht, List.nil_append] at hread ⊢
    obtain ⟨hscope, hmarked⟩ := hd.fields.untyped ht
    have hscope : d.scope = none := hscope
    have hmarked : d.marked = false := hmarked
    rw [readHeader_untyped hread, hscope, hmarked]

/-- What is read from a fixed header: the type and what is left of the subject, unless
the header pattern fits an untyped header by now. -/
theorem readHeader_fixed (hd : d.HeaderFit) (hv : d.subject = some v) (body footer : Option Text)
    (hline : line = d.header ∨ line = dropReturn d.header) :
    (d.type = none ∧ (readHeader line body footer).type ≠ none) ∨
      (readHeader line body footer).type = d.type ∧
        ∃ x, (readHeader line body footer).subject = some x ∧ Cut v x := by
  -- a subject may read like a header by now, for the first time
  by_cases hread : d.type = none → Header.read? line = none
  · right
    obtain ⟨hne, hhead, -⟩ := hd.subject v hv
    obtain ⟨x, hx, hvx⟩ := exists_trimmed?_cut hne hhead
    rw [hd.readHeader_eq hv hline hread]
    exact ⟨rfl, x, hx, hvx⟩
  · left
    rw [Classical.not_imp] at hread
    obtain ⟨fields, hfields⟩ := Option.ne_none_iff_exists'.mp hread.2
    refine ⟨hread.1, ?_⟩
    rw [readHeader, hfields]
    exact Option.some_ne_none _

-- ---------------------------------------------------------------------------
-- The rank of a header
-- ---------------------------------------------------------------------------

/-- Whether the subject begins in a case that is still to be adjusted. -/
def miscased (o : FixOptions) (c : Config) (d : Draft) : Bool :=
  o.adjustCase && (d.subject.bind List.head?).any fun x => !c.subjectCase.admits x

/-- An empty header ranks lowest and a header without a type highest. -/
def headerKind (d : Draft) : Nat :=
  if d.subject.isNone then 0 else if d.type.isNone then 2 else 1

/-- The kind of the header, the case of the subject and its length, in this order. -/
def headerRank (o : FixOptions) (c : Config) (d : Draft) : ℕ ×ₗ ℕ ×ₗ ℕ :=
  toLex (d.headerKind, toLex ((d.miscased o c).toNat, (d.subject.getD []).length))

theorem headerRank_of_subject_none (hs : d.subject = none) :
    headerRank o c d = toLex (0, toLex (0, 0)) := by
  simp [headerRank, headerKind, miscased, hs]

/-- The kind of the header counts first. -/
theorem headerRank_lt_of_kind (h : e.headerKind < d.headerKind) :
    headerRank o c e < headerRank o c d := by
  rw [headerRank, headerRank, Prod.Lex.toLex_lt_toLex]
  exact Or.inl h

theorem headerKind_of_subject (hs : d.subject = some s) :
    d.headerKind = if d.type.isNone then 2 else 1 := by
  rw [headerKind, hs]
  rfl

theorem headerKind_pos (hs : d.subject = some s) : 0 < d.headerKind := by
  rw [headerKind_of_subject hs]
  split <;> omega

/-- A type that is found improves the kind of the header. Since no edit takes a type away, this
happens once at most. -/
theorem headerKind_lt_of_type (hd : d.type = none) (hs : d.subject = some s) (he : e.type ≠ none) :
    e.headerKind < d.headerKind := by
  obtain ⟨t, ht⟩ := Option.ne_none_iff_exists'.mp he
  rw [headerKind_of_subject hs, hd, headerKind, ht]
  split <;> simp

/-- Nothing that is cut from a cased subject begins in the wrong case. -/
theorem miscased_of_cut (hcased : o.adjustCase = true → Cased c.subjectCase s u)
    (hcut : Cut u v) (he : e.subject = some v) : e.miscased o c = false := by
  rw [miscased, he]
  cases hon : o.adjustCase with
  | false => rfl
  | true =>
    obtain ⟨x, rest, rfl⟩ := List.exists_cons_of_ne_nil hcut.ne_nil
    have hadmits := ((hcased hon).head x (by rw [← hcut.head]; rfl)).1
    simp [hadmits]

theorem Cut.length_le (h : Cut s u) : u.length ≤ s.length := by
  rcases h.shorter with rfl | hlt
  · exact Nat.le_refl _
  · omega

/-- A case that is right already is not adjusted, so the other edits only cut the subject. -/
theorem Fixed.exists_cut (h : Fixed o c s d e) (hs : d.subject = some s)
    (hcase : d.miscased o c = false) : ∀ v ∈ e.subject, Cut s v := by
  obtain ⟨u, hcased, hsame, hcut⟩ := h.subject
  have hus : u = s := by
    cases hon : o.adjustCase with
    | false => exact hsame hon
    | true =>
      refine (hcased hon).same fun x hx => ?_
      obtain ⟨rest, rfl⟩ := List.head?_eq_some_iff.mp hx
      simpa [miscased, hs, hon] using hcase
  rwa [hus] at hcut

/-- With the type kept, the case or the length of the subject gets better, or neither the
type nor the subject was edited. -/
theorem headerRank_of_type_eq {r : Draft} (h : Fixed o c s d e) (hs : d.subject = some s)
    (htype : e.type = d.type) (hv : e.subject = some v) (hrtype : r.type = e.type)
    (hx : r.subject = some t) (hvx : Cut v t) :
    headerRank o c r < headerRank o c d ∨
      headerRank o c r = headerRank o c d ∧ e = { d with body := fixedBody o c d.body } := by
  have hkind : r.headerKind = d.headerKind := by
    rw [headerKind_of_subject hx, headerKind_of_subject hs, hrtype, htype]
  have hcase : r.miscased o c = false := by
    obtain ⟨u, hcased, -, hcut⟩ := h.subject
    exact miscased_of_cut hcased ((hcut v hv).trans hvx) hx
  -- a subject in the wrong case gets better already, whatever its length does
  cases hmis : d.miscased o c with
  | true =>
    left
    rw [headerRank, headerRank, Prod.Lex.toLex_lt_toLex, Prod.Lex.toLex_lt_toLex, hcase, hmis]
    exact Or.inr ⟨hkind, Or.inl Nat.one_pos⟩
  | false =>
    have hcut := h.exists_cut hs hmis v hv
    have hvlen := hcut.length_le
    have hxlen := hvx.length_le
    by_cases hlt : t.length < s.length
    · left
      rw [headerRank, headerRank, Prod.Lex.toLex_lt_toLex, Prod.Lex.toLex_lt_toLex, hcase, hmis,
        hx, hs]
      exact Or.inr ⟨hkind, Or.inr ⟨rfl, hlt⟩⟩
    · right
      -- the edits kept the length, so they kept the subject
      obtain rfl : v = s := by
        rcases hcut.shorter with rfl | hshort
        · rfl
        · omega
      have hlen : t.length = v.length := by omega
      refine ⟨?_, ?_⟩
      · rw [headerRank, headerRank, hkind, hcase, hmis, hx, hs, Option.getD_some,
          Option.getD_some, hlen]
      · obtain ⟨type, scope, subject, body, footer, marked⟩ := e
        obtain rfl : type = d.type := htype
        obtain rfl : scope = d.scope := h.scope
        obtain rfl : marked = d.marked := h.marked
        obtain rfl : body = fixedBody o c d.body := h.body
        obtain rfl : footer = d.footer := h.footer
        obtain rfl : subject = d.subject := hv.trans hs.symm
        rfl

/-- The rank of the header falls in a pass, or the fixes edit nothing but the body. -/
theorem headerRank_step (hd : d.HeaderRead) (body footer : Option Text)
    (hline : line = (fixDraft o c d).header ∨ line = dropReturn (fixDraft o c d).header) :
    headerRank o c (readHeader line body footer) < headerRank o c d ∨
      headerRank o c (readHeader line body footer) = headerRank o c d ∧
        fixDraft o c d = { d with body := fixedBody o c d.body } := by
  have hempty : (fixDraft o c d).subject = none → line = [] := by
    intro hnone
    rw [header_of_subject_none hnone] at hline
    exact hline.elim id id
  rcases Option.eq_none_or_eq_some d.subject with hs | ⟨s, hs⟩
  · right
    have hfix := fixDraft_of_subject_none (o := o) (c := c) hs
    have hnone : (fixDraft o c d).subject = none := by rw [hfix, hs]
    obtain rfl := hempty hnone
    refine ⟨?_, hfix⟩
    rw [headerRank_of_subject_none hs, headerRank_of_subject_none rfl]
  · have hsubject := hd.subject_fits s hs
    have h := fixDraft_of_subject (o := o) (c := c) hs hsubject.1
    generalize fixDraft o c d = e at h hline hempty ⊢
    -- the subject may have been a full stop and be gone
    cases hv : e.subject with
    | none =>
      left
      obtain rfl := hempty hv
      exact headerRank_lt_of_kind (headerKind_pos hs)
    | some v =>
      have hfit := h.headerFit hd hsubject.1 hsubject.2
      rcases readHeader_fixed hfit hv body footer hline with ⟨he, hr⟩ | ⟨hrtype, x, hx, hvx⟩
      · left
        refine headerRank_lt_of_kind (headerKind_lt_of_type ?_ hs hr)
        rcases h.type with hsame | ⟨hnone, -⟩
        · rw [← hsame, he]
        · exact hnone
      · rcases h.type with hsame | ⟨hnone, t, ht, -⟩
        · exact headerRank_of_type_eq h hs hsame hv hrtype hx hvx
        · left
          refine headerRank_lt_of_kind (headerKind_lt_of_type hnone hs ?_)
          rw [hrtype, ht]
          exact Option.some_ne_none _

end Draft

end ConventionalCommit
