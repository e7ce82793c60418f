import ConventionalCommit.Message.Draft
import ConventionalCommit.Proofs.Message.HeaderPattern
import ConventionalCommit.Proofs.Unicode.Tables

/-!
# ConventionalCommit — the header fields of a draft

A message gets its type, scope, mark and subject from its first line alone
(`Draft.readHeader`). Whatever the line, the fields read from it are words and
tight texts (`HeaderRead`), so their header line begins and ends without white
space and is read again (`readHeader_typed`).

* `headerRead_readHeader`: what every reading yields;
* `header_readHeader`: a line that does not begin with white space has settled
  once its fields are written again.
-/

namespace ConventionalCommit.Draft

open Unicode (isWhite isWordChar)
open Text (trimmed? Tight)

variable {d : Draft} {line s t : Text} {body footer : Option Text}

/-- The draft whose header fields are read from a line. -/
def readHeader (line : Text) (body footer : Option Text) : Draft :=
  match Header.read? line with
  | some h =>
    { type := some h.type
      scope := h.scope.bind trimmed?
      subject := trimmed? h.subject
      body
      footer
      marked := h.marked }
  | none =>
    { type := none, scope := none, subject := trimmed? line, body, footer, marked := false }

/-- The draft of a message gets its header fields from the header line alone, and the other two from
the sections. So the two parts are treated apart from here on. -/
theorem ofMessage_parse (raw : Text) : ofMessage (Message.parse raw) =
    readHeader (Message.parse raw).header (Message.parse raw).body (Message.parse raw).footer := by
  simp only [ofMessage, Message.parse, readHeader]
  cases Header.read? (Sections.ofLines raw.lines).header.flatten <;> rfl

@[simp] theorem ofMessage_body (m : Message) : (ofMessage m).body = m.body := rfl

@[simp] theorem ofMessage_footer (m : Message) : (ofMessage m).footer = m.footer := rfl

@[simp] theorem ofMessage_marked (m : Message) : (ofMessage m).marked = m.marked := rfl

@[simp] theorem readHeader_body : (readHeader line body footer).body = body := by
  unfold readHeader
  split <;> rfl

@[simp] theorem readHeader_footer : (readHeader line body footer).footer = footer := by
  unfold readHeader
  split <;> rfl

/-- The header fields are such as reading a line yields. -/
structure HeaderRead (d : Draft) : Prop where
  type_word : ∀ t ∈ d.type, t ≠ [] ∧ ∀ c ∈ t, isWordChar c = true
  scope_fits : ∀ s ∈ d.scope, Tight s ∧ ∀ c ∈ s, Header.isScopeChar c = true
  untyped : d.type = none → d.scope = none ∧ d.marked = false
  subject_fits : ∀ s ∈ d.subject, Tight s ∧ '\n' ∉ s

/-- What is read from any line is well-formed: the type is a word, the scope is trimmed and has no
parenthesis, and the subject is trimmed and stays on its line. A line that does not match gives a
subject alone. -/
theorem headerRead_readHeader (hline : '\n' ∉ line) (body footer : Option Text) :
    (readHeader line body footer).HeaderRead := by
  unfold readHeader
  split
  · -- a header: each field is trimmed from a piece of the line
    next h hr =>
    obtain ⟨wf, htext⟩ := Header.read?_eq_some_iff.mp hr
    refine ⟨?_, ?_, fun h => absurd h (Option.some_ne_none _), ?_⟩
    · intro t ht
      obtain rfl := Option.some.inj ht
      exact ⟨wf.type_ne_nil, wf.type_word⟩
    · intro s hs
      obtain ⟨inner, hinner, hs⟩ := Option.bind_eq_some_iff.mp hs
      refine ⟨Tight.of_trimmed? hs, fun c hc => wf.scope_chars inner hinner c ?_⟩
      exact (Text.infix_of_trimmed? hs).subset hc
    · intro s hs
      refine ⟨Tight.of_trimmed? hs, fun hn => hline ?_⟩
      rw [← htext, Header.text]
      have := (Text.infix_of_trimmed? hs).subset hn
      simp [this]
  · -- no header: the line is the subject
    refine ⟨fun t ht => absurd ht (Option.not_mem_none t),
      fun s hs => absurd hs (Option.not_mem_none s), fun _ => ⟨rfl, rfl⟩, fun s hs => ?_⟩
    exact ⟨Tight.of_trimmed? hs, fun hn => hline ((Text.infix_of_trimmed? hs).subset hn)⟩

-- ---------------------------------------------------------------------------
-- Writing the fields
-- ---------------------------------------------------------------------------

theorem header_of_subject_none (h : d.subject = none) : d.header = [] := by
  rw [header, h]

/-- The header line is the type with what belongs to it, and the subject. -/
theorem header_of_subject (h : d.subject = some s) : d.header = d.typePrefix ++ s := by
  rw [header, h]

theorem typePrefix_of_type_none (h : d.type = none) : d.typePrefix = [] := by
  rw [typePrefix, h]

/-- What stands before the subject is on one line: a newline is neither a word character nor one
that a scope may have. -/
theorem not_mem_typePrefix (hd : d.HeaderRead) : '\n' ∉ d.typePrefix := by
  rw [typePrefix]
  split
  · exact List.not_mem_nil
  · next t ht =>
    have htype : '\n' ∉ t := fun hn => by
      have := (hd.type_word t ht).2 _ hn
      rw [Unicode.isWordChar_eq_false rfl] at this
      cases this
    have hscope : '\n' ∉ Header.scopeText d.scope := by
      cases hs : d.scope with
      | none => exact List.not_mem_nil
      | some s =>
        intro hn
        have hn : '\n' ∈ s := by simpa [Header.scopeText] using hn
        exact absurd ((hd.scope_fits s hs).2 _ hn) (by decide)
    have hmark : '\n' ∉ Header.markText d.marked := by
      cases d.marked <;> decide
    simp [htype, hscope, hmark]

/-- A header that has been read is written on one line again, since no field of it has a newline and
none is written between them. -/
theorem not_mem_header (hd : d.HeaderRead) : '\n' ∉ d.header := by
  cases hs : d.subject with
  | none =>
    rw [header_of_subject_none hs]
    exact List.not_mem_nil
  | some s =>
    rw [header_of_subject hs, List.mem_append]
    rintro (hn | hn)
    · exact not_mem_typePrefix hd hn
    · exact (hd.subject_fits s hs).2 hn

/-- A header line with a subject begins and ends without white space. It begins with a word
character or with the subject, and it ends as the subject does. -/
theorem tight_header (hd : d.HeaderRead) (hs : d.subject = some s) : Tight d.header := by
  have hsubject := (hd.subject_fits s hs).1
  rw [header_of_subject hs]
  cases ht : d.type with
  | none => rwa [typePrefix_of_type_none ht]
  | some t =>
    obtain ⟨hne, hword⟩ := hd.type_word t ht
    obtain ⟨c, rest, rfl⟩ := List.exists_cons_of_ne_nil hne
    rw [typePrefix, ht]
    refine ⟨by simp, ?_, ?_⟩
    · rintro x hx
      obtain rfl : c = x := by simpa using hx
      exact Unicode.isWhite_eq_false_of_isWordChar (hword c (List.mem_cons_self ..))
    · rw [List.getLast?_append_of_ne_nil _ hsubject.ne_nil]
      exact hsubject.last

/-- A header line has no white space to trim, and it may be empty. -/
theorem header_eq_nil_or_tight (hd : d.HeaderRead) : d.header = [] ∨ Tight d.header := by
  cases hs : d.subject with
  | none => exact Or.inl (header_of_subject_none hs)
  | some s => exact Or.inr (tight_header hd hs)

theorem head_header (hd : d.HeaderRead) : ∀ c ∈ d.header.head?, isWhite c = false := by
  rcases header_eq_nil_or_tight hd with hnil | htight
  · rw [hnil]
    exact fun _ h => absurd h (Option.not_mem_none _)
  · exact htight.head

theorem last_header (hd : d.HeaderRead) : ∀ c ∈ d.header.getLast?, isWhite c = false := by
  rcases header_eq_nil_or_tight hd with hnil | htight
  · rw [hnil]
    exact fun _ h => absurd h (Option.not_mem_none _)
  · exact htight.last

/-- A header line does not end in a return, which counts as white space. So reading its line again
takes nothing away. -/
theorem getLast?_header_ne_return (hd : d.HeaderRead) : d.header.getLast? ≠ some '\r' := by
  intro hr
  have hwhite := last_header hd '\r' hr
  simp at hwhite

-- ---------------------------------------------------------------------------
-- Reading the fields again
-- ---------------------------------------------------------------------------

/-- What stands before the subject is matched again field by field, whatever follows. One space
comes after the colon, and the rest must not begin with white space, since the matcher would take it
for more of the gap. -/
theorem read?_typed (hd : d.HeaderRead) (ht : d.type = some t)
    (hs : ∀ c ∈ s.head?, isWhite c = false) :
    Header.read? (d.typePrefix ++ s) = some ⟨t, d.scope, d.marked, [' '], s⟩ := by
  rw [Header.read?_eq_some_iff]
  constructor
  · exact
      { type_ne_nil := (hd.type_word t ht).1
        type_word := (hd.type_word t ht).2
        scope_ne_nil := fun h => (hd.scope_fits [] h).1.ne_nil rfl
        scope_chars := fun s hs => (hd.scope_fits s hs).2
        gap_ne_nil := List.cons_ne_nil _ _
        gap_white := fun c hc => by rw [List.mem_singleton.mp hc]; rfl
        subject_head := hs }
  · simp [Header.text, typePrefix, ht]

/-- A scope that has been read is trimmed, and trimming it again does nothing. -/
theorem scope_bind_trimmed? (hd : d.HeaderRead) : d.scope.bind trimmed? = d.scope := by
  cases hs : d.scope with
  | none => rfl
  | some s => exact (hd.scope_fits s hs).1.trimmed?_eq

/-- A typed line gives its fields back, with what is left of the subject. -/
theorem readHeader_typed (hd : d.HeaderRead) (ht : d.type = some t)
    (hs : ∀ c ∈ s.head?, isWhite c = false) : readHeader (d.typePrefix ++ s) body footer =
      { d with subject := trimmed? s, body, footer } := by
  rw [readHeader, read?_typed hd ht hs]
  dsimp only
  rw [scope_bind_trimmed? hd, ht]

theorem readHeader_untyped (h : Header.read? line = none) : readHeader line body footer =
    { type := none, scope := none, subject := trimmed? line, body, footer, marked := false } := by
  rw [readHeader, h]

/-- A line that matches gives its groups, with scope and subject trimmed. A group that is blank is
no field then. -/
theorem readHeader_of_read? {p : Header} (h : Header.read? line = some p) :
    readHeader line body footer =
      { type := some p.type
        scope := p.scope.bind trimmed?
        subject := trimmed? p.subject
        body
        footer
        marked := p.marked } := by
  rw [readHeader, h]

@[simp] theorem readHeader_nil : readHeader [] body footer =
    { type := none, scope := none, subject := none, body, footer, marked := false } := rfl

/-- The header of a line that does not begin with white space is read as it was. -/
theorem header_readHeader (hline : '\n' ∉ line) (hhead : ∀ c ∈ line.head?, isWhite c = false)
    {body' footer' : Option Text} :
    (readHeader (readHeader line body footer).header body' footer').header =
      (readHeader line body footer).header := by
  have hd := headerRead_readHeader hline body footer
  cases hs : (readHeader line body footer).subject with
  | none =>
    rw [header_of_subject_none hs]
    rfl
  | some s =>
    have htight := (hd.subject_fits s hs).1
    cases ht : (readHeader line body footer).type with
    | some t =>
      rw [header_of_subject hs, readHeader_typed hd ht htight.head, htight.trimmed?_eq]
      rfl
    | none =>
      -- without a type the line has not matched
      have hread : Header.read? line = none := by
        cases hr : Header.read? line with
        | none => rfl
        | some h =>
          rw [readHeader, hr] at ht
          cases ht
      have hheader : (readHeader line body footer).header = s := by
        rw [header_of_subject hs, typePrefix_of_type_none ht, List.nil_append]
      rw [readHeader_untyped hread] at hs
      -- the subject is the line up to the white space at its end
      obtain ⟨back, hsplit, -⟩ := Text.exists_append_of_trimmed? hhead hs
      have hpre : s <+: line := ⟨back, hsplit.symm⟩
      rw [hheader, readHeader_untyped (Header.read?_eq_none_of_isPrefix hpre hread),
        htight.trimmed?_eq]
      rfl

end ConventionalCommit.Draft
