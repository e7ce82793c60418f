import ConventionalCommit.Text.Basic
import ConventionalCommit.Unicode.WordChar

/-!
# ConventionalCommit — the header grammar

The first line of a commit message in conventional form,

    type(scope)!: subject

with the scope and the mark optional. A `Header` holds the pieces exactly as
they are written, so that `Header.text` gives the line back; `WellFormed`
says which pieces make a header, and `Header.read?` cuts a line into them.

* `read?_eq_some_iff`: reading accepts exactly the lines that well formed
  pieces are written as.
-/

namespace ConventionalCommit

open Unicode (isWhite isWordChar)

/-- The pieces of a header as they are written. -/
structure Header where
  type : Text
  scope : Option Text
  /-- Whether the mark `!` stands before the colon. -/
  marked : Bool
  /-- The white space after the colon. -/
  gap : Text
  /-- The rest of the line. -/
  subject : Text
deriving DecidableEq, Repr

namespace Header

/-- Whether a character may stand in a scope. -/
def isScopeChar (c : Char) : Bool := !(c == '(' || c == ')' || c == '\r' || c == '\n')

/-- The pieces of the line make a header: the type is a nonempty word, the
scope is nonempty and has no parenthesis and no line break, and the gap is all
the white space that follows the colon, some at least. -/
structure WellFormed (h : Header) : Prop where
  type_ne_nil : h.type ≠ []
  type_word : ∀ c ∈ h.type, isWordChar c = true
  scope_ne_nil : h.scope ≠ some []
  scope_chars : ∀ s ∈ h.scope, ∀ c ∈ s, isScopeChar c = true
  gap_ne_nil : h.gap ≠ []
  gap_white : ∀ c ∈ h.gap, isWhite c = true
  subject_head : ∀ c ∈ h.subject.head?, isWhite c = false

/-- A scope in its parentheses, or nothing. -/
def scopeText : Option Text → Text
  | none => []
  | some s => '(' :: (s ++ [')'])

/-- The mark `!`, or nothing. -/
def markText (marked : Bool) : Text := if marked then ['!'] else []

/-- The line that a header is written as. -/
def text (h : Header) : Text :=
  h.type ++ scopeText h.scope ++ markText h.marked ++ ':' :: (h.gap ++ h.subject)

/-- Reads a scope in parentheses and returns it with what follows. A text that
does not begin with one is returned whole. -/
def readScope (t : Text) : Option Text × Text :=
  match t with
  | '(' :: rest =>
    match rest.takeWhile isScopeChar, rest.dropWhile isScopeChar with
    | c :: cs, ')' :: after => (some (c :: cs), after)
    | _, _ => (none, t)
  | _ => (none, t)

/-- Reads the mark `!` and returns whether it was there with what follows. -/
def readMark : Text → Bool × Text
  | '!' :: rest => (true, rest)
  | t => (false, t)

/-- Cuts a line into the pieces of a header. -/
def read? (line : Text) : Option Header :=
  let scope := readScope (line.dropWhile isWordChar)
  let mark := readMark scope.2
  match line.takeWhile isWordChar, mark.2 with
  | c :: cs, ':' :: rest =>
    match rest.takeWhile isWhite with
    | [] => none
    | gap =>
      some
        { type := c :: cs
          scope := scope.1
          marked := mark.1
          gap
          subject := rest.dropWhile isWhite }
  | _, _ => none

-- ---------------------------------------------------------------------------
-- Reading and writing
-- ---------------------------------------------------------------------------

/-- Reading a scope loses nothing: if the parentheses do not close in time, no scope is read and the
text is left as it was. -/
theorem scopeText_readScope (t : Text) : scopeText (readScope t).1 ++ (readScope t).2 = t := by
  unfold readScope
  split
  · next rest =>
    have hsplit := List.takeWhile_append_dropWhile (p := isScopeChar) (l := rest)
    split
    · next c cs after htake hdrop =>
      rw [htake, hdrop] at hsplit
      rw [← hsplit]
      simp [scopeText]
    · rfl
  · rfl

theorem markText_readMark (t : Text) : markText (readMark t).1 ++ (readMark t).2 = t := by
  unfold readMark
  split <;> rfl

/-- A scope that is read is nonempty and has the characters of a scope: parentheses around nothing,
or around a parenthesis, are no scope. -/
theorem readScope_eq_some {t s : Text} (h : (readScope t).1 = some s) :
    s ≠ [] ∧ ∀ c ∈ s, isScopeChar c = true := by
  unfold readScope at h
  split at h
  · next rest =>
    split at h
    · next c cs after htake _ =>
      obtain rfl := Option.some.inj h
      refine ⟨List.cons_ne_nil _ _, fun x hx => ?_⟩
      rw [← htake] at hx
      exact Text.of_mem_takeWhile hx
    · cases h
  · cases h

/-- A header that is read is written as the line it was read from. Nothing of the line is skipped,
since even the white space after the colon is kept as the gap. -/
theorem text_of_read? {line : Text} {h : Header} (hr : read? line = some h) : h.text = line := by
  unfold read? at hr
  dsimp only at hr
  split at hr
  · next c cs rest htype hmark =>
    split at hr
    · cases hr
    · next hgap =>
      obtain rfl := Option.some.inj hr
      have hline := List.takeWhile_append_dropWhile (p := isWordChar) (l := line)
      have hscope := scopeText_readScope (line.dropWhile isWordChar)
      have hrest := markText_readMark (readScope (line.dropWhile isWordChar)).2
      rw [hmark] at hrest
      rw [text, ← htype, List.takeWhile_append_dropWhile]
      rw [List.append_assoc, List.append_assoc, hrest, hscope, hline]
  · cases hr

/-- What is read from a line are well-formed pieces: each part of the reader takes characters of its
own kind only, and gives up where one is missing. -/
theorem wellFormed_of_read? {line : Text} {h : Header} (hr : read? line = some h) :
    h.WellFormed := by
  unfold read? at hr
  dsimp only at hr
  split at hr
  · next c cs rest htype hmark =>
    split at hr
    · cases hr
    · next hgap =>
      obtain rfl := Option.some.inj hr
      exact
        { type_ne_nil := List.cons_ne_nil _ _
          type_word := fun x hx => Text.of_mem_takeWhile (htype ▸ hx)
          scope_ne_nil := fun hs => (readScope_eq_some hs).1 rfl
          scope_chars := fun s hs => (readScope_eq_some hs).2
          gap_ne_nil := hgap
          gap_white := fun x hx => Text.of_mem_takeWhile hx
          subject_head := fun x hx => by
            -- the gap takes all the white space, so the subject begins with something else
            have := List.head?_dropWhile_not isWhite rest
            rw [Option.mem_def.mp hx] at this
            simpa using this }
  · cases hr

/-- A scope is read back, whatever follows it, because it has no closing parenthesis of its own. -/
theorem readScope_scopeText {s : Text} (hs : s ≠ []) (hc : ∀ c ∈ s, isScopeChar c = true)
    (rest : Text) : readScope (scopeText (some s) ++ rest) = (some s, rest) := by
  have htake : (s ++ ')' :: rest).takeWhile isScopeChar = s := by
    rw [List.takeWhile_append_of_pos hc, List.takeWhile_cons_of_neg (by decide), List.append_nil]
  have hdrop : (s ++ ')' :: rest).dropWhile isScopeChar = ')' :: rest := by
    rw [List.dropWhile_append_of_pos hc, List.dropWhile_cons_of_neg (by decide)]
  cases s with
  | nil => exact absurd rfl hs
  | cons c cs =>
    simp only [scopeText, List.cons_append, List.append_assoc, List.nil_append, readScope] at *
    rw [htake, hdrop]
    rfl

theorem readMark_markText (marked : Bool) (rest : Text) :
    readMark (markText marked ++ ':' :: rest) = (marked, ':' :: rest) := by
  cases marked <;> rfl

/-- A well formed header is read back from its line. Each reader stops where the next piece begins,
because that begins with a character it does not take. -/
theorem read?_text {h : Header} (wf : h.WellFormed) : read? h.text = some h := by
  obtain ⟨type, scope, marked, gap, subject⟩ := h
  obtain ⟨htype, hword, hscope, hchars, hgap, hwhite, hsubject⟩ := wf
  dsimp only at *
  -- the line from the mark on and from the colon on get names, because each reader stops there
  generalize hr : ':' :: (gap ++ subject) = rest
  generalize ha : markText marked ++ rest = after
  have hmark : readMark after = (marked, rest) := by
    rw [← ha, ← hr]
    exact readMark_markText marked _
  have hread : readScope (scopeText scope ++ after) = (scope, after) := by
    cases scope with
    | none =>
      rw [← ha, ← hr]
      cases marked <;> rfl
    | some s => exact readScope_scopeText (fun e => hscope (by rw [e])) (hchars s rfl) after
  -- the type ends at a bracket, a mark or the colon, none of which is a word character
  have hstop : ∀ c ∈ (scopeText scope ++ after).head?, isWordChar c = false := by
    rw [← ha, ← hr]
    cases scope <;> cases marked <;> simp [scopeText, markText] <;> decide
  have hline : text ⟨type, scope, marked, gap, subject⟩ = type ++ (scopeText scope ++ after) := by
    rw [text, ← ha, ← hr]
    simp only [List.append_assoc]
  rw [read?, hline, Text.takeWhile_append_of_head hword hstop,
    Text.dropWhile_append_of_head hword hstop, hread]
  dsimp only
  rw [hmark, ← hr]
  cases type with
  | nil => exact absurd rfl htype
  | cons c cs =>
    cases gap with
    | nil => exact absurd rfl hgap
    | cons g gs =>
      have htake := Text.takeWhile_append_of_head hwhite hsubject
      have hdrop := Text.dropWhile_append_of_head hwhite hsubject
      simp only [htake, hdrop]

/-- A line is read as a header exactly when the pieces are well formed and make
up the line. So no line has two readings. -/
theorem read?_eq_some_iff {line : Text} {h : Header} :
    read? line = some h ↔ h.WellFormed ∧ h.text = line :=
  ⟨fun hr => ⟨wellFormed_of_read? hr, text_of_read? hr⟩, fun ⟨wf, ht⟩ => ht ▸ read?_text wf⟩

/-- Two headers that make up the same line are the same, because the line is read as one of them
only. -/
theorem WellFormed.eq_of_text_eq {p q : Header} (hp : p.WellFormed) (hq : q.WellFormed)
    (h : p.text = q.text) : p = q := by
  have hread := read?_text hp
  rw [h, read?_text hq] at hread
  exact (Option.some.inj hread).symm

end Header

end ConventionalCommit
