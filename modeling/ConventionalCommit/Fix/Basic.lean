import ConventionalCommit.Fix.Verb
import ConventionalCommit.Message.Draft
import ConventionalCommit.Rule.Check
import ConventionalCommit.Text.Wrap

/-!
# ConventionalCommit — fixing a message

A fix edits a draft, and fixes are applied one after the other: the type is
inferred from the leading verb, the first character of the subject gets the
required form, a full stop at the end goes, long body lines are wrapped, and a
header that is still too long is cut. `fixDraft` applies those that are
enabled, `fixMessage` reads a text, fixes it and writes it again, and
`suggestedFix` does so with every fix enabled.
-/

namespace ConventionalCommit

open Unicode (toLower toUpper)

/-- Which fixes are enabled. A header that is too long is cut in any case. -/
structure FixOptions where
  inferType : Bool
  /-- Give the first character of the subject the required form. -/
  adjustCase : Bool
  stripFullStop : Bool
  wrapBody : Bool
deriving DecidableEq, Repr

/-- Every fix enabled. -/
def FixOptions.all : FixOptions := ⟨true, true, true, true⟩

/-- The form of a character that a subject case asks for. -/
def SubjectCase.convert (case : SubjectCase) (c : Char) : Text :=
  match case with
  | lower => toLower c
  | sentence => toUpper c
  | any => [c]

namespace Draft

/-- Infers a missing type from the first word of the subject. -/
def withInferredType (d : Draft) : Draft :=
  match d.type with
  | some _ => d
  | none =>
    { d with type := (d.subject.bind (·.words.head?)).bind fun w => typeOfVerb? w.lowercase }

/-- Gives the first character of the subject the form that a case asks for. -/
def withSubjectCase (case : SubjectCase) (d : Draft) : Draft :=
  match d.subject with
  | some (first :: rest) =>
    if case.admits first then d else { d with subject := some (case.convert first ++ rest) }
  | _ => d

/-- Strips one full stop from the end of the subject. A subject that is blank
without it goes as well. -/
def withoutFullStop (d : Draft) : Draft :=
  match d.subject with
  | some s =>
    if s.getLast? = some '.' then
      { d with subject := if Text.isBlank s.dropLast then none else some s.dropLast }
    else d
  | none => d

/-- Wraps the long lines of the body. -/
def withWrappedBody (width : Nat) (d : Draft) : Draft :=
  { d with body := d.body.map (Text.wrap width) }

/-- What a cut subject ends in. -/
def ellipsis : Text := ['.', '.', '.']

/-- A subject is not cut to this length or less. -/
def leastSubject : Nat := 10

/-- Cuts the subject so that the header has exactly `limit` characters, if the
header is longer and enough room for a subject is left. -/
def withHeaderWithin (limit : Nat) (d : Draft) : Draft :=
  let room := limit - d.typePrefix.length
  match d.subject with
  | some s =>
    if d.header.length ≤ limit ∨ room ≤ leastSubject then d
    else { d with subject := some (s.take (room - ellipsis.length) ++ ellipsis) }
  | none => d

/-- An edit, if it is enabled. -/
def editIf (enabled : Bool) (edit : Draft → Draft) (d : Draft) : Draft :=
  if enabled then edit d else d

end Draft

/-- A draft after all enabled fixes. -/
def fixDraft (o : FixOptions) (c : Config) (d : Draft) : Draft :=
  d |>.editIf o.inferType Draft.withInferredType
    |>.editIf o.adjustCase (Draft.withSubjectCase c.subjectCase)
    |>.editIf o.stripFullStop Draft.withoutFullStop
    |>.editIf o.wrapBody (Draft.withWrappedBody c.maxLineLength.toNat)
    |>.withHeaderWithin c.maxHeaderLength.toNat

/-- The text of a message after the enabled fixes, if they change a field. -/
def fixMessage (o : FixOptions) (c : Config) (raw : Text) : Option Text :=
  let draft := Draft.ofMessage (Message.parse raw)
  let fixed := fixDraft o c draft
  if fixed = draft then none else some fixed.render

/-- The text of a message after every fix, if they change a field. -/
def suggestedFix (c : Config) (raw : Text) : Option Text := fixMessage .all c raw

end ConventionalCommit
