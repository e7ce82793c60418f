import ConventionalCommit.Message.Basic
import ConventionalCommit.Rule.Basic
import ConventionalCommit.Text.Lowercase

/-!
# ConventionalCommit — checking a message

Each rule looks at the fields of a message and at its own setting, and reports
any number of issues (`Rule.check`). Checking a message asks all rules in
turn (`Message.check`); linting a text reads it first and sorts the issues by
level (`lint`).
-/

namespace ConventionalCommit

open Unicode (toLower toUpper)

/-- Whether a character has the form that a subject case asks for. A character
without case has every form. -/
def SubjectCase.admits (case : SubjectCase) (c : Char) : Bool :=
  match case with
  | lower => toLower c == [c]
  | sentence => toUpper c == [c]
  | any => true

namespace Message

/-- The subject of a message, unless it is blank. -/
def visibleSubject (m : Message) : Option Text := m.subject.filter (fun s => !s.isBlank)

/-- Whether the line under the header has something on it. -/
def crowdsHeader (m : Message) : Bool := m.raw.lines[1]?.any (fun l => !l.isBlank)

/-- Whether there are trailers and the line above them has something on it. -/
def crowdsFooter (m : Message) : Bool :=
  let sections := Sections.ofLines m.raw.lines
  !sections.footer.isEmpty &&
    (sections.header ++ sections.gap ++ sections.body).getLast?.any (fun l => !l.isBlank)

end Message

/-- The lines of a body that are longer than a limit, counting lines from a
given number on. -/
def longLines (limit : Nat) : Nat → List Text → List Issue
  | _, [] => []
  | n, l :: rest =>
    if limit < l.length then .bodyLineTooLong n limit l.length :: longLines limit (n + 1) rest
    else longLines limit (n + 1) rest

/-- Whether a blocked word occurs in a subject, whatever the case of either. The
empty word is never found. -/
def blocks (subject word : Text) : Bool :=
  !word.isEmpty && word.lowercase.occursIn subject.lowercase

/-- The issues that a rule reports about a message. -/
def Rule.check (r : Rule) (c : Config) (m : Message) : List Issue :=
  match r with
  | typeEmpty => if m.type.isNone then [.typeMissing] else []
  | typeEnum =>
    match m.type with
    | some type => if c.types.contains type then [] else [.typeUnknown type c.types]
    | none => []
  | scopeEmpty => if c.requireScope && m.scope.isNone then [.scopeMissing] else []
  | subjectEmpty =>
    if c.subjectEmptyForbidden && m.visibleSubject.isNone then [.subjectMissing] else []
  | subjectCase =>
    match m.visibleSubject.bind List.head? with
    | some first => if c.subjectCase.admits first then [] else [.subjectNotInCase c.subjectCase]
    | none => []
  | subjectFullStop =>
    if c.subjectFullStopForbidden && m.visibleSubject.any (fun s => s.getLast? == some '.') then
      [.subjectEndsInStop]
    else []
  | blockedWords =>
    match m.visibleSubject with
    | some s => (c.blockedWords.filter (blocks s)).map .subjectContains
    | none => []
  | headerMaxLength =>
    if c.maxHeaderLength.toNat < m.header.length then
      [.headerTooLong c.maxHeaderLength.toNat m.header.length]
    else []
  | bodyLeadingBlank =>
    if c.bodyLeadingBlank && m.body.isSome && m.crowdsHeader then [.bodyNotSeparated] else []
  | bodyMaxLineLength =>
    match m.body with
    | some body => longLines c.maxLineLength.toNat 1 body.lines
    | none => []
  | footerLeadingBlank =>
    if c.footerLeadingBlank && m.footer.isSome && m.crowdsFooter then [.footerNotSeparated]
    else []

/-- The issues that all rules report about a message, rule by rule. -/
def Message.check (m : Message) (c : Config) : List Issue := Rule.all.flatMap (·.check c m)

/-- What linting a text found. -/
structure LintResult where
  /-- The issues that make the message invalid. -/
  errors : List Issue
  /-- The other issues. -/
  warnings : List Issue
  message : Message
  /-- A better text, if one was asked for and found. -/
  suggestion : Option Text
deriving DecidableEq, Repr

namespace LintResult

/-- Whether the message is valid: it has no errors. -/
def valid (r : LintResult) : Bool := r.errors.isEmpty

/-- All issues, the errors first. -/
def issues (r : LintResult) : List Issue := r.errors ++ r.warnings

/-- Whether a rule reported an issue. -/
def reports (r : LintResult) (rule : Rule) : Bool := r.issues.any (·.rule == rule)

end LintResult

/-- Checks a text against the rules. -/
def lint (c : Config) (raw : Text) : LintResult :=
  let message := Message.parse raw
  let issues := message.check c
  { errors := issues.filter (·.level == .error)
    warnings := issues.filter (·.level == .warning)
    message
    suggestion := none }

end ConventionalCommit
