import ConventionalCommit.Config.Basic
import ConventionalCommit.Json.Number

/-!
# ConventionalCommit — rules and issues

The rules that a commit message is checked against, and the issues that they
report. An issue names what is wrong with the numbers and words that its
message shows; its rule and its level follow from that.
-/

namespace ConventionalCommit

/-- How much an issue weighs. -/
inductive Level where
  /-- The message is not valid. -/
  | error
  /-- The message is valid all the same. -/
  | warning
deriving DecidableEq, Repr

namespace Level

/-- Both levels, the graver one first. -/
def all : List Level := [error, warning]

/-- The name of a level. -/
def name : Level → Text
  | error => "error".toList
  | warning => "warning".toList

end Level

/-- A rule for commit messages. -/
inductive Rule where
  | typeEmpty
  | typeEnum
  | scopeEmpty
  | subjectEmpty
  | subjectCase
  | subjectFullStop
  | blockedWords
  | headerMaxLength
  | bodyLeadingBlank
  | bodyMaxLineLength
  | footerLeadingBlank
deriving DecidableEq, Repr

namespace Rule

/-- All rules, in the order in which they report. -/
def all : List Rule :=
  [typeEmpty, typeEnum, scopeEmpty, subjectEmpty, subjectCase, subjectFullStop, blockedWords,
   headerMaxLength, bodyLeadingBlank, bodyMaxLineLength, footerLeadingBlank]

/-- The code by which a rule is reported. -/
def code : Rule → Text
  | typeEmpty => "type-empty".toList
  | typeEnum => "type-enum".toList
  | scopeEmpty => "scope-empty".toList
  | subjectEmpty => "subject-empty".toList
  | subjectCase => "subject-case".toList
  | subjectFullStop => "subject-full-stop".toList
  | blockedWords => "blocked-words".toList
  | headerMaxLength => "header-max-length".toList
  | bodyLeadingBlank => "body-leading-blank".toList
  | bodyMaxLineLength => "body-max-line-length".toList
  | footerLeadingBlank => "footer-leading-blank".toList

/-- The level of the issues of a rule: those about the layout of body and footer
are warnings. -/
def level : Rule → Level
  | bodyLeadingBlank => .warning
  | bodyMaxLineLength => .warning
  | footerLeadingBlank => .warning
  | _ => .error

/-- The list of rules is complete, so every rule is asked, and what holds of each rule in the list
holds of each rule. -/
theorem mem_all (r : Rule) : r ∈ all := by
  cases r <;> decide

end Rule

/-- Something wrong with a commit message. -/
inductive Issue where
  | typeMissing
  /-- The type is none of those allowed. -/
  | typeUnknown (type : Text) (allowed : List Text)
  | scopeMissing
  | subjectMissing
  /-- The first character of the subject does not have the form it must have. -/
  | subjectNotInCase (case : SubjectCase)
  | subjectEndsInStop
  | subjectContains (word : Text)
  | headerTooLong (limit length : Nat)
  /-- No blank line stands in front of the body. -/
  | bodyNotSeparated
  /-- A line of the body, counted from one, is longer than the limit. -/
  | bodyLineTooLong (line limit length : Nat)
  /-- No blank line stands in front of the footer. -/
  | footerNotSeparated
deriving DecidableEq, Repr

namespace Issue

/-- The rule that reports an issue. -/
def rule : Issue → Rule
  | typeMissing => .typeEmpty
  | typeUnknown .. => .typeEnum
  | scopeMissing => .scopeEmpty
  | subjectMissing => .subjectEmpty
  | subjectNotInCase _ => .subjectCase
  | subjectEndsInStop => .subjectFullStop
  | subjectContains _ => .blockedWords
  | headerTooLong .. => .headerMaxLength
  | bodyNotSeparated => .bodyLeadingBlank
  | bodyLineTooLong .. => .bodyMaxLineLength
  | footerNotSeparated => .footerLeadingBlank

/-- The level of an issue. -/
def level (i : Issue) : Level := i.rule.level

/-- The words for a limit and a length that exceeds it. -/
def lengthText (limit length : Nat) : Text :=
  " must not be longer than ".toList ++ Text.ofNat limit ++
    " characters, current length is ".toList ++ Text.ofNat length

/-- The message of an issue. -/
def message : Issue → Text
  | typeMissing => "type may not be empty".toList
  | typeUnknown type allowed =>
    "type '".toList ++ type ++ "' must be one of [".toList ++
      List.intercalate [',', ' '] allowed ++ [']']
  | scopeMissing => "scope may not be empty".toList
  | subjectMissing => "subject may not be empty".toList
  | subjectNotInCase .sentence => "subject must start with an uppercase character".toList
  | subjectNotInCase _ => "subject must start with a lowercase character".toList
  | subjectEndsInStop => "subject may not end with a full stop".toList
  | subjectContains word => "subject contains blocked word '".toList ++ word ++ ['\'']
  | headerTooLong limit length => "header".toList ++ lengthText limit length
  | bodyNotSeparated => "body must have a leading blank line".toList
  | bodyLineTooLong line limit length =>
    "body line ".toList ++ Text.ofNat line ++ lengthText limit length
  | footerNotSeparated => "footer must have a leading blank line".toList

/-- The message after the code of the rule. -/
def text (i : Issue) : Text := i.rule.code ++ ": ".toList ++ i.message

end Issue

end ConventionalCommit
