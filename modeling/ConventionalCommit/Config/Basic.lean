import ConventionalCommit.Text.Basic

/-!
# ConventionalCommit — rule configuration

The settings of the rules (`Config`) and their defaults. A limit is a number
of characters below `2 ^ 64`.
-/

namespace ConventionalCommit

/-- The form that the first character of a subject must have. -/
inductive SubjectCase where
  | lower
  /-- Upper case, as at the start of a sentence. -/
  | sentence
  | any
deriving DecidableEq, Repr

namespace SubjectCase

/-- All forms, in the order in which they are listed to the user. -/
def all : List SubjectCase := [lower, sentence, any]

/-- The name of a form. -/
def name : SubjectCase → Text
  | lower => "lower".toList
  | sentence => "sentence".toList
  | any => "any".toList

/-- The form of a given name. -/
def ofName? (t : Text) : Option SubjectCase := all.find? (fun c => c.name == t)

theorem ofName?_name (c : SubjectCase) : ofName? c.name = some c := by
  cases c <;> decide

end SubjectCase

/-- The settings of all rules. -/
structure Config where
  /-- The types that a header may have, in the order in which they are listed. -/
  types : List Text
  requireScope : Bool
  /-- The length that a header may have. -/
  maxHeaderLength : UInt64
  /-- The length that a line of the body may have. -/
  maxLineLength : UInt64
  /-- The form of the first character of a subject. -/
  subjectCase : SubjectCase
  subjectEmptyForbidden : Bool
  subjectFullStopForbidden : Bool
  /-- Whether a blank line must stand in front of the body. -/
  bodyLeadingBlank : Bool
  /-- Whether a blank line must stand in front of the footer. -/
  footerLeadingBlank : Bool
  /-- Words that a subject may not contain, in any case. -/
  blockedWords : List Text
deriving DecidableEq, Repr

namespace Config

/-- The types that are allowed without any configuration. -/
def defaultTypes : List Text :=
  ["feat".toList, "fix".toList, "docs".toList, "style".toList, "refactor".toList,
   "perf".toList, "test".toList, "build".toList, "ci".toList, "chore".toList,
   "revert".toList]

/-- The settings without any configuration. -/
def default : Config where
  types := defaultTypes
  requireScope := false
  maxHeaderLength := 72
  maxLineLength := 100
  subjectCase := .lower
  subjectEmptyForbidden := true
  subjectFullStopForbidden := true
  bodyLeadingBlank := true
  footerLeadingBlank := true
  blockedWords := []

end Config

end ConventionalCommit
