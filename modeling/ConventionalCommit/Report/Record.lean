import ConventionalCommit.Json.Basic
import ConventionalCommit.Rule.Check

/-!
# ConventionalCommit — reports as JSON

What linting found as a JSON value, for programs to read.
-/

namespace ConventionalCommit

/-- An issue as an object. -/
def Issue.toJson (i : Issue) : Json :=
  .object
    [("level".toList, .string i.level.name), ("rule".toList, .string i.rule.code),
     ("message".toList, .string i.message)]

/-- A message as an object with all its fields. -/
def Message.toJson (m : Message) : Json :=
  .object
    [("header".toList, .string m.header), ("type".toList, .ofText? m.type),
     ("scope".toList, .ofText? m.scope), ("subject".toList, .ofText? m.subject),
     ("body".toList, .ofText? m.body), ("footer".toList, .ofText? m.footer),
     ("isBreaking".toList, .bool m.isBreaking),
     ("hasBreakingMarker".toList, .bool m.marked), ("raw".toList, .string m.raw)]

/-- What linting found as an object. -/
def LintResult.toJson (r : LintResult) : Json :=
  .object
    [("valid".toList, .bool r.valid), ("errors".toList, .array (r.errors.map Issue.toJson)),
     ("warnings".toList, .array (r.warnings.map Issue.toJson)),
     ("parsed".toList, r.message.toJson), ("suggestion".toList, .ofText? r.suggestion)]

end ConventionalCommit
