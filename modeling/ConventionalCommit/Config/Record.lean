import ConventionalCommit.Config.Key
import ConventionalCommit.Json.Basic

/-!
# ConventionalCommit — settings as a JSON record

The settings as a JSON record that leaves none out: `Config.toJson` writes it
and `Config.ofRecord?` reads it. A record is an object with all ten keys or an
array of the ten values in the order of the keys. Unlike the settings that a
user writes, it has no defaults, its limits may be zero, and its numbers must
be integer literals.
-/

namespace ConventionalCommit.Config

/-- The settings as an object with all ten keys. -/
def toJson (c : Config) : Json :=
  .object
    [(Key.types.name, .array (c.types.map .string)),
     (Key.requireScope.name, .bool c.requireScope),
     (Key.maxHeaderLength.name, .ofUInt64 c.maxHeaderLength),
     (Key.maxLineLength.name, .ofUInt64 c.maxLineLength),
     (Key.subjectCase.name, .string c.subjectCase.name),
     (Key.subjectEmptyForbidden.name, .bool c.subjectEmptyForbidden),
     (Key.subjectFullStopForbidden.name, .bool c.subjectFullStopForbidden),
     (Key.bodyLeadingBlank.name, .bool c.bodyLeadingBlank),
     (Key.footerLeadingBlank.name, .bool c.footerLeadingBlank),
     (Key.blockedWords.name, .array (c.blockedWords.map .string))]

/-- The value that a record has for each key. An array has one value for each
key, neither less nor more. -/
def recordValue? (record : Json) (key : Key) : Option Json :=
  match record with
  | .object members => members.lookup key.name
  | .array values =>
    if values.length = Key.all.length then values[Key.all.idxOf key]? else none
  | _ => none

/-- A truth value of a record. -/
def bool? : Json → Option Bool
  | .bool b => some b
  | _ => none

/-- A limit of a record: an integer literal from zero to `2 ^ 64 - 1`. -/
def limit? : Json → Option UInt64
  | .number (.natural n) => some n
  | _ => none

/-- A text of a record. -/
def text? : Json → Option Text
  | .string s => some s
  | _ => none

/-- A list of texts of a record. -/
def texts? : Json → Option (List Text)
  | .array items => items.mapM text?
  | _ => none

/-- A subject case of a record: its name, or an object that has `null` under its
name and nothing else. -/
def case? : Json → Option SubjectCase
  | .string s => SubjectCase.ofName? s
  | .object [(name, .null)] => SubjectCase.ofName? name
  | _ => none

/-- The settings that a record holds. -/
def ofRecord? (record : Json) : Option Config := do
  let value := recordValue? record
  return {
    types := ← (← value .types) |> texts?
    requireScope := ← (← value .requireScope) |> bool?
    maxHeaderLength := ← (← value .maxHeaderLength) |> limit?
    maxLineLength := ← (← value .maxLineLength) |> limit?
    subjectCase := ← (← value .subjectCase) |> case?
    subjectEmptyForbidden := ← (← value .subjectEmptyForbidden) |> bool?
    subjectFullStopForbidden := ← (← value .subjectFullStopForbidden) |> bool?
    bodyLeadingBlank := ← (← value .bodyLeadingBlank) |> bool?
    footerLeadingBlank := ← (← value .footerLeadingBlank) |> bool?
    blockedWords := ← (← value .blockedWords) |> texts? }

end ConventionalCommit.Config
