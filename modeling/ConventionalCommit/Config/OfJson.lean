import ConventionalCommit.Config.FieldError
import ConventionalCommit.Json.Basic

/-!
# ConventionalCommit — settings from JSON

`Config.ofJson` reads the settings from a JSON value. A key that is absent
leaves its default, and a key that is not a setting is ignored. Each setting
is checked by itself (`Checked`), and the errors of all of them are reported
together, in the order of the keys.
-/

namespace ConventionalCommit.Config

open Json (kind)

/-- A setting with the errors found in it. The value is of use only if there are
none. -/
structure Checked (α : Type) where
  value : α
  errors : List FieldError

/-- A setting without errors. -/
def Checked.fine {α : Type} (value : α) : Checked α := ⟨value, []⟩

/-- A setting of a kind that cannot be read. -/
def Checked.wrong {α : Type} (fallback : α) (key : Key) (expected : Expectation) (got : Text) :
    Checked α :=
  ⟨fallback, [⟨.setting key, expected, got⟩]⟩

/-- Reads a truth value. -/
def checkBool (key : Key) (fallback : Bool) : Json → Checked Bool
  | .bool b => .fine b
  | other => .wrong fallback key .boolean other.kind

/-- The positive integer below `2 ^ 64` that a number stands for. A double must
be whole, and `2 ^ 64` itself counts as the greatest such integer. -/
def positive? : Json.Number → Option UInt64
  | .natural n => if n = 0 then none else some n
  | .negative .. => none
  | .double true _ => none
  | .double false x =>
    x.toNat?.bind fun n =>
      if n = 0 ∨ Nat.pow 2 64 < n then none else some (UInt64.ofNat (min n (Nat.pow 2 64 - 1)))

/-- Reads a positive integer. -/
def checkPositive (key : Key) (fallback : UInt64) : Json → Checked UInt64
  | .number n =>
    match positive? n with
    | some v => .fine v
    | none => .wrong fallback key .positiveInteger n.text
  | other => .wrong fallback key .positiveInteger other.kind

/-- The errors of the items of an array of strings, from an index on. -/
def itemErrors (key : Key) : Nat → List Json → List FieldError
  | _, [] => []
  | i, .string _ :: rest => itemErrors key (i + 1) rest
  | i, other :: rest =>
    ⟨.item key i, .string, other.kind⟩ :: itemErrors key (i + 1) rest

/-- The strings among some values. -/
def stringsIn : List Json → List Text
  | [] => []
  | .string s :: rest => s :: stringsIn rest
  | _ :: rest => stringsIn rest

/-- Reads an array of strings. -/
def checkStrings (key : Key) (fallback : List Text) : Json → Checked (List Text)
  | .array items => ⟨stringsIn items, itemErrors key 0 items⟩
  | other => .wrong fallback key .strings other.kind

/-- Reads the name of a subject case. -/
def checkCase (key : Key) (fallback : SubjectCase) : Json → Checked SubjectCase
  | .string s =>
    match SubjectCase.ofName? s with
    | some c => .fine c
    | none => .wrong fallback key .subjectCase ('"' :: (s ++ ['"']))
  | other => .wrong fallback key .subjectCase other.kind

/-- Checks the value under a key, or takes the default if the key is absent. -/
def checkKey {α : Type} (members : List (Text × Json)) (key : Key)
    (read : Key → α → Json → Checked α) (fallback : α) : Checked α :=
  match members.lookup key.name with
  | none => .fine fallback
  | some v => read key fallback v

/-- Checks all settings of an object. -/
def checkMembers (members : List (Text × Json)) : Checked Config :=
  let types := checkKey members .types checkStrings default.types
  let requireScope := checkKey members .requireScope checkBool default.requireScope
  let maxHeaderLength := checkKey members .maxHeaderLength checkPositive default.maxHeaderLength
  let maxLineLength := checkKey members .maxLineLength checkPositive default.maxLineLength
  let subjectCase := checkKey members .subjectCase checkCase default.subjectCase
  let subjectEmpty :=
    checkKey members .subjectEmptyForbidden checkBool default.subjectEmptyForbidden
  let subjectFullStop :=
    checkKey members .subjectFullStopForbidden checkBool default.subjectFullStopForbidden
  let bodyBlank := checkKey members .bodyLeadingBlank checkBool default.bodyLeadingBlank
  let footerBlank := checkKey members .footerLeadingBlank checkBool default.footerLeadingBlank
  let blockedWords := checkKey members .blockedWords checkStrings default.blockedWords
  { value :=
      { types := types.value
        requireScope := requireScope.value
        maxHeaderLength := maxHeaderLength.value
        maxLineLength := maxLineLength.value
        subjectCase := subjectCase.value
        subjectEmptyForbidden := subjectEmpty.value
        subjectFullStopForbidden := subjectFullStop.value
        bodyLeadingBlank := bodyBlank.value
        footerLeadingBlank := footerBlank.value
        blockedWords := blockedWords.value }
    errors :=
      types.errors ++ (requireScope.errors ++ (maxHeaderLength.errors ++
        (maxLineLength.errors ++ (subjectCase.errors ++ (subjectEmpty.errors ++
          (subjectFullStop.errors ++ (bodyBlank.errors ++ (footerBlank.errors ++
            blockedWords.errors)))))))) }

/-- The settings that a JSON value holds, or everything that is wrong with it.
The value `null` holds the defaults. -/
def ofJson : Json → Except (List FieldError) Config
  | .null => .ok default
  | .object members =>
    match (checkMembers members).errors with
    | [] => .ok (checkMembers members).value
    | e :: es => .error (e :: es)
  | other => .error [⟨.root, .object, other.kind⟩]

end ConventionalCommit.Config
