import ConventionalCommit.Json.Number

/-!
# ConventionalCommit — JSON values

The values of JSON. The members of an object keep their order, and a key that
is set again keeps its place (`Json.setMember`).
-/

namespace ConventionalCommit

/-- A value of JSON. -/
inductive Json where
  | null
  | bool (b : Bool)
  | number (n : Json.Number)
  | string (s : Text)
  | array (items : List Json)
  /-- An object, as its keys with their values. -/
  | object (members : List (Text × Json))

namespace Json

/-- Sets a key to a value, in its place if it is there and else at the end. -/
def setMember (key : Text) (value : Json) : List (Text × Json) → List (Text × Json)
  | [] => [(key, value)]
  | (k, v) :: rest => if k = key then (key, value) :: rest else (k, v) :: setMember key value rest

/-- Whether a value is `null`. -/
def isNull : Json → Bool
  | null => true
  | _ => false

/-- The value under a key, if the value is an object that has it. -/
def get? (key : Text) : Json → Option Json
  | object members => members.lookup key
  | _ => none

/-- The name of the kind of a value. -/
def kind : Json → Text
  | null => "null".toList
  | bool _ => "boolean".toList
  | number _ => "number".toList
  | string _ => "string".toList
  | array _ => "array".toList
  | object _ => "object".toList

/-- A natural number below `2 ^ 64` as a value. -/
def ofUInt64 (n : UInt64) : Json := number (.natural n)

/-- A text or `null`. -/
def ofText? : Option Text → Json
  | none => null
  | some t => string t

end Json

end ConventionalCommit
