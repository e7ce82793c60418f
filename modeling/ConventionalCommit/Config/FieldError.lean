import ConventionalCommit.Config.Key
import ConventionalCommit.Json.Number

/-!
# ConventionalCommit — malformed settings

What is wrong with a JSON value that should hold the settings: a list of
places, each with what was expected there and what was found.
-/

namespace ConventionalCommit.Config

/-- A place in a JSON value that holds settings. -/
inductive Place where
  /-- The value as a whole. -/
  | root
  /-- The value under a key. -/
  | setting (key : Key)
  /-- An item of the array under a key, counted from zero. -/
  | item (key : Key) (index : Nat)
deriving DecidableEq, Repr

/-- The name of a place. -/
def Place.name : Place → Text
  | root => "<root>".toList
  | setting key => key.name
  | item key index => key.name ++ '[' :: (Text.ofNat index ++ [']'])

/-- What a place should hold. -/
inductive Expectation where
  | object
  | boolean
  | positiveInteger
  | strings
  | string
  | subjectCase
deriving DecidableEq, Repr

/-- The words for what a place should hold. -/
def Expectation.text : Expectation → Text
  | object => "object".toList
  | boolean => "boolean".toList
  | positiveInteger => "positive integer".toList
  | strings => "array of strings".toList
  | string => "string".toList
  | subjectCase => "one of: lower, sentence, any".toList

/-- A place that does not hold what it should. -/
structure FieldError where
  place : Place
  /-- What it should hold. -/
  expected : Expectation
  /-- What it holds, in words. -/
  got : Text
deriving DecidableEq, Repr

namespace FieldError

/-- What was expected and what was found. -/
def message (e : FieldError) : Text :=
  "expected ".toList ++ e.expected.text ++ ", got ".toList ++ e.got

/-- The place with the message about it. -/
def text (e : FieldError) : Text := e.place.name ++ ": ".toList ++ e.message

end FieldError

/-- The report on all malformed settings. -/
def invalidMessage (errors : List FieldError) : Text :=
  "Invalid configuration (".toList ++ Text.ofNat errors.length ++ " field(s)):\n".toList ++
    List.intercalate ['\n'] (errors.map fun e => "  ".toList ++ e.text)

end ConventionalCommit.Config
