import ConventionalCommit.Json.Basic

/-!
# ConventionalCommit — writing JSON

Two layouts of a JSON value: `compact` on one line without spaces, and
`pretty` with a line for each item and member, indented by two spaces a level.
A string escapes the quote, the backslash and the control characters below
the space, and nothing else.
-/

namespace ConventionalCommit.Json

/-- A hexadecimal digit in lower case. -/
def hexDigit (n : Nat) : Char := Nat.digitChar (n % 16)

/-- A character as it stands inside a string. -/
def escapeChar (c : Char) : Text :=
  match c with
  | '"' => ['\\', '"']
  | '\\' => ['\\', '\\']
  | '\x08' => ['\\', 'b']
  | '\t' => ['\\', 't']
  | '\n' => ['\\', 'n']
  | '\x0c' => ['\\', 'f']
  | '\r' => ['\\', 'r']
  | c =>
    if c < ' ' then ['\\', 'u', '0', '0', hexDigit (c.toNat / 16), hexDigit c.toNat] else [c]

/-- A text as a string literal. -/
def quote (t : Text) : Text := '"' :: (t.flatMap escapeChar ++ ['"'])

/-- The literals without parts. -/
def boolText (b : Bool) : Text := if b then "true".toList else "false".toList

mutual

/-- A value on one line. -/
def compact : Json → Text
  | null => "null".toList
  | bool b => boolText b
  | number n => n.text
  | string s => quote s
  | array items => '[' :: (compactItems items ++ [']'])
  | object members => '\x7b' :: (compactMembers members ++ ['\x7d'])

/-- Items on one line, with commas between them. -/
def compactItems : List Json → Text
  | [] => []
  | [v] => compact v
  | v :: next :: others => compact v ++ ',' :: compactItems (next :: others)

/-- Members on one line, with commas between them. -/
def compactMembers : List (Text × Json) → Text
  | [] => []
  | [(k, v)] => quote k ++ ':' :: compact v
  | (k, v) :: next :: others => quote k ++ ':' :: compact v ++ ',' :: compactMembers (next :: others)

end

/-- A newline and the indentation of a level. -/
def newline (level : Nat) : Text := '\n' :: List.replicate (2 * level) ' '

mutual

/-- A value with a line for each item and member, at a level of indentation. -/
def pretty (level : Nat) : Json → Text
  | null => "null".toList
  | bool b => boolText b
  | number n => n.text
  | string s => quote s
  | array [] => ['[', ']']
  | array (v :: vs) => '[' :: (prettyItems (level + 1) (v :: vs) ++ newline level ++ [']'])
  | object [] => ['\x7b', '\x7d']
  | object (m :: ms) => '\x7b' :: (prettyMembers (level + 1) (m :: ms) ++ newline level ++ ['\x7d'])

/-- Items, each on a line of its own. -/
def prettyItems (level : Nat) : List Json → Text
  | [] => []
  | [v] => newline level ++ pretty level v
  | v :: next :: others =>
    newline level ++ pretty level v ++ ',' :: prettyItems level (next :: others)

/-- Members, each on a line of its own. -/
def prettyMembers (level : Nat) : List (Text × Json) → Text
  | [] => []
  | [(k, v)] => newline level ++ quote k ++ ':' :: ' ' :: pretty level v
  | (k, v) :: next :: others =>
    newline level ++ quote k ++ ':' :: ' ' :: pretty level v ++
      ',' :: prettyMembers level (next :: others)

end

end ConventionalCommit.Json
