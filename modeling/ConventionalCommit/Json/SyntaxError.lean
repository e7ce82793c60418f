import ConventionalCommit.Json.Number

/-!
# ConventionalCommit — syntax errors of JSON

What can be wrong with a JSON text, and where. A reader notes how many bytes
were left when it stopped (`Stop`); the line and the column follow from that
and the whole text (`Stop.toError`). Lines count from one, and a column is the
number of bytes since the last newline.
-/

namespace ConventionalCommit.Json

/-- What is wrong with a JSON text. -/
inductive Fault where
  | endInValue
  | endInList
  | endInObject
  | endInString
  | expectedValue
  | expectedIdent
  | expectedColon
  | expectedCommaOrBrace
  | expectedCommaOrBracket
  | keyNotString
  | trailingComma
  | trailingCharacters
  | invalidNumber
  | numberOutOfRange
  | invalidEscape
  | controlCharacter
  | loneSurrogate
  | endOfEscape
  | nestedTooDeep
deriving DecidableEq, Repr

/-- The words for a fault. -/
def Fault.message : Fault → Text
  | endInValue => "EOF while parsing a value".toList
  | endInList => "EOF while parsing a list".toList
  | endInObject => "EOF while parsing an object".toList
  | endInString => "EOF while parsing a string".toList
  | expectedValue => "expected value".toList
  | expectedIdent => "expected ident".toList
  | expectedColon => "expected `:`".toList
  | expectedCommaOrBrace => "expected `,` or `\x7d`".toList
  | expectedCommaOrBracket => "expected `,` or `]`".toList
  | keyNotString => "key must be a string".toList
  | trailingComma => "trailing comma".toList
  | trailingCharacters => "trailing characters".toList
  | invalidNumber => "invalid number".toList
  | numberOutOfRange => "number out of range".toList
  | invalidEscape => "invalid escape".toList
  | controlCharacter => "control character (\\u0000-\\u001F) found while parsing a string".toList
  | loneSurrogate => "lone leading surrogate in hex escape".toList
  | endOfEscape => "unexpected end of hex escape".toList
  | nestedTooDeep => "recursion limit exceeded".toList

/-- A fault at a place in a text. -/
structure SyntaxError where
  fault : Fault
  /-- The line, from one. -/
  line : Nat
  /-- The bytes of the line up to the fault. -/
  column : Nat
deriving DecidableEq, Repr

/-- The message that names the fault and its place. -/
def SyntaxError.message (e : SyntaxError) : Text :=
  e.fault.message ++ " at line ".toList ++ Text.ofNat e.line ++ " column ".toList ++
    Text.ofNat e.column

/-- The number of bytes of a text in UTF-8. -/
def byteLength (t : Text) : Nat := (t.map Char.utf8Size).foldr (· + ·) 0

/-- The line and column after the first `n` bytes of a text, starting from a
given line and column. -/
def placeAfter (line column : Nat) : Nat → Text → Nat × Nat
  | _, [] => (line, column)
  | n, c :: rest =>
    if n = 0 then (line, column)
    else if c = '\n' then placeAfter (line + 1) 0 (n - 1) rest
    else placeAfter line (column + min n c.utf8Size) (n - c.utf8Size) rest

/-- A fault and the number of bytes that follow its place. -/
structure Stop where
  fault : Fault
  /-- The bytes left. -/
  left : Nat
deriving DecidableEq, Repr

/-- The place of a stop in the whole text. -/
def Stop.toError (s : Stop) (whole : Text) : SyntaxError :=
  let place := placeAfter 1 0 (byteLength whole - s.left) whole
  ⟨s.fault, place.1, place.2⟩

/-- A stop at the first byte of `t`, or at the end if `t` is empty. -/
def Stop.at (fault : Fault) (t : Text) : Stop := ⟨fault, byteLength t - 1⟩

/-- A stop in front of `t`. -/
def Stop.before (fault : Fault) (t : Text) : Stop := ⟨fault, byteLength t⟩

end ConventionalCommit.Json
