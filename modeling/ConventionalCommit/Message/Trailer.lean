import ConventionalCommit.Text.Lines
import ConventionalCommit.Unicode.WhiteSpace

/-!
# ConventionalCommit — trailer lines

A trailer is a line `Key: value` whose key is a capitalised word, such as
`Closes` or `Signed-off-by`, or the two words `BREAKING CHANGE`. The words
`BREAKING CHANGE:` or `BREAKING-CHANGE:` at the start of a footer line, in any
case, announce an incompatible change.
-/

namespace ConventionalCommit.Trailer

open Unicode (isWhite)

/-- Whether a character is an ASCII capital. -/
def isCapital (c : Char) : Bool := 'A' ≤ c && c ≤ 'Z'

/-- Whether a character may follow the capital of a key: an ASCII letter or a
hyphen. -/
def isKeyChar (c : Char) : Bool :=
  isCapital c || ('a' ≤ c && c ≤ 'z') || c == '-'

/-- The only key that has a space in it. -/
def breakingKey : Text := "BREAKING CHANGE".toList

/-- Whether a text begins with a colon and white space. -/
def startsValue : Text → Bool
  | ':' :: c :: _ => isWhite c
  | _ => false

/-- Whether a line begins with a capital, one or more letters or hyphens, and
the start of a value. -/
def startsWithWord : Text → Bool
  | c :: rest =>
    isCapital c && !(rest.takeWhile isKeyChar).isEmpty &&
      startsValue (rest.dropWhile isKeyChar)
  | [] => false

/-- Whether a line begins with the key of two words and the start of a value. -/
def startsWithBreakingKey (line : Text) : Bool :=
  breakingKey.isPrefixOf line && startsValue (line.drop breakingKey.length)

/-- Whether a line is a trailer. -/
def isTrailerLine (line : Text) : Bool := startsWithWord line || startsWithBreakingKey line

-- ---------------------------------------------------------------------------
-- Announcements of a breaking change
-- ---------------------------------------------------------------------------

/-- The characters that are equal to an ASCII capital up to case. The kelvin
sign is a `K`. -/
def caseForms (c : Char) : List Char :=
  if c = 'K' then ['K', 'k', '\u212a'] else [c, c.toLower]

/-- The announcement, as the characters that each of its places admits. -/
def announcement : List (List Char) :=
  "BREAKING".toList.map caseForms ++ [[' ', '-']] ++ "CHANGE".toList.map caseForms ++ [[':']]

/-- Whether a text begins with one admitted character after the other. -/
def startsWithForms : List (List Char) → Text → Bool
  | [], _ => true
  | _ :: _, [] => false
  | forms :: others, c :: rest => forms.contains c && startsWithForms others rest

/-- Whether a line announces a breaking change. -/
def announcesBreaking (line : Text) : Bool := startsWithForms announcement line

/-- Whether a footer announces a breaking change at the start of one of its
rows. -/
def footerBreaks (footer : Text) : Bool := footer.rows.any announcesBreaking

end ConventionalCommit.Trailer
