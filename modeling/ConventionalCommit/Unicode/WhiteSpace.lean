import ConventionalCommit.Unicode.Ranges

/-!
# ConventionalCommit — white space

The Unicode property White_Space. The separators U+001C to U+001F, the zero
width space and the byte order mark do not have it.
-/

namespace ConventionalCommit.Unicode

/-- The code points with the property White_Space. -/
def whiteSpace : Ranges :=
  [(0x9, 0xD), (0x20, 0x20), (0x85, 0x85), (0xA0, 0xA0), (0x1680, 0x1680),
   (0x2000, 0x200A), (0x2028, 0x2029), (0x202F, 0x202F), (0x205F, 0x205F),
   (0x3000, 0x3000)]

/-- Whether a character is white space. -/
def isWhite (c : Char) : Bool := whiteSpace.contains c.toNat

@[simp] theorem isWhite_space : isWhite ' ' = true := rfl

@[simp] theorem isWhite_newline : isWhite '\n' = true := rfl

@[simp] theorem isWhite_return : isWhite '\r' = true := rfl

end ConventionalCommit.Unicode
