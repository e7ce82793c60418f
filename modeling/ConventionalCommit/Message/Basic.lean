import ConventionalCommit.Message.Header
import ConventionalCommit.Message.Sections

/-!
# ConventionalCommit — messages

A commit message read into its fields (`Message.parse`). Reading never fails:
a first line that is no header counts as a subject without a type.
-/

namespace ConventionalCommit

/-- A commit message and the fields read from it. -/
structure Message where
  /-- The first line. -/
  header : Text
  type : Option Text
  scope : Option Text
  /-- The subject after the colon, or the whole first line. -/
  subject : Option Text
  /-- The text between header and footer. -/
  body : Option Text
  /-- The trailers at the end. -/
  footer : Option Text
  /-- Whether the message marks or announces a breaking change. -/
  isBreaking : Bool
  /-- Whether the mark `!` stands in the header. -/
  marked : Bool
  /-- The message as given. -/
  raw : Text
deriving DecidableEq, Repr

namespace Message

open Text (trimmed?)

/-- Reads a message into its fields. -/
def parse (raw : Text) : Message :=
  let sections := Sections.ofLines raw.lines
  let header := sections.header.flatten
  let fields := Header.read? header
  let footer := trimmed? (Text.unlines sections.footer)
  let marked := fields.any (·.marked)
  { header
    type := fields.map (·.type)
    scope := fields.bind fun h => h.scope.bind trimmed?
    subject := match fields with
      | some h => trimmed? h.subject
      | none => trimmed? header
    body := trimmed? (Text.unlines sections.body)
    footer
    isBreaking := marked || footer.any Trailer.footerBreaks
    marked := marked
    raw }

end Message

end ConventionalCommit
