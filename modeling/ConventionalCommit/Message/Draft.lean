import ConventionalCommit.Message.Basic

/-!
# ConventionalCommit — drafts

The fields of a message that can be edited (`Draft`), and the text they are
written as (`Draft.render`). Rendering what was read (`Message.render`)
keeps a message that is already in its plain form.
-/

namespace ConventionalCommit

/-- The editable fields of a commit message. -/
structure Draft where
  type : Option Text
  scope : Option Text
  subject : Option Text
  body : Option Text
  footer : Option Text
  /-- Whether the mark `!` stands in the header. -/
  marked : Bool
deriving DecidableEq, Repr

namespace Draft

/-- The draft that holds the fields of a message. -/
def ofMessage (m : Message) : Draft where
  type := m.type
  scope := m.scope
  subject := m.subject
  body := m.body
  footer := m.footer
  marked := m.marked

/-- The part of the header before the subject, `type(scope)!: `, which is
empty without a type. -/
def typePrefix (d : Draft) : Text :=
  match d.type with
  | none => []
  | some type =>
    type ++ Header.scopeText d.scope ++ Header.markText d.marked ++ [':', ' ']

/-- The first line. Without a subject it is empty. -/
def header (d : Draft) : Text :=
  match d.subject with
  | none => []
  | some subject => d.typePrefix ++ subject

/-- A section as it follows another: after a blank line, if there is any. -/
def sectionText : Option Text → Text
  | none => []
  | some t => '\n' :: '\n' :: t

/-- The draft as the text of a message. -/
def render (d : Draft) : Text := d.header ++ sectionText d.body ++ sectionText d.footer

end Draft

/-- The message that the fields of a message are written as. -/
def Message.render (m : Message) : Text := (Draft.ofMessage m).render

end ConventionalCommit
