import ConventionalCommit.Text.Basic

/-!
# ConventionalCommit — files

What a path leads to (`Entry`), the text of a file, and the parts of a path.
A reading fails for a reason that the operating system gives, or because the
bytes of the file are no text. Whether something is a regular file and whether
it can be read are two questions: a pipe can be read but is none, and a file may
be one that must not be opened.
-/

namespace ConventionalCommit

/-- Why nothing can be read at a path. -/
inductive ReadFault where
  | notFound
  /-- A part of the path before the last is no directory. -/
  | notDirectory
  | isDirectory
  /-- The bytes are no UTF-8. -/
  | notText
  /-- Any other reason, in the words of the system. -/
  | other (reason : Text)
deriving DecidableEq, Repr

/-- The words for a fault. -/
def ReadFault.message : ReadFault → Text
  | notFound => "No such file or directory (os error 2)".toList
  | notDirectory => "Not a directory (os error 20)".toList
  | isDirectory => "Is a directory (os error 21)".toList
  | notText => "stream did not contain valid UTF-8".toList
  | other reason => reason

/-- The text that bytes stand for in UTF-8. -/
def decodeText (bytes : ByteArray) : Except ReadFault Text :=
  match String.fromUTF8? bytes with
  | some s => .ok s.toList
  | none => .error .notText

/-- What a path leads to. -/
inductive Entry where
  | file (bytes : ByteArray)
  /-- A file that cannot be opened. -/
  | unreadable (fault : ReadFault)
  /-- Something else that bytes can be read from, as a pipe or a device. -/
  | special (bytes : ByteArray)
  /-- Something that is not known to be a file, for example because a directory
  on the way may not be searched, and that cannot be opened either. -/
  | hidden (fault : ReadFault)
  | directory
  | missing
  /-- Nothing, since the path goes through a file. -/
  | throughFile

namespace Entry

/-- Whether an entry is known to be a regular file. -/
def isFile : Entry → Bool
  | file _ => true
  | unreadable _ => true
  | _ => false

/-- The bytes of an entry, whatever kind of file they are in. -/
def bytes? : Entry → Option ByteArray
  | file bytes => some bytes
  | special bytes => some bytes
  | _ => none

/-- The text of an entry. -/
def read : Entry → Except ReadFault Text
  | file bytes => decodeText bytes
  | special bytes => decodeText bytes
  | unreadable fault => .error fault
  | hidden fault => .error fault
  | directory => .error .isDirectory
  | missing => .error .notFound
  | throughFile => .error .notDirectory

end Entry

/-- What each path leads to. -/
abbrev Files := Text → Entry

-- ---------------------------------------------------------------------------
-- Paths
-- ---------------------------------------------------------------------------

/-- The parts of a path between its slashes. -/
def pathParts : Text → List Text
  | [] => [[]]
  | c :: rest =>
    if c = '/' then [] :: pathParts rest
    else
      match pathParts rest with
      | [] => [[c]]
      | part :: others => (c :: part) :: others

/-- Whether a part of a path stays where it is. -/
def staysHere (part : Text) : Bool := part.isEmpty || part == ['.']

/-- The name of the file that a path leads to, unless the path ends in a step
up. -/
def fileName? (path : Text) : Option Text :=
  ((pathParts path).filter fun p => !staysHere p).getLast?.filter (· != ['.', '.'])

/-- The path of a name inside a directory. -/
def joinPath (dir name : Text) : Text :=
  if dir.isEmpty then name
  else if dir.getLast? = some '/' then dir ++ name
  else dir ++ '/' :: name

end ConventionalCommit
