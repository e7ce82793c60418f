import ConventionalCommit.Files.Basic

/-!
# ConventionalCommit — file trees

A tree of files and directories (`FileTree`), what a path leads to in it as
seen from its root, and the adding of files. A path that leaves the tree leads
to nothing, except that the root of the system is a directory.
-/

namespace ConventionalCommit

/-- A file or a directory with all that is in it. -/
inductive FileTree where
  | file (bytes : ByteArray)
  /-- A directory, as its names with what they stand for. -/
  | directory (entries : List (Text × FileTree))

namespace FileTree

/-- The tree with nothing in it. -/
def empty : FileTree := directory []

/-- The entry that the root of a tree is. -/
def toEntry : FileTree → Entry
  | file bytes => .file bytes
  | directory _ => .directory

/-- What a path leads to outside of the tree. -/
def outside (parts : List Text) : Entry :=
  if parts.all fun p => staysHere p || p == ['.', '.'] then .directory else .missing

/-- What a path leads to from a place in the tree, where `above` are the
directories above that place, the nearest first. -/
def walk (above : List FileTree) (here : FileTree) : List Text → Entry
  | [] => here.toEntry
  | part :: rest =>
    match here with
    | file _ => .throughFile
    | directory entries =>
      if staysHere part then walk above here rest
      else if part = ['.', '.'] then
        match above with
        | [] => outside rest
        | parent :: others => walk others parent rest
      else
        match entries.lookup part with
        | none => .missing
        | some next => walk (here :: above) next rest

/-- What a path leads to. -/
def entry (t : FileTree) (path : Text) : Entry :=
  match path with
  | [] => .missing
  | '/' :: rest => outside (pathParts rest)
  | _ => walk [] t (pathParts path)

/-- The entries of a directory; a file has none. -/
def entries : FileTree → List (Text × FileTree)
  | file _ => []
  | directory es => es

/-- Sets what a name stands for. -/
def setName (name : Text) (t : FileTree) : List (Text × FileTree) → List (Text × FileTree)
  | [] => [(name, t)]
  | (n, old) :: rest => if n = name then (n, t) :: rest else (n, old) :: setName name t rest

/-- Changes what is at the end of a path of names, making directories on the way
where there are none. -/
def update (change : FileTree → FileTree) : List Text → FileTree → FileTree
  | [], t => change t
  | part :: rest, t =>
    if staysHere part then update change rest t
    else
      let next := (t.entries.lookup part).getD empty
      directory (setName part (update change rest next) t.entries)

/-- Adds a file. -/
def addFile (path : Text) (bytes : ByteArray) (t : FileTree) : FileTree :=
  update (fun _ => file bytes) (pathParts path) t

/-- Adds a directory, or keeps the one that is there. -/
def addDirectory (path : Text) (t : FileTree) : FileTree :=
  update (fun old => directory old.entries) (pathParts path) t

end FileTree

end ConventionalCommit
