import ConventionalCommit.Config.OfJson
import ConventionalCommit.Files.Basic
import ConventionalCommit.Json.Reader

/-!
# ConventionalCommit — finding the settings

Where the settings of a directory are: in a file that is named explicitly, or
else in a file of their own, or else under a key of the package file, or else
nowhere. One source is selected (`source`), and only that source is read; a
source that cannot be read is an error and no reason to try the next.
-/

namespace ConventionalCommit.Config

/-- Why a file of settings could not be read. -/
inductive FileProblem where
  /-- The file could not be read as a text. -/
  | fault (f : ReadFault)
  /-- The text is no JSON. -/
  | notJson (e : Json.SyntaxError)
deriving DecidableEq, Repr

/-- The words for a problem. -/
def FileProblem.message : FileProblem → Text
  | fault f => f.message
  | notJson e => e.message

/-- Why there are no settings. -/
inductive LoadError where
  /-- Some of them are malformed. -/
  | invalid (errors : List FieldError)
  /-- The file that holds them could not be read. -/
  | file (path : Text) (problem : FileProblem)
deriving DecidableEq, Repr

/-- The message of an error. -/
def LoadError.message : LoadError → Text
  | invalid errors => invalidMessage errors
  | file path problem =>
    "Failed to load config ".toList ++ path ++ ": ".toList ++ problem.message

/-- The name of the file that holds nothing but settings. -/
def ownFileName : Text := ".commitlyrc.json".toList

/-- The name of the package file. -/
def packageFileName : Text := "package.json".toList

/-- The key of the package file under which the settings are. -/
def packageKey : Text := "commitly".toList

/-- The paths at which the settings of a directory may be, in the order in which
they are tried. -/
def candidates (dir : Text) : List Text := [joinPath dir ownFileName, joinPath dir packageFileName]

/-- The file that holds the settings of a directory, if there is one. -/
def sourceIn (files : Files) (dir : Text) : Option Text :=
  (candidates dir).find? fun path => (files path).isFile

/-- The file that the settings are read from, if there is one. -/
def source (files : Files) (dir : Text) : Option Text → Option Text
  | some path => some path
  | none => sourceIn files dir

/-- The part of a JSON value that holds the settings. A package file has them
under a key. -/
def settingsIn (path : Text) (v : Json) : Json :=
  if fileName? path = some packageFileName then (v.get? packageKey).getD .null else v

/-- Reads the settings from a file, unchecked. -/
def readSource (files : Files) (path : Text) : Except LoadError Json :=
  match (files path).read with
  | .error f => .error (.file path (.fault f))
  | .ok t =>
    match Json.read t with
    | .error e => .error (.file path (.notJson e))
    | .ok v => .ok (settingsIn path v)

/-- Reads the settings of a directory, unchecked, if there are any. A package file
without settings is none, whereas a file of its own holding `null` is. -/
def uncheckedIn (files : Files) (dir : Text) : Except LoadError (Option Json) :=
  match sourceIn files dir with
  | none => .ok none
  | some path =>
    (readSource files path).map fun v =>
      if path = joinPath dir packageFileName && v.isNull then none else some v

/-- Reads and checks the settings of a directory, or those in an explicit file. -/
def load (files : Files) (dir : Text) (explicit : Option Text) : Except LoadError Config :=
  match source files dir explicit with
  | none => .ok default
  | some path =>
    match readSource files path with
    | .error e => .error e
    | .ok v => (ofJson v).mapError .invalid

end ConventionalCommit.Config
