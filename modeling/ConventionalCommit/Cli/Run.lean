import ConventionalCommit.Cli.Args
import ConventionalCommit.Config.Load
import ConventionalCommit.Fix.Basic
import ConventionalCommit.Json.Printer
import ConventionalCommit.Report.Frame
import ConventionalCommit.Report.Lines
import ConventionalCommit.Report.Record

/-!
# ConventionalCommit — running a command

What the program does with its arguments, as a function of the files, of
standard input and of how the output is displayed: what it prints and the status
it exits with (`Outcome`). The settings are loaded before the message is read.
-/

namespace ConventionalCommit.Cli

/-- What a run of the program shows. -/
structure Outcome where
  exit : Nat
  /-- What is printed to standard output. -/
  stdout : Text
  /-- What is printed to standard error. -/
  stderr : Text
deriving DecidableEq, Repr

/-- How the output is displayed. -/
structure Display where
  colours : Bool
  /-- The columns of the terminal, if there is one. -/
  width : Option Nat
deriving DecidableEq, Repr

/-- Without a terminal there is nothing to tell of the output but its colours. -/
instance : Coe Bool Display := ⟨fun colours => ⟨colours, none⟩⟩

/-- The surroundings of a run. -/
structure World where
  /-- What each path leads to. -/
  files : Files
  stdin : ByteArray
  display : Display

/-- Why a command could not be carried out. -/
inductive Failure where
  /-- There are no settings. -/
  | config (e : Config.LoadError)
  /-- The message could not be read. -/
  | message (f : ReadFault)
deriving DecidableEq, Repr

/-- The words for a failure. -/
def Failure.text : Failure → Text
  | config e => e.message
  | message f => "IO error: ".toList ++ f.message

/-- A text without the lines that begin with the comment character. -/
def withoutComments (raw : Text) : Text :=
  Text.unlines (raw.lines.filter fun l => l.head? != some '#')

/-- Reads a message from a file, or from standard input if none is named, and
drops its comments. -/
def messageText (w : World) (file : Option Text) : Except ReadFault Text :=
  (match file with
    | some path => (w.files path).read
    | none => decodeText w.stdin).map withoutComments

/-- The width of the frame around a suggestion: that of the terminal, but no more
than 100 columns, and 80 without a terminal. -/
def Display.frameWidth (display : Display) : Nat := min (display.width.getD 80) 100

/-- The result of linting a message, with a suggestion if there is any issue. -/
def lintWithSuggestion (c : Config) (message : Text) : LintResult :=
  let r := lint c message
  { r with suggestion := if r.issues.isEmpty then none else suggestedFix c message }

/-- The report on a message, line by line, with the suggestion in a frame. -/
def lintReport (display : Display) (r : LintResult) : Text :=
  (r.issues.map fun i => i.line display.colours ++ ['\n']).flatten ++
    r.summary display.colours ++ ['\n'] ++
      match r.suggestion with
      | none => []
      | some s =>
        '\n' :: (Frame.render display.colours "Suggested fix".toList s display.frameWidth ++ ['\n'])

/-- Checks a message and reports on it. -/
def lintOutcome (display : Display) (c : Config) (json : Bool) (message : Text) : Outcome :=
  let r := lintWithSuggestion c message
  { exit := if r.valid then 0 else 1
    stdout := if json then r.toJson.pretty 0 ++ ['\n'] else lintReport display r
    stderr :=
      if message.isBlank then
        Paint.warning.line display.colours "commit message is empty".toList ++ ['\n']
      else [] }

/-- Prints a message after the enabled fixes, or as it is if there is nothing to
fix. -/
def fixOutcome (colours : Bool) (c : Config) (o : FixOptions) (message : Text) : Outcome :=
  let fixed := fixMessage o c message
  { exit := 0
    stdout := fixed.getD message ++ ['\n']
    stderr :=
      if fixed.isNone then Paint.info.line colours "no fix applied".toList ++ ['\n'] else [] }

/-- The command that is carried out if none is named. -/
def defaultCommand : Command := .lint none false

/-- The file that a command reads the message from. -/
def Command.file : Command → Option Text
  | lint file _ => file
  | fix file .. => file

/-- Carries out a command on a message. -/
def Command.run (display : Display) (c : Config) (message : Text) : Command → Outcome
  | lint _ json => lintOutcome display c json message
  | fix _ noInferType noFixCase noFixPeriod noWrap =>
    fixOutcome display.colours c ⟨!noInferType, !noFixCase, !noFixPeriod, !noWrap⟩ message

/-- Loads the settings, reads the message and carries out the command. -/
def attempt (w : World) (a : Args) : Except Failure Outcome :=
  let command := a.command.getD defaultCommand
  match Config.load w.files a.dir a.config with
  | .error e => .error (.config e)
  | .ok c =>
    match messageText w command.file with
    | .error f => .error (.message f)
    | .ok message => .ok (command.run w.display c message)

/-- What a failure shows. -/
def Failure.outcome (colours : Bool) (f : Failure) : Outcome :=
  ⟨2, [], Paint.error.line colours f.text ++ ['\n']⟩

/-- Runs the program with its arguments. -/
def run (w : World) (a : Args) : Outcome :=
  match attempt w a with
  | .ok o => o
  | .error f => f.outcome w.display.colours

-- ---------------------------------------------------------------------------
-- Command lines
-- ---------------------------------------------------------------------------

/-- The name and version of the program. -/
def versionText : Text := "commitly 0.1.0\n".toList

/-- How the program is called. -/
def usageText : Text :=
  ("Lint and fix conventional commit messages\n\n" ++
    "Usage: commitly [OPTIONS] [COMMAND]\n\n" ++
    "Commands:\n" ++
    "  lint [--json] [FILE]  Validate a commit message and report issues\n" ++
    "  fix [--no-infer-type] [--no-fix-case] [--no-fix-period] [--no-wrap] [FILE]\n" ++
    "                        Print the auto-fixed commit message\n" ++
    "  help                  Print this message\n\n" ++
    "Options:\n" ++
    "      --config <CONFIG>  Config file to use instead of discovery\n" ++
    "      --dir <DIR>        Directory to search for a config file [default: .]\n" ++
    "  -h, --help             Print help\n" ++
    "  -V, --version          Print version\n").toList

/-- The words for a command line that is not understood. -/
def ArgsStop.text : ArgsStop → Text
  | displayHelp => usageText
  | displayVersion => versionText
  | unknownArgument => "error: unexpected argument found\n".toList
  | invalidSubcommand => "error: unrecognized subcommand\n".toList
  | invalidValue => "error: a value is required for an argument but none was supplied\n".toList
  | tooManyValues => "error: unexpected value for a flag found\n".toList
  | argumentConflict => "error: an argument cannot be used multiple times\n".toList

/-- What a command line that asks for no command shows. -/
def ArgsStop.outcome (s : ArgsStop) : Outcome :=
  if s.exit = 0 then ⟨0, s.text, []⟩ else ⟨s.exit, [], s.text⟩

/-- The paths that a run may read: those of the settings and that of the message. -/
def Args.paths (a : Args) : List Text :=
  (match a.config with
    | some path => [path]
    | none => Config.candidates a.dir) ++ ((a.command.getD defaultCommand).file).toList

/-- Runs the program with the words of a command line. -/
def runWords (w : World) (words : List Text) : Outcome :=
  match Args.parse words with
  | .ok a => run w a
  | .error s => s.outcome

end ConventionalCommit.Cli
