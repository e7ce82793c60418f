import ConventionalCommit.Text.Basic

/-!
# ConventionalCommit — command line arguments

The arguments of the program (`Args`) and how they are read from the words of
a command line (`Args.parse`). Words are read from left to right and the first
error counts. An option may stand before or after the name of the command; the
one after it wins. A value is checked only when the next option or positional
word is met, or at the end, so an unknown option after it is reported first.
-/

namespace ConventionalCommit.Cli

/-- What the program is asked to do. -/
inductive Command where
  /-- Check a message, read from a file or from standard input. -/
  | lint (file : Option Text) (json : Bool)
  /-- Fix a message, with some of the fixes switched off. -/
  | fix (file : Option Text) (noInferType noFixCase noFixPeriod noWrap : Bool)
deriving DecidableEq, Repr

/-- The arguments of the program. -/
structure Args where
  /-- The file that holds the settings. -/
  config : Option Text
  /-- The directory in which settings are looked for. -/
  dir : Text
  command : Option Command
deriving DecidableEq, Repr

/-- Why words are not turned into arguments. -/
inductive ArgsStop where
  | displayHelp
  | displayVersion
  /-- A word is no option, or no more words are expected. -/
  | unknownArgument
  /-- A word is no command. -/
  | invalidSubcommand
  /-- A value is missing or empty. -/
  | invalidValue
  /-- A flag is given a value. -/
  | tooManyValues
  /-- An option is given twice. -/
  | argumentConflict
deriving DecidableEq, Repr

/-- The exit status that goes with a stop. -/
def ArgsStop.exit : ArgsStop → Nat
  | displayHelp => 0
  | displayVersion => 0
  | _ => 2

-- ---------------------------------------------------------------------------
-- Options
-- ---------------------------------------------------------------------------

/-- What takes a value. -/
inductive Slot where
  | config
  | dir
  | file
deriving DecidableEq, Repr

/-- What is set or not. -/
inductive Flag where
  | json
  | noInferType
  | noFixCase
  | noFixPeriod
  | noWrap
deriving DecidableEq, Repr

/-- An option. -/
inductive Switch where
  /-- An option with a value. -/
  | slot (s : Slot)
  /-- An option without one. -/
  | flag (f : Flag)
  | help
  | version
deriving DecidableEq, Repr

/-- The part of the command line that a word belongs to. -/
inductive Scope where
  | top
  | lint
  | fix
deriving DecidableEq, Repr

/-- The options of a scope by their long names. -/
def Scope.switches : Scope → List (Text × Switch)
  | top =>
    [("config".toList, .slot .config), ("dir".toList, .slot .dir), ("help".toList, .help),
     ("version".toList, .version)]
  | lint =>
    [("config".toList, .slot .config), ("dir".toList, .slot .dir), ("help".toList, .help),
     ("json".toList, .flag .json)]
  | fix =>
    [("config".toList, .slot .config), ("dir".toList, .slot .dir), ("help".toList, .help),
     ("no-infer-type".toList, .flag .noInferType), ("no-fix-case".toList, .flag .noFixCase),
     ("no-fix-period".toList, .flag .noFixPeriod), ("no-wrap".toList, .flag .noWrap)]

/-- The options of a scope by their single letters. -/
def Scope.letters : Scope → List (Char × Switch)
  | top => [('h', .help), ('V', .version)]
  | _ => [('h', .help)]

-- ---------------------------------------------------------------------------
-- Words
-- ---------------------------------------------------------------------------

/-- What has been read of a scope. A slot that was named last waits for its value,
or has one that is not checked yet. -/
structure Given where
  /-- The values of the slots. -/
  values : List (Slot × Text)
  flags : List Flag
  /-- The slot that was named last. -/
  pending : Option (Slot × Option Text)
deriving DecidableEq, Repr

namespace Given

/-- Nothing read yet. -/
def nothing : Given := ⟨[], [], none⟩

/-- The value of a slot. -/
def value? (g : Given) (s : Slot) : Option Text := g.values.lookup s

/-- Sets a slot, which must not be set yet, to a value, which must not be empty. -/
def setSlot (g : Given) (s : Slot) (value : Text) : Except ArgsStop Given :=
  if (g.value? s).isSome then .error .argumentConflict
  else if value.isEmpty then .error .invalidValue
  else .ok { g with values := (s, value) :: g.values, pending := none }

/-- Checks the value of the slot that was named last. -/
def settle (g : Given) : Except ArgsStop Given :=
  match g.pending with
  | none => .ok g
  | some (_, none) => .error .invalidValue
  | some (s, some value) => g.setSlot s value

/-- Sets a flag, which must not be set yet. -/
def setFlag (g : Given) (f : Flag) : Except ArgsStop Given :=
  if g.flags.contains f then .error .argumentConflict else .ok { g with flags := f :: g.flags }

/-- Takes an option with the value attached to it, if there is one. -/
def takeSwitch (g : Given) : Switch → Option Text → Except ArgsStop Given
  | .slot s, some value => do (← g.settle).setSlot s value
  | .slot s, none => do return { ← g.settle with pending := some (s, none) }
  | _, some _ => .error .tooManyValues
  | .flag f, none => do (← g.settle).setFlag f
  | .help, none => do
    let _ ← g.settle
    throw .displayHelp
  | .version, none => do
    let _ ← g.settle
    throw .displayVersion

end Given

/-- A word as it looks by itself. -/
inductive Word where
  /-- Two hyphens: only positional words follow. -/
  | escape
  /-- The long name of an option, and the value after an equals sign. -/
  | long (name : Text) (value : Option Text)
  /-- A hyphen and the letters of options. -/
  | short (letter : Char)
  /-- Any other word. -/
  | plain
deriving DecidableEq, Repr

/-- How a word looks. A single hyphen is a plain word. -/
def Word.ofText : Text → Word
  | ['-', '-'] => .escape
  | '-' :: '-' :: rest =>
    match rest.dropWhile (· != '=') with
    | [] => .long rest none
    | _ :: value => .long (rest.takeWhile (· != '=')) (some value)
  | '-' :: letter :: _ => .short letter
  | _ => .plain

/-- Takes a word that is an option. The first letter of joined ones decides, as
each of them ends the reading. -/
def takeOption (scope : Scope) (g : Given) : Word → Except ArgsStop Given
  | .long name value =>
    match scope.switches.lookup name with
    | some s => g.takeSwitch s value
    | none => .error .unknownArgument
  | .short letter =>
    match scope.letters.lookup letter with
    | some s => g.takeSwitch s none
    | none => .error .unknownArgument
  | _ => .error .unknownArgument

/-- Takes a positional word of a command: the first one names a file. -/
def takePositional (g : Given) (word : Text) : Except ArgsStop Given :=
  if (g.value? .file).isSome || g.pending.any (·.1 == .file) then .error .unknownArgument
  else do return { ← g.settle with pending := some (.file, some word) }

/-- Reads the words after the name of a command. After two hyphens all words are
positional. -/
def readCommand (scope : Scope) (escaped : Bool) (g : Given) : List Text → Except ArgsStop Given
  | [] => g.settle
  | word :: rest =>
    if escaped then do readCommand scope true (← takePositional g word) rest
    else
      match Word.ofText word with
      | .escape => readCommand scope true g rest
      | .plain =>
        match g.pending with
        | some (s, none) =>
          readCommand scope false { g with pending := some (s, some word) } rest
        | _ => do readCommand scope false (← takePositional g word) rest
      | option => do readCommand scope false (← takeOption scope g option) rest

/-- The names of the commands. -/
def commandNames : List Text := ["lint".toList, "fix".toList, "help".toList]

/-- What the words after `help` ask for: at most one command. -/
def readHelp : List Text → ArgsStop
  | [] => .displayHelp
  | [word] => if commandNames.contains word then .displayHelp else .invalidSubcommand
  | _ => .invalidSubcommand

/-- Why a word cannot follow two hyphens in front of a command. The name of a
command is a word too many there, and any other word is no command. -/
def refuseEscaped (word : Text) : ArgsStop :=
  if commandNames.contains word then .unknownArgument else .invalidSubcommand

/-- The arguments that were read in front of a command, with the command. -/
def topArgs (g : Given) : Args :=
  ⟨g.value? .config, (g.value? .dir).getD ['.'], none⟩

/-- The arguments that were read in front of a command and after it. -/
def commandArgs (top g : Given) (command : Command) : Args where
  config := (g.value? .config).or (top.value? .config)
  dir := ((g.value? .dir).or (top.value? .dir)).getD ['.']
  command := some command

/-- The command `lint` with what was read after it. -/
def lintCommand (g : Given) : Command := .lint (g.value? .file) (g.flags.contains .json)

/-- The command `fix` with what was read after it. -/
def fixCommand (g : Given) : Command :=
  .fix (g.value? .file) (g.flags.contains .noInferType) (g.flags.contains .noFixCase)
    (g.flags.contains .noFixPeriod) (g.flags.contains .noWrap)

/-- Reads the words in front of a command, and the command. No word may follow two
hyphens. -/
def readTop (escaped : Bool) (g : Given) : List Text → Except ArgsStop Args
  | [] => do return topArgs (← g.settle)
  | word :: rest =>
    if escaped then .error (refuseEscaped word)
    else
      match Word.ofText word with
      | .escape => readTop true g rest
      | .plain =>
        match g.pending with
        | some (s, none) => readTop false { g with pending := some (s, some word) } rest
        | _ =>
          if word = "lint".toList then do
            let after ← readCommand .lint false .nothing rest
            return commandArgs (← g.settle) after (lintCommand after)
          else if word = "fix".toList then do
            let after ← readCommand .fix false .nothing rest
            return commandArgs (← g.settle) after (fixCommand after)
          else if word = "help".toList then .error (readHelp rest)
          else .error .invalidSubcommand
      | option => do readTop false (← takeOption .top g option) rest

/-- Reads the words of a command line. -/
def Args.parse (words : List Text) : Except ArgsStop Args := readTop false .nothing words

end ConventionalCommit.Cli
