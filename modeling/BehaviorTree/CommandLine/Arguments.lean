/-
# BehaviorTree.CommandLine.Arguments — what the user asks for

The command line names one of two commands. Options stand anywhere behind the command that they belong
to; a value follows its option as the next word, unless that looks like an option itself, or behind an
equals sign. A bare `--` ends the options. No option may be given twice, and a word that has no meaning
is an error.

The words are read from left to right, and the first one that settles the matter does so: an error, or
the wish for help or for the version.
-/
import BehaviorTree.Numeric.Text

namespace BehaviorTree.CommandLine

open BehaviorTree.Numeric (readSingle? readNatural?)

/-- What `simulate` is to do. -/
structure SimulateOptions where
  behavior : String
  scenario : String
  frames : UInt64 := 600
  /-- The length of a frame in seconds. -/
  dt : Float32 := 1 / 60
  seed : Option UInt64 := none

/-- What the user asks for. -/
inductive Command where
  | check (files : List String)
  | simulate (options : SimulateOptions)
  | version
  | help

/-! ## § Words -/

/-- A word of the command line. -/
inductive Word where
  /-- A long option, perhaps with a value behind an equals sign. -/
  | long (name : String) (value : Option String)
  /-- Short options, of one letter each. -/
  | short (letters : List Char)
  /-- The end of the options. -/
  | endOfOptions
  | plain (text : String)

/-- What stands before the first equals sign, and what stands behind it. -/
def splitValue (cs : List Char) : String × Option String :=
  let name := cs.takeWhile (· != '=')
  (String.ofList name, match cs.dropWhile (· != '=') with
    | [] => none
    | _ :: value => some (String.ofList value))

/-- The kind of a word. A single dash is a plain word. -/
def Word.ofText (text : String) : Word :=
  match text.toList with
  | ['-', '-'] => .endOfOptions
  | '-' :: '-' :: rest =>
    let (name, value) := splitValue rest
    .long name value
  | '-' :: c :: rest => .short (c :: rest)
  | _ => .plain text

/-! ## § Options without values -/

/-- What an option without a value does, if there is one of that name: it may end the reading, or it is
to be recorded. -/
inductive Flag where
  | verbose
  | settle (command : Command)

/-- The long options that stand before a command. -/
def topLong : String → Option Flag
  | "verbose" => some .verbose
  | "help" => some (.settle .help)
  | "version" => some (.settle .version)
  | _ => none

/-- The short options that stand before a command. -/
def topShort : Char → Option Flag
  | 'v' => some .verbose
  | 'h' => some (.settle .help)
  | 'V' => some (.settle .version)
  | _ => none

/-- The long options of every command. -/
def commonLong : String → Option Flag
  | "verbose" => some .verbose
  | "help" => some (.settle .help)
  | _ => none

/-- The short options of every command. -/
def commonShort : Char → Option Flag
  | 'v' => some .verbose
  | 'h' => some (.settle .help)
  | _ => none

/-- What came of a word with options that have no values. -/
inductive FlagResult where
  | refused
  | settled (command : Command)
  /-- Whether the output is to be verbose, from now on. -/
  | goOn (verbose : Bool)

/-- Takes one option without a value. -/
def takeFlag (verbose : Bool) : Option Flag → FlagResult
  | none => .refused
  | some (.settle command) => .settled command
  | some .verbose => if verbose then .refused else .goOn true

/-- Takes short options, one letter after the other. -/
def takeShort (meaning : Char → Option Flag) (verbose : Bool) : List Char → FlagResult
  | [] => .goOn verbose
  | c :: rest =>
    match takeFlag verbose (meaning c) with
    | .goOn verbose => takeShort meaning verbose rest
    | result => result

/-! ## § Commands -/

/-- Reads the files to check. -/
def readCheck (plain verbose : Bool) (files : List String) : List String → Option Command
  | [] => if files.isEmpty then none else some (.check files.reverse)
  | text :: rest =>
    match if plain then .plain text else Word.ofText text with
    | .plain file => if file.isEmpty then none else readCheck plain verbose (file :: files) rest
    | .endOfOptions => readCheck true verbose files rest
    | .long name value =>
      match takeFlag verbose (if value.isNone then commonLong name else none) with
      | .refused => none
      | .settled command => some command
      | .goOn verbose => readCheck plain verbose files rest
    | .short letters =>
      match takeShort commonShort verbose letters with
      | .refused => none
      | .settled command => some command
      | .goOn verbose => readCheck plain verbose files rest

/-- What has been read of a simulation so far. -/
structure SimulateWords where
  behavior : Option String := none
  scenario : Option String := none
  frames : Option UInt64 := none
  dt : Option Float32 := none
  seed : Option UInt64 := none

/-- Puts a value where none was yet. -/
def setOnce {α : Type} (old new : Option α) : Option (Option α) :=
  if old.isSome || new.isNone then none else some new

/-- Takes an option with its value. -/
def SimulateWords.set (w : SimulateWords) (name value : String) : Option SimulateWords :=
  match name with
  | "scenario" =>
    (setOnce w.scenario (if value.isEmpty then none else some value)).map fun scenario =>
      { w with scenario }
  | "frames" => (setOnce w.frames (readNatural? value)).map fun frames => { w with frames }
  | "dt" => (setOnce w.dt (readSingle? value)).map fun dt => { w with dt }
  | "seed" => (setOnce w.seed (readNatural? value)).map fun seed => { w with seed }
  | _ => none

/-- The options of a simulation that have values. -/
def valueOptions : List String :=
  ["scenario", "frames", "dt", "seed"]

/-- The simulation that the words ask for. -/
def SimulateWords.command (w : SimulateWords) : Option Command := do
  let behavior ← w.behavior
  let scenario ← w.scenario
  let usual : SimulateOptions := { behavior, scenario }
  return .simulate { usual with
    frames := w.frames.getD usual.frames, dt := w.dt.getD usual.dt, seed := w.seed }

/-- Whether the next word can be the value of an option. -/
def isValue (text : String) : Bool :=
  match Word.ofText text with
  | .plain _ => true
  | _ => false

/-- Reads what is to be simulated. -/
def readSimulate (plain verbose : Bool) (w : SimulateWords) : List String → Option Command
  | [] => w.command
  | text :: rest =>
    match if plain then .plain text else Word.ofText text with
    | .plain file =>
      if file.isEmpty || w.behavior.isSome then none
      else readSimulate plain verbose { w with behavior := some file } rest
    | .endOfOptions => readSimulate true verbose w rest
    | .long name value =>
      if valueOptions.contains name then
        match value, rest with
        | some value, rest =>
          match w.set name value with
          | none => none
          | some w => readSimulate plain verbose w rest
        | none, value :: rest =>
          match if isValue value then w.set name value else none with
          | none => none
          | some w => readSimulate plain verbose w rest
        | none, [] => none
      else
        match takeFlag verbose (if value.isNone then commonLong name else none) with
        | .refused => none
        | .settled command => some command
        | .goOn verbose => readSimulate plain verbose w rest
    | .short letters =>
      match takeShort commonShort verbose letters with
      | .refused => none
      | .settled command => some command
      | .goOn verbose => readSimulate plain verbose w rest

/-- The names behind which `help` can be asked for. -/
def helpTopics : List (List String) :=
  [[], ["check"], ["simulate"], ["help"]]

/-- Reads what stands before the command, and then the command. -/
def readTop (verbose : Bool) : List String → Option Command
  | [] => none
  | text :: rest =>
    match Word.ofText text with
    | .plain "check" => readCheck false false [] rest
    | .plain "simulate" => readSimulate false false {} rest
    | .plain "help" => if helpTopics.contains rest then some .help else none
    | .plain _ | .endOfOptions => none
    | .long name value =>
      match takeFlag verbose (if value.isNone then topLong name else none) with
      | .refused => none
      | .settled command => some command
      | .goOn verbose => readTop verbose rest
    | .short letters =>
      match takeShort topShort verbose letters with
      | .refused => none
      | .settled command => some command
      | .goOn verbose => readTop verbose rest

/-- **`Command.ofArguments?`** — what the words of the command line ask for; nothing if they make no
sense. -/
def Command.ofArguments? (arguments : List String) : Option Command :=
  readTop false arguments

end BehaviorTree.CommandLine
