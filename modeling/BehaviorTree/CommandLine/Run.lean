/-
# BehaviorTree.CommandLine.Run — what the program does

`check` loads tree documents and says how large they are; `simulate` runs one agent through a scenario
and prints a summary. The outcome is what is written and the exit code. Files are read by a function
that the caller brings along, in the order in which they are needed.
-/
import BehaviorTree.CommandLine.Arguments
import BehaviorTree.Scenario.Coded
import BehaviorTree.Simulation
import BehaviorTree.Tree.Document

namespace BehaviorTree.CommandLine

open BehaviorTree.Numeric (Spelling twoPlaces)

/-- What a run of the program leaves behind. -/
structure Outcome where
  code : Nat
  stdout : String := ""
  stderr : String := ""
  deriving DecidableEq

/-- A text with a line feed behind every line. -/
def lines (texts : List String) : String :=
  String.join (texts.map (· ++ "\n"))

/-! ## § Failures -/

/-- One of the causes of a failure. All its lines are indented, and if there are several causes it has
a number. -/
def causeText (number : Option Nat) (cause : String) : String :=
  let (first, others) := match number with
    | none => ("    ", "    ")
    | some n => ("    " ++ toString n ++ ": ", "       ")
  first ++ ("\n" ++ others).intercalate (cause.splitOn "\n")

/-- A failure with what is behind it, from the outside in. -/
def failureText : List String → String
  | [] => ""
  | [outer] => lines ["Error: " ++ outer]
  | [outer, cause] => lines ["Error: " ++ outer, "", "Caused by:", causeText none cause]
  | outer :: causes =>
    lines (["Error: " ++ outer, "", "Caused by:"] ++
      causes.mapIdx fun i cause => causeText (some i) cause)

/-- A run that ends in a failure, after some lines were written. -/
def Outcome.failed (written : List String) (chain : List String) : Outcome where
  code := 1
  stdout := lines written
  stderr := failureText chain

/-! ## § Commands -/

/-- The tree of a file. -/
def loadTree (read : Except ReadError String) :
    Except LoadError (Node (Action Empty) Condition) :=
  Node.ofRead .builtIn read

/-- The wordings of a failure to load a tree. -/
def treeFailure (file : String) (e : LoadError) : List String :=
  ("failed to load behavior " ++ file) :: e.chain

variable {m : Type → Type} [Monad m]

/-- Checks files, one after the other, until one of them is no tree; `written` are the lines for those
before, last one first. -/
def check (read : String → m (Except ReadError String)) (written : List String) :
    List String → m Outcome
  | [] => return { code := 0, stdout := lines written.reverse }
  | file :: rest => do
    match loadTree (← read file) with
    | .error e => return .failed written.reverse (treeFailure file e)
    | .ok root =>
      check read ((file ++ ": ok (" ++ toString root.count ++ " nodes)") :: written) rest

/-- The lines about a simulation that has come to its end. -/
def summaryLines {α κ : Type} (dt : Float32) (sim : Simulation α κ) : List String :=
  let m := sim.summary
  let seconds := twoPlaces (Float32.ofNat m.frames * dt)
  ["Simulation summary", "==================", "",
    "Frames: " ++ toString m.frames ++ " (" ++ seconds ++ "s)",
    "Root status: " ++ toString m.running ++ " running, " ++ toString m.success ++ " success, " ++
      toString m.failure ++ " failure"] ++
  (m.finalStatus.map fun status => "Final status: " ++ status.text).toList ++
  (m.finalCell.map fun cell =>
    "Final cell: " ++ cell.text ++ " (moved " ++ toString m.cellsMoved ++ " times)").toList ++
  ["Frames with player in sight: " ++ toString m.framesSeeingPlayer,
    "Sensor samples: " ++ toString sim.controller.sampling.samples, "", "Recent decisions:"] ++
  (sim.situation.board.lastNotes 5).map ("  " ++ ·)

/-- Runs a tree in a scenario. -/
def simulateLoaded (o : SimulateOptions) (root : Node (Action Empty) Condition)
    (scenario : Scenario) : Outcome :=
  match Simulation.create scenario root (o.seed.getD scenario.seed) with
  | .error e => .failed [] e.chain
  | .ok sim =>
    match sim.run (.builtIn .none) o.dt o.frames.toNat with
    | .error fault => .failed [] [fault.message]
    | .ok sim => { code := 0, stdout := lines (summaryLines o.dt sim) }

/-- Runs one agent through a scenario. The length of a frame is checked first, then the tree is read,
then the scenario. -/
def simulate (read : String → m (Except ReadError String)) (o : SimulateOptions) : m Outcome := do
  if !(o.dt.isFinite && 0 < o.dt) then
    return .failed [] ["--dt must be a positive number of seconds, got " ++ Spelling.message.single o.dt]
  match loadTree (← read o.behavior) with
  | .error e => return .failed [] (treeFailure o.behavior e)
  | .ok root =>
    match Scenario.ofRead (← read o.scenario) with
    | .error e => return .failed [] (e.chain o.scenario)
    | .ok scenario => return simulateLoaded o root scenario

/-- How the program is used. -/
def usage : String :=
  lines ["Usage: sentinel [OPTIONS] <COMMAND>", "",
    "Commands:",
    "  check <FILES>...                         load behavior files and report their size",
    "  simulate <BEHAVIOR> --scenario <FILE>    run one agent through a scenario", "",
    "Options:",
    "  -v, --verbose    accepted everywhere",
    "  -h, --help       print this text",
    "  -V, --version    print the version", "",
    "Options of simulate:",
    "  --frames <N>     how many frames (600)",
    "  --dt <SECONDS>   the length of a frame (1/60)",
    "  --seed <N>       the seed, instead of the scenario's"]

/-- **`run`** — the whole program. -/
def run (read : String → m (Except ReadError String)) (arguments : List String) : m Outcome :=
  match Command.ofArguments? arguments with
  | none => return { code := 2, stderr := usage }
  | some .help => return { code := 0, stdout := usage }
  | some .version => return { code := 0, stdout := lines ["sentinel 0.1.0"] }
  | some (.check files) => check read [] files
  | some (.simulate o) => simulate read o

end BehaviorTree.CommandLine
