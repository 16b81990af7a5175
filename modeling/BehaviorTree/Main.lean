/-
# BehaviorTree.Main — the program

Reads files, prints what `CommandLine.run` says, and ends with its code.
-/
import BehaviorTree.CommandLine.Run

namespace BehaviorTree.CommandLine

/-- Reads a file as text. -/
def readFile (file : String) : IO (Except ReadError String) := do
  try
    return textOfBytes (← IO.FS.readBinFile file)
  catch
    | .inappropriateType _ 21 _ => return .error .isDirectory
    | .inappropriateType .. => return .error .notDirectory
    | .invalidArgument .. => return .error .nameTooLong
    | _ => return .error .notFound

end BehaviorTree.CommandLine

/-- The program. -/
def main (arguments : List String) : IO UInt32 := do
  let outcome ← BehaviorTree.CommandLine.run BehaviorTree.CommandLine.readFile arguments
  IO.print outcome.stdout
  IO.eprint outcome.stderr
  return outcome.code.toUInt32
