/-
# BehaviorTree.File.Basic — texts from files

Documents are texts in files. A file may be missing, it may be a folder, its name may be longer than
names can be, and its bytes may be no text.
-/

namespace BehaviorTree

/-- Why a file cannot be read. -/
inductive ReadError where
  | notFound
  | isDirectory
  | notDirectory
  /-- A name on the way, or the whole path, has too many bytes. -/
  | nameTooLong
  /-- The bytes are no text. -/
  | notText
  deriving DecidableEq

/-- The wording of a complaint about a file. -/
def ReadError.message : ReadError → String
  | .notFound => "No such file or directory (os error 2)"
  | .isDirectory => "Is a directory (os error 21)"
  | .notDirectory => "Not a directory (os error 20)"
  | .nameTooLong => "File name too long (os error 36)"
  | .notText => "stream did not contain valid UTF-8"

/-- The text of a file's bytes. -/
def textOfBytes (bytes : ByteArray) : Except ReadError String :=
  match String.fromUTF8? bytes with
  | some text => .ok text
  | none => .error .notText

end BehaviorTree
