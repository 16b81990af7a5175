/-
# BehaviorTree.File.Folder — files that are given as texts

A folder holds texts under their names and no other folders. It answers a request for a path in the
way in which a file system does, so that the program can be run on it without one: the path is walked
part by part, and the first part that leads nowhere decides the complaint. Of the folders around it
nothing is known but that they are there.
-/
import BehaviorTree.File.Basic

namespace BehaviorTree

/-- Texts by their names. -/
abbrev Folder := List (String × String)

namespace Folder

/-- The most bytes that one name may have. -/
def nameLimit : Nat := 255

/-- The most bytes that a whole path may have. -/
def pathLimit : Nat := 4095

/-- Where the walk along a path stands. -/
inductive Place where
  /-- At the folder itself. -/
  | inside
  /-- At a folder around it. -/
  | outside
  /-- At a file with this text. -/
  | file (contents : String)
  deriving DecidableEq

/-- Where a path starts: at the folder, or at the root of all folders. -/
def start (path : String) : Place :=
  if path.startsWith "/" then .outside else .inside

/-- The place behind a name, which is looked up in the folder alone. -/
def enter (folder : Folder) (place : Place) (name : String) : Except ReadError Place :=
  if nameLimit < name.utf8ByteSize then .error .nameTooLong
  else
    match place, folder.lookup name with
    | .inside, some contents => .ok (.file contents)
    | _, _ => .error .notFound

/-- One part of a path further. An empty part and a dot stay where they are, two dots lead out, and
behind a file there is nothing, not even the file. -/
def step (folder : Folder) (place : Place) (part : String) : Except ReadError Place :=
  match place with
  | .file _ => .error .notDirectory
  | _ =>
    if part = "" || part = "." then .ok place
    else if part = ".." then .ok .outside
    else folder.enter place part

/-- **`Folder.read`** — the text at a path, seen from inside the folder. -/
def read (folder : Folder) (path : String) : Except ReadError String :=
  if path.isEmpty then .error .notFound
  else if pathLimit < path.utf8ByteSize then .error .nameTooLong
  else
    match (path.splitOn "/").foldlM (step folder) (start path) with
    | .error complaint => .error complaint
    | .ok (.file contents) => .ok contents
    | .ok _ => .error .isDirectory

end Folder

end BehaviorTree
