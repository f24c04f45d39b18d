import OverlayHost.FileContent

/-!
# A tree of files

Files and the directories that hold them, and what reading a path gives. A path is followed name by name, from the root if
it begins with a slash and else from the working directory; the first name that cannot be followed decides.
-/

set_option autoImplicit false

namespace OverlayHost

/-- A file, or a directory with what it holds by name. -/
inductive FileTree where
  | file (content : List UInt8)
  | directory (entries : List (String × FileTree))

namespace FileTree

/-- A place in a tree: what is there, and the directories around it, the nearest first. -/
structure Place where
  here : FileTree
  around : List FileTree

/-- The most bytes that a name may have. -/
def maxName : Nat := 255

/-- The most bytes that a path may have. -/
def maxPath : Nat := 4095

/-- Goes to the directory around a place; the root is around itself. -/
def Place.up (place : Place) : Place :=
  match place.around with
  | [] => place
  | parent :: around => ⟨parent, around⟩

/-- Follows one name. An empty one, as between two slashes, stays where it is. -/
def Place.enter (place : Place) (name : String) : Except ReadError Place :=
  match place.here with
  | .file _ => .error .notDirectory
  | .directory entries =>
    if name = "" || name = "." then .ok place
    else if name = ".." then .ok place.up
    else if name.utf8ByteSize > maxName then .error .nameTooLong
    else
      match entries.find? fun entry => entry.1 = name with
      | some (_, next) => .ok ⟨next, place.here :: place.around⟩
      | none => .error .notFound

/-- The place that names lead to. -/
def Place.follow (place : Place) (names : List String) : Except ReadError Place :=
  names.foldlM Place.enter place

/-- The place that a path leads to from a working directory. -/
def resolve (root : FileTree) (working : Place) (path : String) : Except ReadError Place :=
  if path.toList.contains '\x00' then .error .nulInPath
  else if path = "" then .error .notFound
  else if path.utf8ByteSize > maxPath then .error .nameTooLong
  else
    let start := if path.toList.head? = some '/' then ⟨root, []⟩ else working
    start.follow (path.splitOn "/")

/-- What reading a path from a working directory gives. -/
def read (root : FileTree) (working : Place) (path : String) : FileContent := do
  match (← resolve root working path).here with
  | .file content => return content
  | .directory _ => throw .isDirectory

end FileTree

end OverlayHost
