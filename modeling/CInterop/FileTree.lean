import CInterop.Memory
import CInterop.Path

/-!
# File trees

The files that can be found, by the parts of their absolute paths. The directories on the way to a
file exist too.
-/

namespace CInterop

/-- What a path stands for. -/
inductive FileNode where
  | directory
  | file (contents : Bytes)
  /-- A file that can be loaded as a library. -/
  | library
  deriving DecidableEq, Repr

/-- Files by the parts of their paths. -/
structure FileTree where
  nodes : List (List String × FileNode)

/-- What is found for a path. -/
inductive Found where
  | node (node : FileNode)
  | missing
  /-- Something on the way is no directory. -/
  | blocked
  /-- The path, or a name in it, is one that no file can have. -/
  | refused
  deriving DecidableEq, Repr

namespace FileTree

/-- The tree without files. -/
def empty : FileTree := ⟨[]⟩

/-- What the parts of a path stand for. -/
def node? (tree : FileTree) (place : List String) : Option FileNode :=
  match tree.nodes.lookup place with
  | some node => some node
  | none =>
    if place.isEmpty || tree.nodes.any fun (other, _) => place.isPrefixOf other then
      some .directory
    else none

/-- How many bytes a name in a directory may have. -/
def longestName : Nat := 255

/-- How many bytes a path may have. -/
def longestPath : Nat := 4095

/-- Follows the parts of a path from a place on. Two dots lead back, also to a directory that a
later part is looked up in. A name is refused only by a directory that is there. -/
def follow (tree : FileTree) (place : List String) : List String → Found
  | [] => match tree.node? place with
    | some node => .node node
    | none => .missing
  | part :: rest =>
    match tree.node? place with
    | none => .missing
    | some .directory =>
      if part == ".." then follow tree place.dropLast rest
      else if part == "." then follow tree place rest
      else if longestName < part.utf8ByteSize then .refused
      else follow tree (place ++ [part]) rest
    | some _ => .blocked

/-- What a path stands for, where `base` is the directory that relative paths begin in. -/
def find (tree : FileTree) (base path : String) : Found :=
  if path.isEmpty then .missing
  else if longestPath < path.utf8ByteSize || path.toList.contains '\x00' then .refused
  else
    let start := if Path.isAbsolute path then [] else Path.parts base
    let slash := match path.toList.reverse with
      | '/' :: _ | '.' :: '/' :: _ => true
      | _ => false
    match tree.follow start (Path.parts path) with
    | .node .directory => .node .directory
    | .node node => if slash then .blocked else .node node
    | found => found

/-- Whether a path stands for something. -/
def exists? (tree : FileTree) (base path : String) : Bool :=
  match tree.find base path with
  | .node _ => true
  | _ => false

/-- Whether a path stands for a file. -/
def isFile (tree : FileTree) (base path : String) : Bool :=
  match tree.find base path with
  | .node .directory => false
  | .node _ => true
  | _ => false

end FileTree

end CInterop
