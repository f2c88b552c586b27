/-!
# Paths

Paths are texts. Their parts are separated by slashes; empty parts and dots do not count. A path
that begins with a slash is absolute.
-/

namespace CInterop.Path

/-- The parts of a path, without those that do not count. A path that is not absolute may begin with
a dot, which counts. -/
def parts (path : String) : List String :=
  let all := (path.toList.splitOn '/').map String.ofList
  match all with
  | [] => []
  | first :: rest =>
    let counted := rest.filter fun part => !part.isEmpty && part != "."
    if first.isEmpty then counted else first :: counted

/-- Whether a path is absolute. -/
def isAbsolute (path : String) : Bool := path.toList.head? == some '/'

/-- A path below a directory; an absolute path stands for itself. -/
def join (directory path : String) : String :=
  if isAbsolute path || directory.isEmpty then path
  else if directory.toList.getLast? == some '/' then directory ++ path
  else directory ++ "/" ++ path

/-- Drops parts that do not count from the end of a reversed path. -/
def dropTrailing : List Char → List Char
  | '/' :: rest => if rest.isEmpty then ['/'] else dropTrailing rest
  | '.' :: '/' :: rest => if rest.isEmpty then ['/'] else dropTrailing rest
  | path => path

/-- A path without slashes at its end. -/
def trimmed (path : String) : String :=
  String.ofList (path.toList.reverse.dropWhile (· == '/')).reverse

/-- The path without its last part; nothing if there is no part. -/
def parent (path : String) : Option String :=
  if (parts path).isEmpty then none
  else
    let last := (dropTrailing path.toList.reverse).dropWhile (· != '/')
    some (String.ofList (dropTrailing last).reverse)

/-- Whether two paths have the same parts. -/
def same (a b : String) : Bool := isAbsolute a == isAbsolute b && parts a == parts b

/-- The directories of a list that is separated by colons. -/
def splitList (text : String) : List String := (text.toList.splitOn ':').map String.ofList

end CInterop.Path
