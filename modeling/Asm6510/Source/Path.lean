import Asm6510.Text.Lines

/-! File paths. Two spellings of a path are the same when they have the same components. -/

namespace Asm6510.Source

/-- A path as it is written. -/
structure Path where
  text : String
deriving DecidableEq, Repr, Inhabited

namespace Path

/-- A text cut at its slashes. -/
def pieces : List Char → List (List Char)
  | [] => [[]]
  | '/' :: rest => [] :: pieces rest
  | c :: rest => Text.consLine c (pieces rest)

/-- Whether a path starts at the root. -/
def isRooted (path : Path) : Bool :=
  path.text.toList.head? == some '/'

/-- The components of a path. Repeated and final slashes leave none, nor does a `.` that is not
at the start.
-/
def components (path : Path) : List String :=
  match (pieces path.text.toList).map String.ofList with
  | [] => []
  | first :: rest =>
      (if first == "" then [] else [first]) ++ rest.filter fun piece => piece != "" && piece != "."

/-- Whether two paths are the same. -/
def same (path other : Path) : Bool :=
  path.isRooted == other.isRooted && path.components == other.components

/-- The path with these components. -/
def ofComponents (rooted : Bool) (components : List String) : Path :=
  ⟨(if rooted then "/" else "") ++ String.intercalate "/" components⟩

/-- A path seen from a directory: itself if it starts at the root, and otherwise below the
directory.
-/
def join (directory path : Path) : Path :=
  if path.isRooted then path
  else if directory.text == "" || directory.text.toList.getLast? == some '/' then
    ⟨directory.text ++ path.text⟩
  else
    ⟨directory.text ++ "/" ++ path.text⟩

/-- A text read backwards, without the slashes and `.` components it starts with. -/
def dropTail : List Char → List Char
  | '/' :: rest => dropTail rest
  | '.' :: '/' :: rest => dropTail rest
  | cs => cs

/-- The text before the last component, read backwards. It keeps its spelling, since a long
spelling of a short path can be longer than a file system takes.
-/
def beforeLast (path : Path) (last : String) : List Char :=
  (dropTail path.text.toList.reverse).drop last.length

/-- The path without its last component, and without the slashes that divided the two. The root
and the empty path have no parent.
-/
def parent? (path : Path) : Option Path :=
  path.components.getLast?.map fun last =>
    match dropTail (path.beforeLast last) with
    | [] => ⟨if path.isRooted then "/" else ""⟩
    | front => ⟨String.ofList front.reverse⟩

/-- The last component, if it is a name and not a step to a directory. -/
def fileName? (path : Path) : Option String :=
  path.components.getLast?.filter fun name => name != "." && name != ".."

/-- A name cut at its last dot into stem and extension. A name without a dot, or with one at
its start only, has no extension.
-/
def splitExtension (name : String) : String × Option String :=
  let backwards := name.toList.reverse
  match backwards.dropWhile (· != '.') with
  | [] | ['.'] => (name, none)
  | _ :: stem =>
      (String.ofList stem.reverse,
        some (String.ofList (backwards.takeWhile (· != '.')).reverse))

/-- The path with another extension. A path that ends in no name is left alone, and a name whose
stem is one dot loses its extension and ends in no name.
-/
def withExtension (path : Path) (extension : String) : Path :=
  match path.fileName? with
  | none => path
  | some name =>
      let directory := String.ofList (path.beforeLast name).reverse
      match splitExtension name with
      | (".", some _) => ⟨directory ++ ".."⟩
      | (stem, _) => ⟨directory ++ stem ++ "." ++ extension⟩

end Path

end Asm6510.Source
