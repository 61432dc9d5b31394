import Asm6510.Fault
import Asm6510.Source.Library

/-! File systems as values: what can be read under a path, and what writing to one changes. -/

namespace Asm6510.Command

open Source (Library Path)

/-- What stands at a place. -/
inductive Entry where
  | directory
  | file (contents : List UInt8)
  /-- A device that is always empty and takes all that is written to it. -/
  | sink
  /-- A device that can be opened, but has no room for a single byte. -/
  | full
deriving DecidableEq, Repr

namespace Entry

/-- The text of an entry; a file that is not in UTF-8 has none. -/
def text? : Entry → Option String
  | file contents => String.fromUTF8? ⟨contents.toArray⟩
  | sink => some ""
  | directory | full => none

end Entry

/-- The names from the root down to a place. -/
abbrev Place := List String

/-- The entries below the root, and the directory that relative paths start from. -/
structure FileSystem where
  entries : List (Place × Entry) := []
  current : Place := []
deriving DecidableEq, Repr

namespace FileSystem

/-- What stands at a place; the root is a directory. -/
def entry? (files : FileSystem) (place : Place) : Option Entry :=
  if place.isEmpty then some .directory
  else (files.entries.find? fun item => item.1 == place).map (·.2)

/-- The most bytes of a name. -/
def nameLimit : Nat :=
  255

/-- The most bytes of a path. -/
def pathLimit : Nat :=
  4095

/-- The place that one step of a path leads to. A step starts from a directory, but need not
lead to anything that is there.
-/
def follow (files : FileSystem) (place : Place) (step : String) : Option Place :=
  if files.entry? place ≠ some .directory then none
  else if step == "" || step == "." then some place
  else if step == ".." then some place.dropLast
  else if step.utf8ByteSize ≤ nameLimit then some (place ++ [step])
  else none

/-- The place of a path. -/
def place? (files : FileSystem) (path : Path) : Option Place :=
  let start := if path.isRooted then [] else files.current
  let steps := (Path.pieces path.text.toList).map String.ofList
  if path.text == "" || pathLimit < path.text.utf8ByteSize then none
  else steps.foldlM files.follow start

/-- The text of the file under a path. -/
def load? (files : FileSystem) (path : Path) : Option String := do
  let place ← files.place? path
  let entry ← files.entry? place
  entry.text?

/-- The texts of a file system, as sources. -/
def library (files : FileSystem) : Library where
  load := files.load?
  texts := files.entries.filterMap fun item => item.2.text?
  mem_texts := by
    intro path text found
    simp only [load?, Option.bind_eq_bind, Option.bind_eq_some_iff] at found
    obtain ⟨place, _, entry, hit, read⟩ := found
    unfold entry? at hit
    split at hit
    · cases hit
      cases read
    · obtain ⟨item, there, rfl⟩ := Option.map_eq_some_iff.mp hit
      exact List.mem_filterMap.mpr ⟨item, List.mem_of_find?_eq_some there, read⟩

/-- Puts an entry at a place, over what was there. -/
def put (files : FileSystem) (place : Place) (entry : Entry) : FileSystem :=
  { files with
    entries := files.entries.filter (fun item => item.1 != place) ++ [(place, entry)] }

/-- Writes a file. The directory must be there, and what is written over must not be one. -/
def write (files : FileSystem) (path : Path) (contents : List UInt8)
    : Except Cause FileSystem :=
  match files.place? path with
  | none => .error (.fileCreate path.text)
  | some place =>
      match files.entry? place with
      | some .directory => .error (.fileCreate path.text)
      | some .sink => .ok files
      | some .full =>
          if contents.isEmpty then .ok files else .error (.fileWrite path.text)
      | some (.file _) | none => .ok (files.put place (.file contents))

/-- Adds an entry below the current directory, with the directories on the way to it. -/
def add (files : FileSystem) (path : Path) (entry : Entry) : FileSystem :=
  let place := files.current ++ path.components
  let ancestors := (List.range path.components.length).map fun count =>
    files.current ++ path.components.take count
  let grown := ancestors.foldl (fun grown ancestor =>
    if (grown.entry? ancestor).isSome then grown else grown.put ancestor .directory) files
  grown.put place entry

/-- The files below the current directory that are new or have other contents than before,
ordered by their paths.
-/
def changesSince (files before : FileSystem) : List (Path × List UInt8) :=
  let changed := files.entries.filterMap fun item =>
    match item.2 with
    | .file contents =>
        if files.current.isPrefixOf item.1 && before.entry? item.1 != some item.2 then
          some (Path.ofComponents false (item.1.drop files.current.length), contents)
        else
          none
    | _ => none
  changed.mergeSort fun left right => decide (left.1.text ≤ right.1.text)

end FileSystem

end Asm6510.Command
