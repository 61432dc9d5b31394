import Asm6510.Source.Position
import Asm6510.Text.Lines

/-! The lines of the files read during a run, kept to show the place of a fault. -/

namespace Asm6510.Source

/-- Lines by file name, in the order in which the files were first read. -/
structure Sources where
  files : List (String × List String) := []
deriving DecidableEq, Repr, Inhabited

namespace Sources

/-- Nothing read yet. -/
def empty : Sources :=
  {}

/-- Records the lines of a file. A file read again keeps its rank and gets the new lines. -/
def insert (sources : Sources) (file : String) (lines : List String) : Sources :=
  if sources.files.any fun entry => entry.1 == file then
    ⟨sources.files.map fun entry => if entry.1 == file then (file, lines) else entry⟩
  else
    ⟨sources.files ++ [(file, lines)]⟩

/-- Records a source text. -/
def record (sources : Sources) (file code : String) : Sources :=
  sources.insert file (Text.linesOf code)

/-- The lines of a file. -/
def lines? (sources : Sources) (file : String) : Option (List String) :=
  sources.files.lookup file

/-- The number of files. -/
def size (sources : Sources) : Nat :=
  sources.files.length

/-- The line of a place, empty where nothing was read. -/
def lineAt (sources : Sources) (pos : Position) : String :=
  ((sources.lines? pos.file).bind fun lines => lines[pos.line]?).getD ""

end Sources

end Asm6510.Source
