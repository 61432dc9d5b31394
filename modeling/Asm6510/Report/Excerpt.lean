import Asm6510.Source.Sources
import Asm6510.Text.Ink

/-! A place in the source, shown with its line. -/

namespace Asm6510.Report

open Source (Position Sources)
open Text

/-- The bar between line numbers and source text. -/
def bar : String :=
  "      " ++ Ink.blue.paint "|"

/-- A place, the line it is on, and a last line under that one. -/
def excerpt (sources : Sources) (pos : Position) (underneath : String) : String :=
  "     " ++ Ink.blue.paint "-->" ++ " " ++ underlined pos.display ++ "\n"
    ++ bar ++ "\n"
    ++ " " ++ Ink.blue.paint (padLeft 4 (decimal (pos.line + 1)) ++ " |") ++ " "
    ++ sources.lineAt pos ++ "\n"
    ++ bar ++ underneath ++ "\n"

end Asm6510.Report
