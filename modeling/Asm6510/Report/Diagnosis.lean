import Asm6510.Fault
import Asm6510.Report.Excerpt

/-! Faults as they are shown to the user. -/

namespace Asm6510.Report

open Source (Sources)
open Text

/-- What went wrong, and the line it happened on with a caret under the column. -/
def diagnosis (fault : Fault) (sources : Sources) : String :=
  Ink.red.strong "error" ++ ": " ++ fault.cause.message ++ "\n"
    ++ match fault.pos? with
      | none => ""
      | some pos => excerpt sources pos (" " ++ blanks pos.col ++ Ink.red.strong "^")

end Asm6510.Report
