import Asm6510.Text.Measure

/-! Places in source text. -/

namespace Asm6510.Source

/-- A place in a source file. Lines and columns count from zero, columns in bytes. -/
structure Position where
  file : String
  line : Nat
  col : Nat
deriving DecidableEq, Repr, Inhabited

namespace Position

/-- The place as it is shown, counted from one. -/
def display (pos : Position) : String :=
  pos.file ++ ":" ++ Text.decimal (pos.line + 1) ++ ":" ++ Text.decimal (pos.col + 1)

end Position

end Asm6510.Source
