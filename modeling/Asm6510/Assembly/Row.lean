import Asm6510.Source.Position

/-! The rows of a listing. -/

namespace Asm6510.Assembly

/-- What one statement emitted: its bytes and their address, the statement with its operand
resolved, and the reference that the operand was resolved from.
-/
structure Row where
  address : UInt16
  bytes : List UInt8
  text : String
  reference? : Option String
  pos : Source.Position
deriving DecidableEq, Repr

end Asm6510.Assembly
