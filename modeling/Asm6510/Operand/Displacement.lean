import Asm6510.Fault

/-! Branch targets as the signed byte that the processor adds to its program counter. -/

namespace Asm6510.Operand

/-- The distance from the byte after a branch at `here` to its target. -/
def distance (here target : UInt16) : Int :=
  (target.toNat : Int) - (here.toNat + 2)

/-- The displacement byte of a branch at `here`; a target out of reach has none. -/
def displacement (here target : UInt16) : Except Cause UInt8 :=
  let offset := distance here target
  if -128 ≤ offset && offset ≤ 127 then .ok (UInt8.ofInt offset)
  else .error (.relativeOffsetOutOfRange offset)

end Asm6510.Operand
