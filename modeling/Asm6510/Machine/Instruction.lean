import Asm6510.Machine.Mode

/-! An instruction: its mnemonic, what it does, and the opcode of each mode it can be used in. -/

namespace Asm6510.Machine

/-- An instruction with the modes bound to it, in the order of their binding. -/
structure Instruction where
  mnemonic : String
  description : String
  modes : List (Mode × UInt8)
deriving DecidableEq, Repr

namespace Instruction

/-- An instruction that no mode is bound to yet. -/
def unbound (mnemonic description : String) : Instruction :=
  ⟨mnemonic, description, []⟩

/-- The opcode of the instruction in a mode. -/
def opcode? (instruction : Instruction) (mode : Mode) : Option UInt8 :=
  instruction.modes.lookup mode

/-- Whether the instruction can be used in a mode. -/
def supports (instruction : Instruction) (mode : Mode) : Bool :=
  (instruction.opcode? mode).isSome

/-- An implied instruction takes no operand. -/
def isImplied (instruction : Instruction) : Bool :=
  instruction.supports .implied

/-- A branch takes its target as a displacement. -/
def isBranch (instruction : Instruction) : Bool :=
  instruction.supports .relative

/-- The instruction with one more mode, tried after those it has. -/
def withMode (instruction : Instruction) (mode : Mode) (opcode : UInt8) : Instruction :=
  { instruction with modes := instruction.modes ++ [(mode, opcode)] }

end Instruction

end Asm6510.Machine
