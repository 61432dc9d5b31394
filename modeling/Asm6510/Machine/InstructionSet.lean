import Asm6510.Machine.Instruction
import Asm6510.Text.Hex

/-! Instruction sets: instructions under their mnemonics, and an index from opcodes back to
them. An entry that would make the two disagree is refused and kept on record.
-/

namespace Asm6510.Machine

/-- Why an entry was refused. -/
inductive Refusal where
  | duplicateMnemonic (mnemonic : String)
  | unknownMnemonic (mnemonic : String)
  | duplicateMode (mnemonic : String) (mode : Mode)
  | duplicateOpcode (opcode : UInt8) (owner : String) (mode : Mode)
  | impliedNotAlone (mnemonic : String)
deriving DecidableEq, Repr

namespace Refusal

/-- What the user is told. -/
def message : Refusal → String
  | duplicateMnemonic mnemonic => "`" ++ mnemonic ++ "` already exists in instruction set"
  | unknownMnemonic mnemonic => "`" ++ mnemonic ++ "` is not in instruction set"
  | duplicateMode mnemonic mode =>
      "Duplicate addressing mode " ++ mode.name ++ " for `" ++ mnemonic ++ "`"
  | duplicateOpcode opcode owner mode =>
      "Opcode $" ++ Text.Hex.byte opcode ++ " already bound to `" ++ owner ++ "` " ++ mode.name
  | impliedNotAlone mnemonic =>
      "`" ++ mnemonic ++ "` mixes implied addressing with other modes"

end Refusal

/-- The owner of an opcode: an instruction's mnemonic in one of its modes. -/
structure Owner where
  mnemonic : String
  mode : Mode
deriving DecidableEq, Repr

/-- A one-to-one index between opcodes and their owners. -/
structure OpcodeIndex where
  pairs : List (UInt8 × Owner) := []
deriving DecidableEq, Repr

namespace OpcodeIndex

/-- The owner of an opcode. -/
def owner? (index : OpcodeIndex) (opcode : UInt8) : Option Owner :=
  index.pairs.lookup opcode

/-- Adds a pair; a pair that shares its opcode or its owner is dropped for it. -/
def insert (index : OpcodeIndex) (opcode : UInt8) (owner : Owner) : OpcodeIndex :=
  ⟨index.pairs.filter (fun pair => pair.1 != opcode && pair.2 != owner) ++ [(opcode, owner)]⟩

end OpcodeIndex

/-- Instructions in the order of their registration, the index of their opcodes, and the
entries refused so far.
-/
structure InstructionSet where
  instructions : List Instruction := []
  opcodes : OpcodeIndex := {}
  refused : List Refusal := []
deriving DecidableEq, Repr

namespace InstructionSet

/-- The set that holds nothing. -/
def empty : InstructionSet :=
  {}

/-- The instruction of a mnemonic, spelt exactly. -/
def lookup (set : InstructionSet) (mnemonic : String) : Option Instruction :=
  set.instructions.find? fun instruction => instruction.mnemonic == mnemonic

/-- Whether a text is a mnemonic of the set. -/
def isInstruction (set : InstructionSet) (text : String) : Bool :=
  (set.lookup text).isSome

/-- The instruction and mode of an opcode. -/
def decode (set : InstructionSet) (opcode : UInt8) : Option (Instruction × Mode) := do
  let owner ← set.opcodes.owner? opcode
  let instruction ← set.lookup owner.mnemonic
  return (instruction, owner.mode)

/-- The number of instructions. -/
def size (set : InstructionSet) : Nat :=
  set.instructions.length

/-- Puts a refusal on record and reports it. -/
def refuse (set : InstructionSet) (refusal : Refusal) : InstructionSet × Option Refusal :=
  ({ set with refused := set.refused ++ [refusal] }, some refusal)

/-- Adds an instruction without modes; a mnemonic can be registered once. -/
def register (set : InstructionSet) (mnemonic description : String)
    : InstructionSet × Option Refusal :=
  if set.isInstruction mnemonic then
    set.refuse (.duplicateMnemonic mnemonic)
  else
    ({ set with
        instructions := set.instructions ++ [Instruction.unbound mnemonic description] },
      none)

/-- What stands against binding an opcode to an instruction in a mode. The mnemonic is looked
at first, then the mode, then whether an implied instruction stays alone, then the opcode.
-/
def obstacle? (set : InstructionSet) (mnemonic : String) (mode : Mode) (opcode : UInt8)
    : Option Refusal :=
  match set.lookup mnemonic with
  | none => some (.unknownMnemonic mnemonic)
  | some instruction =>
      if instruction.supports mode then
        some (.duplicateMode mnemonic mode)
      else if !instruction.modes.isEmpty
          && (instruction.isImplied || mode == .implied) then
        some (.impliedNotAlone mnemonic)
      else
        (set.opcodes.owner? opcode).map fun owner =>
          .duplicateOpcode opcode owner.mnemonic owner.mode

/-- Binds an opcode to an instruction in a mode. -/
def bind (set : InstructionSet) (mnemonic : String) (mode : Mode) (opcode : UInt8)
    : InstructionSet × Option Refusal :=
  match set.obstacle? mnemonic mode opcode with
  | some refusal => set.refuse refusal
  | none =>
      ({ set with
          instructions := set.instructions.map fun instruction =>
            if instruction.mnemonic == mnemonic then instruction.withMode mode opcode
            else instruction
          opcodes := set.opcodes.insert opcode ⟨mnemonic, mode⟩ },
        none)

end InstructionSet

end Asm6510.Machine
