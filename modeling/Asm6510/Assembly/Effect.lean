import Asm6510.Assembly.Logged
import Asm6510.Assembly.Row
import Asm6510.Assembly.Statement
import Asm6510.Assembly.Symbol
import Asm6510.Operand.Displacement
import Asm6510.Operand.Reference

/-! What a statement does, given the symbols known and the address it stands at.

Nothing here depends on what was emitted before: a statement's effect is a function of its
tokens, the pass, the symbols and the address.
-/

namespace Asm6510.Assembly

open Machine (Instruction InstructionSet Mode)
open Operand
open Report (Message)
open Source (Token)
open Text

/-- The two passes. The first measures with the symbols declared so far and guesses the rest;
the second emits with all symbols known.
-/
inductive Pass where
  | prescan
  | assemble
deriving DecidableEq, Repr

/-- What a statement asks for. -/
inductive Effect where
  /-- The counter moves to an address. -/
  | moveTo (address : UInt16)
  /-- A name gets a meaning. -/
  | declare (name : String) (symbol : Symbol)
  /-- Bytes are emitted. -/
  | emit (row : Row)
  /-- Nothing happens. -/
  | ignore
deriving DecidableEq, Repr

/-- An operand that must be there. -/
def required (after : Token) (operand? : Option Token) : Logged Token :=
  match operand? with
  | some operand => pure operand
  | none => Logged.stop (.missingOperand after.text)

/-- The operand of a reference to a known name: its meaning, or the marked byte of a meaning
that is a word.
-/
def substitute (reference : String) (symbol : Symbol) : Except Cause String :=
  match part? reference with
  | none => .ok symbol.operand
  | some part =>
      match wordValue? symbol.operand with
      | some word => .ok (formatImmediate (part.of word))
      | none => .error (.invalidByteExtract reference)

/-- The operand assumed for a name that is not known yet. -/
def guess (reference : String) (here : UInt16) : String :=
  if isExtract reference then formatImmediate 0 else formatWord here

/-- Whether an operand is looked up among the symbols. The accumulator of an instruction that
has one is not.
-/
def isLookedUp (instruction : Instruction) (operand : Token) : Bool :=
  operand.kind == .ident && isReference operand.text
    && !(operand.text == "A" && instruction.supports .accumulator)

/-- The text of an instruction's operand, with a reference replaced by what it refers to. -/
def resolve (set : InstructionSet) (pass : Pass) (symbols : Symbols) (here : UInt16)
    (instruction : Instruction) (operand : Token) : Logged String :=
  if !isLookedUp instruction operand then
    pure operand.text
  else if set.isInstruction operand.text then
    Logged.stop (.missingOperand instruction.mnemonic)
  else
    match symbols.get? (referent operand.text), pass with
    | some symbol, _ => Logged.ofExcept (substitute operand.text symbol)
    | none, .assemble => Logged.stop (.unresolvedReference (referent operand.text))
    | none, .prescan => do
        let assumed := guess operand.text here
        Logged.note (.diag
          ("forward reference `" ++ operand.text ++ "`, assuming `" ++ assumed ++ "`")
          operand.pos)
        return assumed

/-- The operand of a branch: a target becomes its displacement, and a displacement stays. What
is neither is measured as a displacement, and left for the modes to refuse when it is emitted.
-/
def branchOperand (pass : Pass) (here : UInt16) (operand : String) : Except Cause String :=
  match wordValue? operand with
  | some target => (displacement here target).map formatByte
  | none =>
      if isByte operand then .ok operand
      else
        match pass with
        | .prescan => .ok (formatByte 0)
        | .assemble => .ok operand

/-- The text that an instruction's operand is encoded from. -/
def operandText (set : InstructionSet) (pass : Pass) (symbols : Symbols) (here : UInt16)
    (instruction : Instruction) (operand : Token) : Logged String := do
  let text ← resolve set pass symbols here instruction operand
  if instruction.isBranch then Logged.ofExcept (branchOperand pass here text)
  else return text

/-- The first mode of an instruction that accepts an operand, and its opcode. -/
def selectMode? (instruction : Instruction) (operand : String) : Option (Mode × UInt8) :=
  instruction.modes.find? fun bound => bound.1.accepts operand

/-- The bytes after the opcode. -/
def operandBytes (mode : Mode) (operand : String) : List UInt8 :=
  match mode.length with
  | 2 => (byteIn? operand).toList
  | 3 => ((wordIn? operand).map littleEndian).getD []
  | _ => []

/-- The row of an instruction with its operand. -/
def operate (set : InstructionSet) (pass : Pass) (symbols : Symbols) (here : UInt16)
    (token : Token) (instruction : Instruction) (operand : Token) : Logged Row := do
  let text ← (operandText set pass symbols here instruction operand).located operand.pos
  match selectMode? instruction text with
  | none =>
      Logged.fail
        (Fault.placed (.invalidAddressingMode instruction.mnemonic text) operand.pos)
  | some (mode, opcode) =>
      Logged.note (.diag
        (instruction.mnemonic ++ " " ++ text ++ " as " ++ mode.name ++ " ($"
          ++ Hex.byte opcode ++ ", " ++ instruction.description ++ ")")
        token.pos)
      return {
        address := here
        bytes := opcode :: operandBytes mode text
        text := instruction.mnemonic ++ " " ++ text
        reference? :=
          if operand.kind == .ident && text != operand.text then some operand.text else none
        pos := token.pos
      }

/-- What a statement does at an address. A statement that stands for no address takes none of
its effect from `here`.
-/
def Statement.effect (set : InstructionSet) (pass : Pass) (symbols : Symbols) (here : UInt16)
    : Statement → Logged Effect
  | .origin directive operand? => do
      let operand ← required directive operand?
      match wordValue? operand.text with
      | some address =>
          Logged.note (.diag ("origin moved to $" ++ Hex.word address) directive.pos)
          return .moveTo address
      | none => Logged.stop (.invalidOrgOperand operand.text)
  | .data width directive literals =>
      return .emit {
        address := here
        bytes := literals.flatMap fun literal => width.encode literal.text
        text := String.intercalate " " (directive.text :: literals.map (·.text))
        reference? := none
        pos := directive.pos
      }
  | .string directive operand? => do
      let operand ← required directive operand?
      match operand.kind with
      | .text content =>
          return .emit {
            address := here
            bytes := encode content ++ [0]
            text := directive.text ++ " " ++ operand.text
            reference? := none
            pos := directive.pos
          }
      | _ => Logged.fail (Fault.placed (.invalidString directive.text) operand.pos)
  | .label _ name => return .declare name (.label here)
  | .assign token name value? => do
      let value ← required token value?
      return .declare name (.assigned value.text)
  | .implied token instruction opcode =>
      return .emit {
        address := here
        bytes := [opcode]
        text := instruction.mnemonic
        reference? := none
        pos := token.pos
      }
  | .operate token instruction operand? => do
      let operand ← required token operand?
      let row ← Assembly.operate set pass symbols here token instruction operand
      return .emit row
  | .stray _ => return .ignore

end Asm6510.Assembly
