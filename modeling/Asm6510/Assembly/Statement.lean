import Asm6510.Machine.InstructionSet
import Asm6510.Operand.Literal
import Asm6510.Source.Token

/-! Tokens grouped into statements. Where a statement ends depends on its tokens and on the
instruction set, never on the symbols, so both passes work on the same statements.
-/

namespace Asm6510.Assembly

open Machine (Instruction InstructionSet)
open Source (Position Token)

/-- The width of the numbers in a data statement. -/
inductive Width where
  | byte
  | word
deriving DecidableEq, Repr

namespace Width

/-- Whether a text is a number of this width. -/
def holds (width : Width) (text : String) : Bool :=
  match width with
  | byte => Operand.isByte text
  | word => Operand.isWord text

/-- The bytes of a number of this width; data words are stored as they are read. -/
def encode (width : Width) (text : String) : List UInt8 :=
  match width with
  | byte => (Operand.byteIn? text).toList
  | word => ((Operand.wordIn? text).map Operand.bigEndian).getD []

end Width

/-- A statement. An operand that the source ends before is missing, which is a fault only
once the statement is carried out.
-/
inductive Statement where
  /-- Moves the address counter. -/
  | origin (directive : Token) (operand? : Option Token)
  /-- Numbers in the output. -/
  | data (width : Width) (directive : Token) (literals : List Token)
  /-- Text in the output, closed by a zero. -/
  | string (directive : Token) (operand? : Option Token)
  /-- Names the current address. -/
  | label (token : Token) (name : String)
  /-- Names a text. -/
  | assign (token : Token) (name : String) (value? : Option Token)
  /-- An instruction without an operand. -/
  | implied (token : Token) (instruction : Instruction) (opcode : UInt8)
  /-- An instruction with an operand. -/
  | operate (token : Token) (instruction : Instruction) (operand? : Option Token)
  /-- A token that starts no statement. -/
  | stray (token : Token)
deriving DecidableEq, Repr

namespace Statement

/-- The token a statement starts with. -/
def head : Statement → Token
  | origin token _ | data _ token _ | string token _ | label token _ | assign token _ _
  | implied token _ _ | operate token _ _ | stray token => token

/-- The tokens after the first. -/
def tail : Statement → List Token
  | origin _ operand? | string _ operand? | assign _ _ operand? | operate _ _ operand? =>
      operand?.toList
  | data _ _ literals => literals
  | label _ _ | implied _ _ _ | stray _ => []

/-- All tokens of a statement. -/
def tokens (statement : Statement) : List Token :=
  statement.head :: statement.tail

/-- The place of a statement. -/
def pos (statement : Statement) : Position :=
  statement.head.pos

/-- Whether the statement stands for an address: it names the current one or puts bytes there.
-/
def isAnchored : Statement → Bool
  | data _ _ _ | string _ _ | label _ _ | implied _ _ _ | operate _ _ _ => true
  | origin _ _ | assign _ _ _ | stray _ => false

/-- The statement that a token starts, given the tokens after it. -/
def starting (set : InstructionSet) (token : Token) (rest : List Token) : Statement :=
  match token.kind with
  | .directive .org => origin token rest.head?
  | .directive .byte => data .byte token (rest.takeWhile fun next => Width.byte.holds next.text)
  | .directive .word => data .word token (rest.takeWhile fun next => Width.word.holds next.text)
  | .directive .string => string token rest.head?
  | .label name => label token name
  | .assignment name => assign token name rest.head?
  | .ident =>
      match set.lookup token.text with
      | some instruction =>
          match instruction.opcode? .implied with
          | some opcode => implied token instruction opcode
          | none => operate token instruction rest.head?
      | none => stray token
  | .directive .includeFile | .text _ | .operand _ => stray token

end Statement

/-- The statements of a list of tokens. -/
def statements (set : InstructionSet) (tokens : List Token) : List Statement :=
  match tokens with
  | [] => []
  | token :: rest =>
      let statement := Statement.starting set token rest
      statement :: statements set (rest.drop statement.tail.length)
termination_by tokens.length
decreasing_by simp only [List.length_cons, List.length_drop]; omega

end Asm6510.Assembly
