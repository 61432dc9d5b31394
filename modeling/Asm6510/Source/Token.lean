import Asm6510.Machine.Mode
import Asm6510.Source.Position

/-! The tokens of assembly source. -/

namespace Asm6510.Source

/-- The directives, which are written with a leading dot. -/
inductive Directive where
  | org
  | byte
  | word
  | string
  | includeFile
deriving DecidableEq, Repr

namespace Directive

/-- Every directive, in the order in which they are looked for. -/
def all : List Directive :=
  [org, byte, word, string, includeFile]

/-- How a directive is written. -/
def keyword : Directive → String
  | org => ".org"
  | byte => ".byte"
  | word => ".word"
  | string => ".string"
  | includeFile => ".include"

end Directive

/-- What a token is. -/
inductive Kind where
  /-- A directive. -/
  | directive (directive : Directive)
  /-- Quoted text, without its quotes. -/
  | text (content : String)
  /-- A name and the equals sign that gives it a value. -/
  | assignment (name : String)
  /-- A name and the colon that makes it a label. -/
  | label (name : String)
  /-- A mnemonic, a reference to a name, or the accumulator. -/
  | ident
  /-- A literal operand in the shape of a mode. -/
  | operand (mode : Machine.Mode)
deriving DecidableEq, Repr

/-- A token with its text and the place where it starts. -/
structure Token where
  kind : Kind
  text : String
  pos : Position
deriving DecidableEq, Repr

namespace Token

/-- The token as it is shown. -/
def display (token : Token) : String :=
  "`" ++ token.text ++ "` at " ++ token.pos.display

end Token

end Asm6510.Source
