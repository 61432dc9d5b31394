import Asm6510.Fault
import Asm6510.Operand.Literal

/-! Names and what they stand for. -/

namespace Asm6510.Assembly

open Source (Position)

/-- What a name stands for. -/
inductive Symbol where
  /-- The address of a label. -/
  | label (address : UInt16)
  /-- The text assigned to a variable, word for word. -/
  | assigned (text : String)
deriving DecidableEq, Repr

namespace Symbol

/-- The operand that a reference is replaced with. -/
def operand : Symbol → String
  | label address => Operand.formatWord address
  | assigned text => text

end Symbol

/-- A name with its meaning and the place that gave it one. -/
structure Declaration where
  name : String
  pos : Position
  symbol : Symbol
deriving DecidableEq, Repr

/-- The names declared so far, in the order of their declaration. -/
structure Symbols where
  declarations : List Declaration := []
deriving DecidableEq, Repr, Inhabited

namespace Symbols

/-- No names. -/
def empty : Symbols :=
  {}

/-- The declaration of a name. -/
def find? (symbols : Symbols) (name : String) : Option Declaration :=
  symbols.declarations.find? fun declaration => declaration.name == name

/-- What a name stands for. -/
def get? (symbols : Symbols) (name : String) : Option Symbol :=
  (symbols.find? name).map (·.symbol)

/-- Where a name was declared. -/
def pos? (symbols : Symbols) (name : String) : Option Position :=
  (symbols.find? name).map (·.pos)

/-- The number of names. -/
def size (symbols : Symbols) : Nat :=
  symbols.declarations.length

/-- The names with one more at their end. -/
def push (symbols : Symbols) (declaration : Declaration) : Symbols :=
  ⟨symbols.declarations ++ [declaration]⟩

/-- Declares a name; a name can be declared once. -/
def insert (symbols : Symbols) (declaration : Declaration) : Except Cause Symbols :=
  match symbols.find? declaration.name with
  | some _ => .error (.duplicateSymbol declaration.name)
  | none => .ok (symbols.push declaration)

end Symbols

end Asm6510.Assembly
