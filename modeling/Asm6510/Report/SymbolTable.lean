import Asm6510.Assembly.Symbol
import Asm6510.Yaml.Scalar

/-! Symbols as a YAML document. -/

namespace Asm6510.Report

open Assembly (Declaration Symbol Symbols)

/-- What kind of name a symbol belongs to. -/
def symbolKind : Symbol → String
  | .label _ => "label"
  | .assigned _ => "variable"

/-- The record of a declaration. -/
def declarationRecord (declaration : Declaration) : List (String × String) :=
  [("kind", symbolKind declaration.symbol),
    ("value", declaration.symbol.operand),
    ("defined", declaration.pos.display)]

/-- The symbols in the order of their declaration, each with its kind, its value and its place.
-/
def symbolTable (symbols : Symbols) : String :=
  Yaml.mapping (symbols.declarations.map fun declaration =>
    (declaration.name, declarationRecord declaration))

end Asm6510.Report
