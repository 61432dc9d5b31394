import Asm6510.Operand.Reference
import Asm6510.Source.Token

/-! The forms a token can take at the start of a text. They are tried in a fixed order, and
the first that fits decides.
-/

namespace Asm6510.Source

open Machine (Mode)
open Operand (nameLength? Part)
open Text

/-- A token's form found at the start of a text: the characters it takes, and its kind. -/
structure Lexeme where
  length : Nat
  kind : Kind
deriving DecidableEq, Repr

namespace Lexeme

/-- A keyword that no letter or digit continues. -/
def directive? (cs : List Char) : Option Lexeme :=
  Directive.all.findSome? fun directive =>
    match directive.keyword.toList.isPrefixOf? cs with
    | some rest =>
        if rest.head?.any isAlphanumeric then none
        else some ⟨directive.keyword.length, .directive directive⟩
    | none => none

/-- Text up to the next quote; a quote that nothing closes starts none. -/
def quoted? : List Char → Option Lexeme
  | '"' :: body =>
      let content := body.takeWhile (· != '"')
      if content.length < body.length then
        some ⟨content.length + 2, .text (String.ofList content)⟩
      else
        none
  | _ => none

/-- A name and an equals sign, with the blanks between them and after them. -/
def assignment? (cs : List Char) : Option Lexeme := do
  let name ← nameLength? cs
  let gap := (cs.drop name).takeWhile isBlank
  match (cs.drop name).dropWhile isBlank with
  | '=' :: rest =>
      some ⟨name + gap.length + 1 + (rest.takeWhile isBlank).length,
        .assignment (String.ofList (cs.take name))⟩
  | _ => none

/-- A name with a colon right after it. -/
def label? (cs : List Char) : Option Lexeme := do
  let name ← nameLength? cs
  match cs.drop name with
  | ':' :: _ => some ⟨name + 1, .label (String.ofList (cs.take name))⟩
  | _ => none

/-- A name, with or without a mark. -/
def ident? (cs : List Char) : Option Lexeme := do
  let mark := if (Part.mark? cs).isSome then 1 else 0
  let name ← nameLength? (cs.drop mark)
  return ⟨mark + name, .ident⟩

/-- The modes of literal operands in the order in which they are tried. Four digits come
before two, so that `$D020` is not read as `$D0` and a name.
-/
def literalModes : List Mode :=
  [.immediate, .absoluteX, .absoluteY, .absolute, .zeroPageX, .zeroPageY, .zeroPage,
    .indirectIndexedY, .indirect, .indexedIndirectX]

/-- A literal operand. -/
def literal? (cs : List Char) : Option Lexeme :=
  literalModes.findSome? fun mode => do
    let shape ← mode.shape?
    let _ ← shape.read? cs
    return ⟨shape.opening.length + shape.digits + shape.closing.length, .operand mode⟩

/-- The token's form at the start of a text, if one fits. -/
def find? (cs : List Char) : Option Lexeme :=
  directive? cs <|> quoted? cs <|> assignment? cs <|> label? cs <|> ident? cs <|> literal? cs

end Lexeme

end Asm6510.Source
