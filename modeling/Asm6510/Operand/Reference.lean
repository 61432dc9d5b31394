import Asm6510.Operand.Literal
import Asm6510.Text.Blank

/-! Operands that name a symbol, with an optional mark that takes one byte of its value. -/

namespace Asm6510.Operand

open Text

/-- The most characters a name can have; a longer run is cut. -/
def nameLimit : Nat :=
  20

/-- The length of the name at the start of a text. Names are letters and digits. -/
def nameLength? (cs : List Char) : Option Nat :=
  match (cs.take nameLimit).takeWhile isAlphanumeric with
  | [] => none
  | name => some name.length

/-- Which byte of a word a mark takes. -/
inductive Part where
  | low
  | high
deriving DecidableEq, Repr

namespace Part

/-- The mark at the start of a text: `<` for the low byte, `>` for the high byte. -/
def mark? : List Char → Option Part
  | '<' :: _ => some low
  | '>' :: _ => some high
  | _ => none

/-- The byte of a word. -/
def of (part : Part) (word : UInt16) : UInt8 :=
  match part with
  | low => lowByte word
  | high => highByte word

end Part

/-- The mark of a reference. -/
def part? (reference : String) : Option Part :=
  Part.mark? reference.toList

/-- A reference without its mark. -/
def unmarked (cs : List Char) : List Char :=
  if (Part.mark? cs).isSome then cs.drop 1 else cs

/-- The name a reference refers to. -/
def referent (reference : String) : String :=
  String.ofList (unmarked reference.toList)

/-- Whether a text is a name, with or without a mark. -/
def isReference (text : String) : Bool :=
  let name := unmarked text.toList
  nameLength? name == some name.length

/-- Whether a text asks for one byte of a word. -/
def isExtract (text : String) : Bool :=
  (part? text).isSome

/-- The byte that a marked reference takes of the word in a text. -/
def extract? (reference text : String) : Option UInt8 := do
  let word ← wordIn? text
  let part ← part? reference
  return part.of word

end Asm6510.Operand
