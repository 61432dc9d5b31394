import Asm6510.Machine.Mode
import Asm6510.Text.Hex

/-! Literal operands: hexadecimal numbers in the shape of an addressing mode. Operands are
plain text wherever they come from, so that a value substituted for a name is read as if it
had been written in its place.
-/

namespace Asm6510.Machine

open Text

namespace Shape

/-- A literal of the shape at the start of a text: its digits, and what follows it. -/
def read? (shape : Shape) (cs : List Char) : Option (List Char × List Char) := do
  let body ← shape.opening.toList.isPrefixOf? cs
  let digits := body.take shape.digits
  if digits.length = shape.digits && digits.all Hex.isDigit then
    let rest ← shape.closing.toList.isPrefixOf? (body.drop shape.digits)
    return (digits, rest)
  else
    none

/-- Whether a text is a literal of the shape, from end to end. -/
def fits (shape : Shape) (text : String) : Bool :=
  match shape.read? text.toList with
  | some (_, []) => true
  | _ => false

/-- The bytes of the literal of the shape at the start of a text. -/
def literalLength? (shape : Shape) (text : String) : Option Nat :=
  (shape.read? text.toList).map fun _ => shape.byteLength

end Shape

/-- Whether an operand can be used in a mode. The accumulator is spelt `A`, and no text at all
is the operand of an implied instruction.
-/
def Mode.accepts (mode : Mode) (operand : String) : Bool :=
  match mode, mode.shape? with
  | .accumulator, _ => operand == "A"
  | _, some shape => shape.fits operand
  | _, none => false

end Asm6510.Machine

namespace Asm6510.Operand

open Machine (Shape)
open Text

/-- A byte is written `$xx`. -/
def byteShape : Shape :=
  ⟨"$", 2, ""⟩

/-- A word is written `$xxxx`. -/
def wordShape : Shape :=
  ⟨"$", 4, ""⟩

/-- Whether a text is a byte. -/
def isByte (text : String) : Bool :=
  byteShape.fits text

/-- Whether a text is a word. -/
def isWord (text : String) : Bool :=
  wordShape.fits text

/-- The number in the `count` digits after the first `$` of a text, wherever that stands. -/
def numberIn? (count : Nat) (text : String) : Option Nat :=
  match text.toList.dropWhile (· != '$') with
  | [] => none
  | _ :: rest =>
      let digits := rest.take count
      if digits.length = count && digits.all Hex.isDigit then some (Hex.ofDigits digits)
      else none

/-- The byte in an operand such as `#$10` or `($FB),Y`. -/
def byteIn? (text : String) : Option UInt8 :=
  (numberIn? 2 text).map UInt8.ofNat

/-- The word in an operand such as `$D020,X`. -/
def wordIn? (text : String) : Option UInt16 :=
  (numberIn? 4 text).map UInt16.ofNat

/-- The value of a text that is a word. -/
def wordValue? (text : String) : Option UInt16 :=
  if isWord text then wordIn? text else none

/-- The byte that counts ones. -/
def lowByte (word : UInt16) : UInt8 :=
  UInt8.ofNat (word.toNat % 256)

/-- The byte that counts two hundred and fifty-sixes. -/
def highByte (word : UInt16) : UInt8 :=
  UInt8.ofNat (word.toNat / 256)

/-- A word as the processor stores it, the low byte first. -/
def littleEndian (word : UInt16) : List UInt8 :=
  [lowByte word, highByte word]

/-- A word as it is read, the high byte first. -/
def bigEndian (word : UInt16) : List UInt8 :=
  [highByte word, lowByte word]

/-- A byte as an operand. -/
def formatByte (b : UInt8) : String :=
  "$" ++ Hex.byte b

/-- A word as an operand. -/
def formatWord (w : UInt16) : String :=
  "$" ++ Hex.word w

/-- A byte as an immediate operand. -/
def formatImmediate (b : UInt8) : String :=
  "#$" ++ Hex.byte b

end Asm6510.Operand
