/-! The thirteen addressing modes of the 6510: their names, lengths and literal shapes. -/

namespace Asm6510.Machine

/-- How an instruction finds its operand. -/
inductive Mode where
  | implied
  | immediate
  | absoluteX
  | absoluteY
  | absolute
  | accumulator
  | zeroPageX
  | zeroPageY
  | zeroPage
  | indirectIndexedY
  | indirect
  | indexedIndirectX
  | relative
deriving DecidableEq, Repr, Inhabited

/-- The shape of a literal operand: a number of hexadecimal digits between two fixed texts. -/
structure Shape where
  opening : String
  digits : Nat
  closing : String
deriving DecidableEq, Repr

namespace Shape

/-- The bytes a literal of this shape takes. -/
def byteLength (shape : Shape) : Nat :=
  shape.opening.utf8ByteSize + shape.digits + shape.closing.utf8ByteSize

end Shape

namespace Mode

/-- Every mode, in the order in which they are listed to the user. -/
def all : List Mode :=
  [implied, immediate, absoluteX, absoluteY, absolute, accumulator, zeroPageX, zeroPageY,
    zeroPage, indirectIndexedY, indirect, indexedIndirectX, relative]

/-- The name a mode is printed and read under. -/
def name : Mode → String
  | implied => "Implied"
  | immediate => "Immediate"
  | absoluteX => "AbsoluteX"
  | absoluteY => "AbsoluteY"
  | absolute => "Absolute"
  | accumulator => "Accumulator"
  | zeroPageX => "ZeroPageX"
  | zeroPageY => "ZeroPageY"
  | zeroPage => "ZeroPage"
  | indirectIndexedY => "IndirectIndexedY"
  | indirect => "Indirect"
  | indexedIndirectX => "IndexedIndirectX"
  | relative => "Relative"

/-- Bytes of a whole instruction in this mode, opcode included. -/
def length : Mode → Nat
  | implied | accumulator => 1
  | immediate | zeroPage | zeroPageX | zeroPageY => 2
  | indexedIndirectX | indirectIndexedY | relative => 2
  | absolute | absoluteX | absoluteY | indirect => 3

/-- Bytes after the opcode. -/
def operandBytes (mode : Mode) : Nat :=
  mode.length - 1

/-- The shape of the mode's literal operands; the modes without a number have none. A branch
target written as a displacement looks like a zero-page address.
-/
def shape? : Mode → Option Shape
  | implied | accumulator => none
  | immediate => some ⟨"#$", 2, ""⟩
  | absoluteX => some ⟨"$", 4, ",X"⟩
  | absoluteY => some ⟨"$", 4, ",Y"⟩
  | absolute => some ⟨"$", 4, ""⟩
  | zeroPageX => some ⟨"$", 2, ",X"⟩
  | zeroPageY => some ⟨"$", 2, ",Y"⟩
  | zeroPage | relative => some ⟨"$", 2, ""⟩
  | indirectIndexedY => some ⟨"($", 2, "),Y"⟩
  | indirect => some ⟨"($", 4, ")"⟩
  | indexedIndirectX => some ⟨"($", 2, ",X)"⟩

/-- The operand as it is written in source, with an `x` for each digit. -/
def spelling (mode : Mode) : String :=
  match mode, mode.shape? with
  | accumulator, _ => "A"
  | _, some shape =>
      shape.opening ++ String.ofList (List.replicate shape.digits 'x') ++ shape.closing
  | _, none => ""

/-- Why a text names no mode: by itself, or against the list of names it should be one of. -/
inductive NameError where
  | notFound
  | notListed (text : String)
deriving DecidableEq, Repr

namespace NameError

/-- What the user is told. -/
def message : NameError → String
  | notFound => "Matching variant not found"
  | notListed text =>
      "unknown variant `" ++ text ++ "`, expected one of "
        ++ String.intercalate ", " (all.map fun mode => "`" ++ mode.name ++ "`")

end NameError

/-- The mode of a name. -/
def ofName? (text : String) : Option Mode :=
  all.find? fun mode => mode.name == text

/-- Reads a name, without listing the names on failure. -/
def parse (text : String) : Except NameError Mode :=
  match ofName? text with
  | some mode => .ok mode
  | none => .error .notFound

/-- Reads a name that a record holds, listing the names on failure. -/
def parseListed (text : String) : Except NameError Mode :=
  match ofName? text with
  | some mode => .ok mode
  | none => .error (.notListed text)

/-- Every mode is listed. -/
theorem mem_all (mode : Mode)
    : mode ∈ all := by
  cases mode <;> decide

end Mode

end Asm6510.Machine
