import Asm6510.Source.Position
import Asm6510.Text.Hex

/-! What can go wrong between reading a source and writing an image, and where it did. -/

namespace Asm6510

open Source (Position)

/-- What went wrong. -/
inductive Cause where
  | duplicateSymbol (name : String)
  | unresolvedReference (name : String)
  | invalidAddressingMode (mnemonic operand : String)
  | relativeOffsetOutOfRange (offset : Int)
  | invalidOrgOperand (text : String)
  | includeFileNotFound (path : String)
  | includeCycle (path : String)
  | missingOperand (after : String)
  | invalidString (directive : String)
  | invalidByteExtract (reference : String)
  | addressDrift (expected found : Nat)
  | addressOverflow
  | fileOpen (path : String)
  | fileCreate (path : String)
  | fileWrite (path : String)
deriving DecidableEq, Repr

namespace Cause

/-- The decimal numeral of an integer. -/
def signed (offset : Int) : String :=
  match offset with
  | .ofNat n => Text.decimal n
  | .negSucc n => "-" ++ Text.decimal (n + 1)

/-- What the user is told. -/
def message : Cause → String
  | duplicateSymbol name => "Re-defined symbol: `" ++ name ++ "`"
  | unresolvedReference name => "Undefined symbol: `" ++ name ++ "`"
  | invalidAddressingMode mnemonic operand =>
      "No addressing mode of `" ++ mnemonic ++ "` accepts `" ++ operand ++ "`"
  | relativeOffsetOutOfRange offset =>
      "Branch target out of range: " ++ signed offset ++ " bytes"
  | invalidOrgOperand text => "`.org` needs a $xxxx address, found `" ++ text ++ "`"
  | includeFileNotFound path => "Include file not found: " ++ path
  | includeCycle path => "Include cycle: `" ++ path ++ "` includes itself"
  | missingOperand after => "More argument required after `" ++ after ++ "`"
  | invalidString directive => "`" ++ directive ++ "` needs a quoted string"
  | invalidByteExtract reference => "Cannot take high/low byte of `" ++ reference ++ "`"
  | addressDrift expected found =>
      "Address drift: $" ++ Text.Hex.numeral 4 expected ++ " in prescan, $"
        ++ Text.Hex.numeral 4 found ++ " in assemble"
  | addressOverflow => "Address counter passed $FFFF"
  | fileOpen path => "Failed to open file: " ++ path
  | fileCreate path => "Failed to create file: " ++ path
  | fileWrite path => "Failed to write file: " ++ path

end Cause

/-- A cause with the places it was reported at, the outermost first. -/
structure Fault where
  cause : Cause
  trail : List Position := []
deriving DecidableEq, Repr

namespace Fault

/-- The place the fault is shown at. -/
def pos? (fault : Fault) : Option Position :=
  fault.trail.head?

/-- The fault at a place, unless it has one already: the innermost report names the place. -/
def located (fault : Fault) (pos : Position) : Fault :=
  if fault.trail.isEmpty then { fault with trail := [pos] } else fault

/-- The fault reported once more, at a place around the ones it has. -/
def within (fault : Fault) (pos : Position) : Fault :=
  { fault with trail := pos :: fault.trail }

/-- A cause at a place. -/
def placed (cause : Cause) (pos : Position) : Fault :=
  ⟨cause, [pos]⟩

@[simp]
theorem cause_located (fault : Fault) (pos : Position)
    : (fault.located pos).cause = fault.cause := by
  unfold located
  split <;> rfl

@[simp]
theorem located_located (fault : Fault) (inner outer : Position)
    : (fault.located inner).located outer = fault.located inner := by
  unfold located
  split <;> simp_all

end Fault

end Asm6510
