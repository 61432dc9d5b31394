import Asm6510.Text.Hex

/-! Texts that a YAML reader would take for a number. -/

namespace Asm6510.Yaml

open Text

/-- The number written by digits of a base, of which there must be at least one. -/
def natural? (base : Nat) (cs : List Char) : Option Nat :=
  if !cs.isEmpty && cs.all (fun c => Hex.isDigit c && Hex.value c < base) then
    some (cs.foldl (fun n c => base * n + Hex.value c) 0)
  else
    none

/-- Whether the digits of a base stand for a number below a bound. -/
def isBelow (bound base : Nat) (cs : List Char) : Bool :=
  (natural? base cs).any (· < bound)

/-- Whether a text is a base mark and digits of that base for a number below a bound. -/
def isMarked (bound : Nat) : List Char → Bool
  | '0' :: 'x' :: rest => isBelow bound 16 rest
  | '0' :: 'o' :: rest => isBelow bound 8 rest
  | '0' :: 'b' :: rest => isBelow bound 2 rest
  | _ => false

/-- A text without one sign at its start. -/
def unsigned : List Char → List Char
  | '+' :: rest | '-' :: rest => rest
  | cs => cs

/-- Whether a text is digits with a leading zero. Such a text is no number, but looks like one.
-/
def isZeroPadded (cs : List Char) : Bool :=
  match unsigned cs with
  | '0' :: d :: rest => (d :: rest).all Char.isDigit
  | _ => false

/-- Whether a text is an integer of 128 bits, signed or not, in base ten or with a base mark. -/
def isInteger (cs : List Char) : Bool :=
  match cs with
  | '-' :: rest =>
      isMarked (Nat.pow 2 127 + 1) rest
        || (!isZeroPadded cs && isBelow (Nat.pow 2 127 + 1) 10 rest)
  | '+' :: rest =>
      isMarked (Nat.pow 2 128) rest || (!isZeroPadded cs && isBelow (Nat.pow 2 128) 10 rest)
  | _ => isMarked (Nat.pow 2 128) cs || (!isZeroPadded cs && isBelow (Nat.pow 2 128) 10 cs)

/-- A decimal number: its digits as an integer, and the power of ten it is scaled by. -/
structure Decimal where
  digits : Nat
  digitCount : Nat
  exponent : Int
deriving DecidableEq, Repr

namespace Decimal

/-- The exponent at the end of a decimal, zero if there is none. -/
def exponent? (cs : List Char) : Option Int :=
  match cs with
  | [] => some 0
  | mark :: rest =>
      if mark = 'e' || mark = 'E' then
        match rest with
        | '-' :: digits => (natural? 10 digits).map fun n => -(n : Int)
        | '+' :: digits => (natural? 10 digits).map fun n => (n : Int)
        | digits => (natural? 10 digits).map fun n => (n : Int)
      else
        none

/-- Reads digits with an optional point among, before or after them, and an exponent. -/
def parse? (cs : List Char) : Option Decimal :=
  let whole := cs.takeWhile Char.isDigit
  let (fraction, rest) :=
    match cs.dropWhile Char.isDigit with
    | '.' :: rest => (rest.takeWhile Char.isDigit, rest.dropWhile Char.isDigit)
    | rest => ([], rest)
  match natural? 10 (whole ++ fraction), exponent? rest with
  | some digits, some exponent =>
      some ⟨digits, (whole ++ fraction).length, exponent - fraction.length⟩
  | _, _ => none

/-- The least number that is rounded to infinity in double precision: half a step above the
largest number.
-/
def overflowBound : Nat :=
  (Nat.pow 2 54 - 1) * Nat.pow 2 970

/-- Whether a decimal has a finite value in double precision. A scale beyond any digits decides
at once, so that no huge power is computed.
-/
def isFinite (decimal : Decimal) : Bool :=
  match decimal.exponent with
  | .ofNat scale =>
      decimal.digits = 0
        || (scale ≤ 400 && decimal.digits * Nat.pow 10 scale < overflowBound)
  | .negSucc scale =>
      decimal.digitCount ≤ scale + 1
        || decimal.digits < overflowBound * Nat.pow 10 (scale + 1)

end Decimal

/-- The spellings of infinity. -/
def infinities : List String :=
  [".inf", ".Inf", ".INF"]

/-- The spellings of a result that is no number. -/
def notNumbers : List String :=
  [".nan", ".NaN", ".NAN"]

/-- Whether a text is a finite decimal, or spells infinity or no number. A plus sign is not
followed by another sign.
-/
def isFloat (cs : List Char) : Bool :=
  let isFiniteDecimal := fun cs => (Decimal.parse? cs).any Decimal.isFinite
  let isInfinity := fun cs => infinities.contains (String.ofList cs)
  match cs with
  | '+' :: rest => isInfinity rest || isFiniteDecimal rest
  | '-' :: rest => isInfinity rest || isFiniteDecimal rest
  | _ => isInfinity cs || notNumbers.contains (String.ofList cs) || isFiniteDecimal cs

/-- Whether a text reads as a number, or looks like one. -/
def isNumeric (cs : List Char) : Bool :=
  isInteger cs || isZeroPadded cs || isFloat cs

end Asm6510.Yaml
