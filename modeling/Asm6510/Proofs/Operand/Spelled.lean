import Asm6510.Proofs.Operand.Numerals
import Mathlib.Data.List.Induction

/-! Operands spelt by their bytes. The bytes encoded from an operand, written as digits with the
most significant byte first, are the operand's own digits, up to their case.
-/

namespace Asm6510.Text.Hex

/-- Every digit, written again for its value, is in upper case. -/
theorem digit_value {c : Char} (valid : isDigit c = true)
    : digit (value c) = c.toUpper ∧ value c < 16 := by
  have ranges : isDigit c
      = (((decide (48 ≤ c.toNat) && decide (c.toNat ≤ 57))
          || (decide (65 ≤ c.toNat) && decide (c.toNat ≤ 70)))
        || (decide (97 ≤ c.toNat) && decide (c.toNat ≤ 102))) :=
    rfl
  have small : c.toNat < 103 := by
    simp only [ranges, Bool.or_eq_true, Bool.and_eq_true, decide_eq_true_eq] at valid
    omega
  have all : ∀ n : Fin 103, isDigit (Char.ofNat n.val) = true
      → digit (value (Char.ofNat n.val)) = (Char.ofNat n.val).toUpper
        ∧ value (Char.ofNat n.val) < 16 := by
    decide
  have here := all ⟨c.toNat, small⟩
  simp only [Char.ofNat_toNat] at here
  exact here valid

theorem ofDigits_concat (cs : List Char) (c : Char)
    : ofDigits (cs ++ [c]) = 16 * ofDigits cs + value c := by
  simp [ofDigits, List.foldl_append]

/-- A run of digits stands for a number of that many digits. -/
theorem ofDigits_lt {cs : List Char} (valid : cs.all isDigit = true)
    : ofDigits cs < Nat.pow 16 cs.length := by
  induction cs using List.reverseRecOn with
  | nil => decide
  | append_singleton cs c ih =>
      simp only [List.all_append, List.all_cons, List.all_nil, Bool.and_true, Bool.and_eq_true]
        at valid
      have front := ih valid.1
      have last := (digit_value valid.2).2
      rw [ofDigits_concat, List.length_append, List.length_singleton]
      change 16 * ofDigits cs + value c < Nat.pow 16 cs.length * 16
      omega

/-- A run of digits, written again for its number, is in upper case.
Witness: induction from the last digit, which the number holds in its lowest four bits.
-/
theorem digits_ofDigits {cs : List Char} (valid : cs.all isDigit = true)
    : digits cs.length (ofDigits cs) = cs.map Char.toUpper := by
  induction cs using List.reverseRecOn with
  | nil => rfl
  | append_singleton cs c ih =>
      simp only [List.all_append, List.all_cons, List.all_nil, Bool.and_true, Bool.and_eq_true]
        at valid
      obtain ⟨last, small⟩ := digit_value valid.2
      have high : (16 * ofDigits cs + value c) / 16 = ofDigits cs := by omega
      have low : (16 * ofDigits cs + value c) % 16 = value c := by omega
      rw [ofDigits_concat, List.length_append, List.length_singleton, digits, high, low,
        ih valid.1, last, List.map_append, List.map_singleton]

/-- Two digits show the lowest byte of a number. -/
theorem digits_two_mod (n : Nat)
    : digits 2 (n % 256) = digits 2 n := by
  have high : n % 256 / 16 % 16 = n / 16 % 16 := by omega
  have low : n % 256 % 16 = n % 16 := by omega
  simp only [digits, high, low]

/-- Four digits show the two lowest bytes, the higher one first. -/
theorem digits_four (n : Nat)
    : digits 4 n = digits 2 (n / 256) ++ digits 2 n := by
  have quotient : n / 16 / 16 = n / 256 := by omega
  simp only [digits, quotient, List.nil_append, List.cons_append]

end Asm6510.Text.Hex

namespace Asm6510.Operand

open Assembly (operandBytes)
open Machine (Mode Shape)
open Text

/-- The digits of the bytes of an operand, the most significant byte first. -/
def digitsOf (bytes : List UInt8) : List Char :=
  bytes.reverse.flatMap fun b => Hex.digits 2 b.toNat

/-- A text that writes an operand with these bytes in a mode: the digits of the bytes, in either
case, in the shape of the mode. The accumulator has no bytes and is spelt `A`.
-/
def Spells (mode : Mode) (bytes : List UInt8) (text : String) : Prop :=
  match mode.shape? with
  | some shape =>
      ∃ digits : List Char,
        text.toList = shape.opening.toList ++ (digits ++ shape.closing.toList)
        ∧ digits.map Char.toUpper = digitsOf bytes
  | none => mode = .accumulator ∧ bytes = [] ∧ text = "A"

/-- A word that is written out has the value of its digits. -/
theorem wordValue?_of_spelt {text : String} {digits : List Char}
    (spelt : text.toList = '$' :: digits) (counted : digits.length = 4)
    (valid : digits.all Hex.isDigit = true)
    : wordValue? text = some (UInt16.ofNat (Hex.ofDigits digits))
      ∧ (UInt16.ofNat (Hex.ofDigits digits)).toNat = Hex.ofDigits digits := by
  have word : isWord text = true :=
    Shape.fits_iff.mpr ⟨digits, by simpa [wordShape] using spelt, counted, valid⟩
  have read := numberIn?_of_fits .absolute rfl digits (by simpa using spelt) counted valid
  have small : Hex.ofDigits digits < Nat.pow 16 digits.length := Hex.ofDigits_lt valid
  rw [counted] at small
  exact ⟨wordValue?_eq_some_iff.mpr ⟨word, by simpa [wordIn?] using ⟨_, read, rfl⟩⟩,
    UInt16.toNat_ofNat_of_lt small⟩

theorem digitsOf_byte (n : Nat)
    : digitsOf [UInt8.ofNat n] = Hex.digits 2 n := by
  simp [digitsOf, Hex.digits_two_mod]

/-- A word is stored with its low byte first, and is written with its high byte first. -/
theorem digitsOf_littleEndian (n : Nat)
    : digitsOf (littleEndian (UInt16.ofNat n)) = Hex.digits 4 n := by
  have high : (n % 65536 / 256) % 256 = n / 256 % 256 := by omega
  have low : (n % 65536 % 256) % 256 = n % 256 := by omega
  have bytes : digitsOf (littleEndian (UInt16.ofNat n))
      = Hex.digits 2 ((n % 65536 / 256) % 256) ++ Hex.digits 2 ((n % 65536 % 256) % 256) := by
    simp [digitsOf, littleEndian, highByte, lowByte]
  rw [bytes, high, low, Hex.digits_two_mod, Hex.digits_two_mod, Hex.digits_four]

/-- The bytes of an operand that a mode accepts have the digits of its number. -/
theorem digitsOf_operandBytes {mode : Mode} {text : String} {n : Nat}
    (long : mode.length = 2 ∨ mode.length = 3)
    (read : numberIn? (2 * (mode.length - 1)) text = some n)
    : digitsOf (operandBytes mode text) = Hex.digits (2 * (mode.length - 1)) n := by
  rcases long with two | three
  · rw [two] at read ⊢
    simp [operandBytes, two, byteIn?, read, digitsOf_byte]
  · rw [three] at read ⊢
    simp [operandBytes, three, wordIn?, read, digitsOf_littleEndian]

/-- An accepted operand is spelt by the bytes encoded from it. -/
theorem spells_of_accepts {mode : Mode} {text : String} (accepted : mode.accepts text = true)
    : Spells mode (operandBytes mode text) text := by
  rcases Mode.accepts_cases accepted with ⟨rfl, rfl⟩ | ⟨shape, shaped, fitting⟩
  · exact ⟨rfl, rfl, rfl⟩
  · obtain ⟨digits, spelt, counted, valid⟩ := Machine.Shape.fits_iff.mp fitting
    have read := numberIn?_of_fits mode shaped digits spelt counted valid
    obtain ⟨width, long⟩ := Mode.shape?_digits shaped
    rw [width] at read
    simp only [Spells, shaped]
    refine ⟨digits, spelt, ?_⟩
    rw [digitsOf_operandBytes long read, ← width, ← counted, Hex.digits_ofDigits valid]

end Asm6510.Operand
