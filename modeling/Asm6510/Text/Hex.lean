/-! Hexadecimal text: upper-case numerals of a least width, and runs of digits read back. -/

namespace Asm6510.Text.Hex

/-- The digits are `0`–`9`, `A`–`F` and `a`–`f`; no other character reads as one. -/
def isDigit (c : Char) : Bool :=
  c.isDigit || ('A' ≤ c && c ≤ 'F') || ('a' ≤ c && c ≤ 'f')

/-- The number a digit stands for. -/
def value (c : Char) : Nat :=
  if c.isDigit then c.toNat - 48
  else if c ≤ 'F' then c.toNat - 55
  else c.toNat - 87

/-- The upper-case digit of a number below sixteen. -/
def digit (n : Nat) : Char :=
  if n < 10 then Char.ofNat (48 + n) else Char.ofNat (55 + n)

/-- The last `width` digits of `n`, most significant first. -/
def digits : (width n : Nat) → List Char
  | 0, _ => []
  | width + 1, n => digits width (n / 16) ++ [digit (n % 16)]

/-- How many digits `n` needs; zero needs one. -/
def digitCount (n : Nat) : Nat :=
  n.log2 / 4 + 1

/-- `n` with leading zeros up to `width` digits, and never cut. -/
def numeral (width n : Nat) : String :=
  String.ofList (digits (max width (digitCount n)) n)

/-- Two digits for a byte. -/
def byte (b : UInt8) : String :=
  String.ofList (digits 2 b.toNat)

/-- Four digits for a word. -/
def word (w : UInt16) : String :=
  String.ofList (digits 4 w.toNat)

/-- The number a run of digits stands for, most significant first. -/
def ofDigits (cs : List Char) : Nat :=
  cs.foldl (fun n c => 16 * n + value c) 0

@[simp]
theorem length_digits (width n : Nat)
    : (digits width n).length = width := by
  induction width generalizing n with
  | zero => rfl
  | succ width ih => simp [digits, ih]

/-- A digit written for a number below sixteen reads as that number. -/
theorem value_digit {n : Nat} (small : n < 16)
    : value (digit n) = n := by
  have all : ∀ k : Fin 16, value (digit k.val) = k.val := by decide
  exact all ⟨n, small⟩

/-- Only hexadecimal digits are written. -/
theorem isDigit_digit {n : Nat} (small : n < 16)
    : isDigit (digit n) = true := by
  have all : ∀ k : Fin 16, isDigit (digit k.val) = true := by decide
  exact all ⟨n, small⟩

theorem all_isDigit_digits (width n : Nat)
    : (digits width n).all isDigit = true := by
  induction width generalizing n with
  | zero => rfl
  | succ width ih =>
      simp only [digits, List.all_append, ih, List.all_cons, List.all_nil, Bool.and_true,
        Bool.true_and]
      exact isDigit_digit (Nat.mod_lt _ (by decide))

/-- A numeral wide enough for its number reads back as that number. -/
theorem ofDigits_digits {width n : Nat} (fits : n < Nat.pow 16 width)
    : ofDigits (digits width n) = n := by
  induction width generalizing n with
  | zero =>
      have : n = 0 := by simpa using fits
      subst this
      rfl
  | succ width ih =>
      have high : n / 16 < Nat.pow 16 width := by
        change n < Nat.pow 16 width * 16 at fits
        omega
      have step := ih high
      simp only [ofDigits] at step
      simp only [digits, ofDigits, List.foldl_append, List.foldl_cons, List.foldl_nil, step,
        value_digit (Nat.mod_lt n (by decide : 0 < 16))]
      omega

end Asm6510.Text.Hex
