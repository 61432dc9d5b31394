/-! Blank characters, and text without the blanks at its end. -/

namespace Asm6510.Text

/-- The characters with the Unicode property White_Space, as inclusive ranges of code points
in increasing order.
-/
def blankRanges : List (Nat × Nat) :=
  [(0x09, 0x0D), (0x20, 0x20), (0x85, 0x85), (0xA0, 0xA0), (0x1680, 0x1680),
    (0x2000, 0x200A), (0x2028, 0x2029), (0x202F, 0x202F), (0x205F, 0x205F),
    (0x3000, 0x3000)]

/-- Whether a character is blank: it separates tokens and belongs to none. -/
def isBlank (c : Char) : Bool :=
  blankRanges.any fun range => range.1 ≤ c.toNat && c.toNat ≤ range.2

/-- Text without the blanks at its end. -/
def trimEnd (cs : List Char) : List Char :=
  (cs.reverse.dropWhile isBlank).reverse

/-- Letters and digits of ASCII: the characters of names. -/
def isAlphanumeric (c : Char) : Bool :=
  c.isAlphanum

/-- What is left without the blanks at the end is a beginning of the text. -/
theorem trimEnd_prefix_self (cs : List Char)
    : trimEnd cs <+: cs := by
  have suffix := List.dropWhile_suffix isBlank (l := cs.reverse)
  simpa [trimEnd] using List.reverse_prefix.mpr suffix

end Asm6510.Text
