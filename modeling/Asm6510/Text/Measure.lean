/-! Text measured in the bytes of its UTF-8 encoding, and fields padded to a number of
characters.
-/

namespace Asm6510.Text

/-- The bytes of a text's UTF-8 encoding. -/
def encode (s : String) : List UInt8 :=
  s.toList.flatMap String.utf8EncodeChar

/-- How many bytes a run of characters takes; columns are counted in this measure. -/
def byteLength (cs : List Char) : Nat :=
  cs.foldr (fun c length => c.utf8Size + length) 0

/-- `n` blanks. -/
def blanks (n : Nat) : String :=
  String.ofList (List.replicate n ' ')

/-- Blanks after the text up to `width` characters. -/
def padRight (width : Nat) (s : String) : String :=
  s ++ blanks (width - s.length)

/-- Blanks before the text up to `width` characters. -/
def padLeft (width : Nat) (s : String) : String :=
  blanks (width - s.length) ++ s

/-- The decimal numeral of a number. -/
def decimal (n : Nat) : String :=
  String.ofList (Nat.toDigits 10 n)

@[simp]
theorem byteLength_nil : byteLength [] = 0 :=
  rfl

@[simp]
theorem byteLength_cons (c : Char) (cs : List Char)
    : byteLength (c :: cs) = c.utf8Size + byteLength cs :=
  rfl

@[simp]
theorem byteLength_append (cs ds : List Char)
    : byteLength (cs ++ ds) = byteLength cs + byteLength ds := by
  induction cs with
  | nil => simp
  | cons c cs ih => simp [ih, Nat.add_assoc]

end Asm6510.Text
