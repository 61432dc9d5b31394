import Asm6510.Assembly.Effect
import Asm6510.Proofs.Operand.Outline

/-! Numbers in operands. A literal holds the number that its digits stand for, a number written
as an operand reads back as itself, and the bytes after an opcode are as many as its mode says.
-/

namespace Asm6510.Operand

open Machine (Mode Shape)
open Text

/-- The number of a literal stands right after its opening, so its digits are the ones read.
Witness: the opening of a mode's shape ends in the text's first dollar sign.
-/
theorem numberIn?_of_fits (mode : Mode) {shape : Shape} (shaped : mode.shape? = some shape)
    {text : String} (digits : List Char)
    (spelt : text.toList = shape.opening.toList ++ (digits ++ shape.closing.toList))
    (counted : digits.length = shape.digits) (valid : digits.all Hex.isDigit = true)
    : numberIn? shape.digits text = some (Hex.ofDigits digits) := by
  have skipped : text.toList.dropWhile (· != '$')
      = '$' :: (digits ++ shape.closing.toList) := by
    have opening := Mode.shape?_opening shaped
    rw [spelt, List.dropWhile_append, opening]
    rfl
  have taken : (digits ++ shape.closing.toList).take shape.digits = digits := by
    rw [← counted, List.take_left]
  simp only [numberIn?, skipped, taken, counted, valid, decide_true, Bool.and_self, if_true]

/-- An accepted literal holds a number of the width that its mode reads. -/
theorem numberIn?_of_accepts {mode : Mode} {text : String} (accepted : mode.accepts text = true)
    : mode.length = 1 ∨ ∃ n, numberIn? (2 * (mode.length - 1)) text = some n := by
  rcases Mode.accepts_cases accepted with ⟨rfl, -⟩ | ⟨shape, shaped, fitting⟩
  · exact Or.inl rfl
  · obtain ⟨digits, spelt, counted, valid⟩ := Shape.fits_iff.mp fitting
    rw [← (Mode.shape?_digits shaped).1]
    exact Or.inr ⟨_, numberIn?_of_fits mode shaped digits spelt counted valid⟩

/-- The opcode and the bytes after it are as many as the mode says. -/
theorem length_operandBytes {mode : Mode} {text : String} (accepted : mode.accepts text = true)
    : (Assembly.operandBytes mode text).length + 1 = mode.length := by
  rcases numberIn?_of_accepts accepted with one | ⟨n, found⟩
  · simp [Assembly.operandBytes, one]
  · rcases Mode.accepts_cases accepted with ⟨rfl, -⟩ | ⟨shape, shaped, -⟩
    · rfl
    · rcases (Mode.shape?_digits shaped).2 with two | three
      · rw [two] at found
        simp [Assembly.operandBytes, two, byteIn?, found]
      · rw [three] at found
        simp [Assembly.operandBytes, three, wordIn?, found, littleEndian]

/-- A text that is a word has a value. -/
theorem wordValue?_of_isWord {text : String} (word : isWord text = true)
    : ∃ w, wordValue? text = some w := by
  obtain ⟨digits, spelt, counted, valid⟩ := Shape.fits_iff.mp word
  have found := numberIn?_of_fits .absolute rfl digits spelt counted valid
  exact ⟨UInt16.ofNat (Hex.ofDigits digits), by
    simpa [wordValue?, word, wordIn?] using ⟨_, found, rfl⟩⟩

/-- Only a word has a value, and it is the word in the text. -/
theorem wordValue?_eq_some_iff {text : String} {w : UInt16}
    : wordValue? text = some w ↔ isWord text = true ∧ wordIn? text = some w := by
  simp [wordValue?]

theorem wordValue?_eq_none_iff {text : String}
    : wordValue? text = none ↔ isWord text = false := by
  constructor
  · intro missing
    by_contra word
    obtain ⟨w, found⟩ := wordValue?_of_isWord (by simpa using word)
    simp [found] at missing
  · intro plain
    simp [wordValue?, plain]

theorem toList_formatByte (b : UInt8)
    : (formatByte b).toList = '$' :: Hex.digits 2 b.toNat := by
  simp [formatByte, Hex.byte]

theorem toList_formatWord (w : UInt16)
    : (formatWord w).toList = '$' :: Hex.digits 4 w.toNat := by
  simp [formatWord, Hex.word]

theorem toList_formatImmediate (b : UInt8)
    : (formatImmediate b).toList = '#' :: '$' :: Hex.digits 2 b.toNat := by
  simp [formatImmediate, Hex.byte]

theorem isWord_formatWord (w : UInt16)
    : isWord (formatWord w) = true :=
  Shape.fits_iff.mpr ⟨Hex.digits 4 w.toNat, by simp [toList_formatWord, wordShape],
    Hex.length_digits _ _, Hex.all_isDigit_digits _ _⟩

theorem isByte_formatByte (b : UInt8)
    : isByte (formatByte b) = true :=
  Shape.fits_iff.mpr ⟨Hex.digits 2 b.toNat, by simp [toList_formatByte, byteShape],
    Hex.length_digits _ _, Hex.all_isDigit_digits _ _⟩

theorem accepts_formatImmediate (b : UInt8)
    : Mode.immediate.accepts (formatImmediate b) = true :=
  Shape.fits_iff.mpr ⟨Hex.digits 2 b.toNat, by simp [toList_formatImmediate],
    Hex.length_digits _ _, Hex.all_isDigit_digits _ _⟩

/-- A number written with the digits of a shape is the number read from it. -/
theorem numberIn?_written (mode : Mode) {shape : Shape} (shaped : mode.shape? = some shape)
    {text : String} {n : Nat} (fits : n < Nat.pow 16 shape.digits)
    (spelt : text.toList
      = shape.opening.toList ++ (Hex.digits shape.digits n ++ shape.closing.toList))
    : numberIn? shape.digits text = some n := by
  rw [numberIn?_of_fits mode shaped _ spelt (Hex.length_digits _ _) (Hex.all_isDigit_digits _ _),
    Hex.ofDigits_digits fits]

theorem byteIn?_formatByte (b : UInt8)
    : byteIn? (formatByte b) = some b := by
  have read : numberIn? 2 (formatByte b) = some b.toNat :=
    numberIn?_written .zeroPage rfl b.toNat_lt (by simp [toList_formatByte])
  simpa [byteIn?] using ⟨_, read, UInt8.ofNat_toNat⟩

theorem byteIn?_formatImmediate (b : UInt8)
    : byteIn? (formatImmediate b) = some b := by
  have read : numberIn? 2 (formatImmediate b) = some b.toNat :=
    numberIn?_written .immediate rfl b.toNat_lt (by simp [toList_formatImmediate])
  simpa [byteIn?] using ⟨_, read, UInt8.ofNat_toNat⟩

/-- A word written as an operand has itself as its value. -/
theorem wordValue?_formatWord (w : UInt16)
    : wordValue? (formatWord w) = some w := by
  have read : numberIn? 4 (formatWord w) = some w.toNat :=
    numberIn?_written .absolute rfl w.toNat_lt (by simp [toList_formatWord])
  exact wordValue?_eq_some_iff.mpr
    ⟨isWord_formatWord w, by simpa [wordIn?] using ⟨_, read, UInt16.ofNat_toNat⟩⟩

/-- A word is an operand of the absolute mode alone. -/
theorem accepts_word_iff {text : String} (word : isWord text = true) {mode : Mode}
    : mode.accepts text = true ↔ mode = .absolute := by
  have accepted : Mode.absolute.accepts text = true := word
  rw [Mode.accepts_iff_shape? rfl accepted]
  cases mode <;> simp [Mode.shape?]

/-- A byte is a zero-page address, or a displacement. -/
theorem accepts_byte_iff {text : String} (byte : isByte text = true) {mode : Mode}
    : mode.accepts text = true ↔ mode = .zeroPage ∨ mode = .relative := by
  have accepted : Mode.zeroPage.accepts text = true := byte
  rw [Mode.accepts_iff_shape? rfl accepted]
  cases mode <;> simp [Mode.shape?]

/-- No word is a byte. -/
theorem isByte_of_isWord {text : String} (word : isWord text = true)
    : isByte text = false := by
  rw [Bool.eq_false_iff]
  intro byte
  have zeroPage : Mode.zeroPage.accepts text = true := byte
  cases (accepts_word_iff word).mp zeroPage

/-- An immediate operand is an operand of that mode alone. -/
theorem accepts_immediate_iff {text : String}
    (immediate : Mode.immediate.accepts text = true) {mode : Mode}
    : mode.accepts text = true ↔ mode = .immediate := by
  rw [Mode.accepts_iff_shape? rfl immediate]
  cases mode <;> simp [Mode.shape?]

/-- The low byte and the high byte of a word make up the word. -/
theorem lowByte_add_highByte (word : UInt16)
    : (lowByte word).toNat + 256 * (highByte word).toNat = word.toNat := by
  have small := word.toNat_lt
  simp only [lowByte, highByte, UInt8.toNat_ofNat']
  omega

/-- A byte that holds an integer holds the same integer as a signed byte. -/
theorem toInt8_ofInt (i : Int)
    : (UInt8.ofInt i).toInt8 = Int8.ofInt i := by
  apply Int8.toBitVec.inj
  apply BitVec.eq_of_toNat_eq
  simp only [UInt8.ofInt, UInt8.toBitVec_toInt8, UInt8.toBitVec_ofNat', BitVec.toNat_ofNat,
    Int8.toBitVec_ofInt, BitVec.toNat_ofInt]
  omega

/-- A displacement byte, read as a signed number, leads from the byte after the branch to the
target exactly.
-/
theorem displacement_reaches {here target : UInt16} {offset : UInt8}
    (found : displacement here target = .ok offset)
    : (here.toNat : Int) + 2 + offset.toInt8.toInt = target.toNat := by
  simp only [displacement] at found
  split at found
  · rename_i inReach
    simp only [Bool.and_eq_true, decide_eq_true_eq] at inReach
    obtain rfl := Except.ok.inj found
    rw [toInt8_ofInt, Int8.toInt_ofInt_of_le (by omega) (by omega), distance]
    omega
  · simp at found

/-- A branch reaches its own address. -/
theorem displacement_self (here : UInt16)
    : displacement here here = .ok 254 := by
  have back : distance here here = -2 := by
    rw [distance]
    omega
  rw [displacement, back]
  rfl

end Asm6510.Operand
