import Asm6510.Proofs.Operand.Spelled
import Asm6510.Proofs.Source.Rescan

/-! The kind of a token and the text of a token say the same. A scan decides on a kind by trying one
form after the other at the start of a text, and an operand is judged by its text from end to end;
the two agree because no text is spelt like tokens of two kinds.
-/

namespace Asm6510.Source

open Machine (Mode Shape)
open Operand
open Text

/-- The modes that a token can be the operand of. A byte is a zero-page address or a displacement,
and of the names only the accumulator's is an operand by itself.
-/
def Token.modes (token : Token) : List Mode :=
  match token.kind with
  | .operand .zeroPage => [.zeroPage, .relative]
  | .operand mode => [mode]
  | .ident => if token.text = "A" then [.accumulator] else []
  | _ => []

/-- The number that the digits of a text stand for. -/
def digitsValue (text : String) : Nat :=
  Hex.ofDigits (text.toList.filter Hex.isDigit)

/-- A token whose text is judged as its kind says. -/
structure Classified (token : Token) : Prop where
  reference : isReference token.text = true ↔ token.kind = .ident
  byte : isByte token.text = true ↔ token.kind = .operand .zeroPage
  word : isWord token.text = true ↔ token.kind = .operand .absolute
  value : (wordValue? token.text).isSome = true ↔ token.kind = .operand .absolute
  modes : ∀ mode : Mode, mode.accepts token.text = true ↔ mode ∈ token.modes
  /-- Where one byte follows the opcode, it is the number in the text. -/
  byteRead
    : ∀ mode ∈ token.modes, mode.length = 2
      → ∃ b, byteIn? token.text = some b ∧ b.toNat = digitsValue token.text
  /-- Where two bytes follow it, they are the number in the text with its low byte first. -/
  wordRead
    : ∀ mode ∈ token.modes, mode.length = 3
      → ∃ low high,
          (wordIn? token.text).map littleEndian = some [low, high]
          ∧ low.toNat + 256 * high.toNat = digitsValue token.text

-----------------------------------------------------------------------------------------
-- A text is spelt like tokens of one kind only
-----------------------------------------------------------------------------------------

/-- Tokens with one text have one kind, the kind that a scan of the text decides on. -/
theorem Spelt.unique {kind other : Kind} {cs : List Char} (spelt : Spelt kind cs)
    (also : Spelt other cs)
    : kind = other := by
  obtain ⟨gap, _, -, -, found⟩ := spelt.find?_append .nil
  obtain ⟨gap', _, -, -, found'⟩ := also.find?_append .nil
  rw [found] at found'
  exact (Lexeme.mk.inj (Option.some.inj found')).2

/-- Every text that is a reference is spelt like a name or a marked name. -/
theorem spelt_of_isReference {text : String} (reference : isReference text = true)
    : Spelt .ident text.toList := by
  have measured : nameLength? (unmarked text.toList) = some (unmarked text.toList).length := by
    simpa [isReference] using reference
  obtain ⟨name, rest, split, named, length⟩ := nameLength?_eq_some measured
  obtain rfl : rest = [] := by
    rw [split, List.length_append] at length
    exact List.eq_nil_of_length_eq_zero (by omega)
  rw [List.append_nil] at split
  generalize text.toList = cs at split ⊢
  cases cs with
  | nil => exact absurd split.symm named.nonempty
  | cons c cs =>
      cases marked : Part.mark? (c :: cs) with
      | none =>
          obtain rfl : c :: cs = name := by simpa [unmarked, marked] using split
          exact .name named
      | some part =>
          obtain rfl : cs = name := by simpa [unmarked, marked] using split
          exact .marked (mark?_eq_some marked) named

/-- A text that a scanned mode accepts is spelt like the operands of that mode. -/
theorem spelt_of_accepts {mode : Mode} {text : String} (member : mode ∈ Lexeme.literalModes)
    (accepted : mode.accepts text = true)
    : Spelt (.operand mode) text.toList := by
  rcases Mode.accepts_cases accepted with ⟨rfl, -⟩ | ⟨shape, shaped, fitting⟩
  · exact absurd member (by decide)
  · obtain ⟨digits, spelt, counted, valid⟩ := Shape.fits_iff.mp fitting
    rw [spelt]
    exact .operand member shaped counted valid

/-- The operands of a scanned mode are what the mode accepts. -/
theorem Spelt.accepts {mode : Mode} {text : String} (spelt : Spelt (.operand mode) text.toList)
    : mode ∈ Lexeme.literalModes ∧ mode.accepts text = true := by
  generalize written : text.toList = cs at spelt
  cases spelt with
  | @operand _ shape digits member shaped counted valid =>
      have fitting : shape.fits text = true :=
        Shape.fits_iff.mpr ⟨digits, written, counted, valid⟩
      refine ⟨member, ?_⟩
      cases mode <;> simp_all [Mode.accepts, Mode.shape?]

variable {token : Token}

/-- A scanned mode accepts exactly the tokens that are scanned as its operands. -/
theorem accepts_iff_kind (spelt : Spelt token.kind token.text.toList) {mode : Mode}
    (member : mode ∈ Lexeme.literalModes)
    : mode.accepts token.text = true ↔ token.kind = .operand mode := by
  constructor
  · intro accepted
    exact spelt.unique (spelt_of_accepts member accepted)
  · intro kind
    rw [kind] at spelt
    exact spelt.accepts.2

theorem isReference_iff_kind (spelt : Spelt token.kind token.text.toList)
    : isReference token.text = true ↔ token.kind = .ident := by
  constructor
  · intro reference
    exact spelt.unique (spelt_of_isReference reference)
  · intro kind
    rw [kind] at spelt
    simpa using spelt.isReference

theorem accepts_accumulator_iff (spelt : Spelt token.kind token.text.toList)
    : Mode.accumulator.accepts token.text = true ↔ token.kind = .ident ∧ token.text = "A" := by
  have spelling : Mode.accumulator.accepts token.text = true ↔ token.text = "A" := by
    simp [Mode.accepts]
  rw [spelling]
  constructor
  · intro name
    refine ⟨(isReference_iff_kind spelt).mp ?_, name⟩
    rw [name]
    decide
  · intro named
    exact named.2

/-- A mode is scanned, or is one of the three that have no literals of their own. -/
theorem mem_literalModes_or (mode : Mode)
    : mode ∈ Lexeme.literalModes
      ∨ mode = .implied ∨ mode = .accumulator ∨ mode = .relative := by
  cases mode <;> decide

theorem mem_modes_iff {mode : Mode}
    : mode ∈ token.modes
      ↔ token.kind = .operand mode
        ∨ mode = .relative ∧ token.kind = .operand .zeroPage
        ∨ mode = .accumulator ∧ token.kind = .ident ∧ token.text = "A" := by
  obtain ⟨kind, text, pos⟩ := token
  cases kind with
  | operand other => cases other <;> simp [Token.modes, eq_comm]
  | ident => by_cases name : text = "A" <;> simp [Token.modes, name]
  | directive _ | text _ | assignment _ | label _ => simp [Token.modes]

/-- The modes that accept a token's text are those of the token. -/
theorem accepts_iff_mem_modes (spelt : Spelt token.kind token.text.toList) (mode : Mode)
    : mode.accepts token.text = true ↔ mode ∈ token.modes := by
  have scanned {mode : Mode} (kind : token.kind = .operand mode) : mode ∈ Lexeme.literalModes :=
    (kind ▸ spelt).accepts.1
  rw [mem_modes_iff]
  rcases mem_literalModes_or mode with member | rfl | rfl | rfl
  · have others : mode ≠ .relative ∧ mode ≠ .accumulator :=
      ⟨by rintro rfl; revert member; decide, by rintro rfl; revert member; decide⟩
    simp [accepts_iff_kind spelt member, others]
  · have unscanned : token.kind ≠ .operand .implied :=
      fun kind => absurd (scanned kind) (by decide)
    simp [Mode.accepts, Mode.shape?, unscanned]
  · have unscanned : token.kind ≠ .operand .accumulator :=
      fun kind => absurd (scanned kind) (by decide)
    simp [accepts_accumulator_iff spelt, unscanned]
  · have unscanned : token.kind ≠ .operand .relative :=
      fun kind => absurd (scanned kind) (by decide)
    have same : Mode.relative.accepts token.text = Mode.zeroPage.accepts token.text := rfl
    simp [same, accepts_iff_kind spelt (show Mode.zeroPage ∈ Lexeme.literalModes by decide),
      unscanned]

-----------------------------------------------------------------------------------------
-- The number in a literal
-----------------------------------------------------------------------------------------

/-- The digits of a literal are its only digits. -/
theorem filter_isDigit_literal {mode : Mode} {shape : Shape} (shaped : mode.shape? = some shape)
    {digits : List Char} (valid : digits.all Hex.isDigit = true)
    : (shape.opening.toList ++ (digits ++ shape.closing.toList)).filter Hex.isDigit = digits := by
  have plain := List.all_eq_true.mp (Mode.shape?_plain shaped)
  have opening : shape.opening.toList.filter Hex.isDigit = [] :=
    List.filter_eq_nil_iff.mpr fun c member => by simpa using plain c (by simp [member])
  have closing : shape.closing.toList.filter Hex.isDigit = [] :=
    List.filter_eq_nil_iff.mpr fun c member => by simpa using plain c (by simp [member])
  have middle : digits.filter Hex.isDigit = digits :=
    List.filter_eq_self.mpr (List.all_eq_true.mp valid)
  rw [List.filter_append, List.filter_append, opening, closing, middle, List.nil_append,
    List.append_nil]

/-- An operand with bytes after its opcode holds the number of its digits, which they have room
for.
-/
theorem numberIn?_eq_digitsValue {mode : Mode} {text : String}
    (accepted : mode.accepts text = true) (long : mode.length ≠ 1)
    : numberIn? (2 * (mode.length - 1)) text = some (digitsValue text)
      ∧ digitsValue text < Nat.pow 16 (2 * (mode.length - 1)) := by
  rcases Mode.accepts_cases accepted with ⟨rfl, -⟩ | ⟨shape, shaped, fitting⟩
  · exact absurd rfl long
  · obtain ⟨digits, spelt, counted, valid⟩ := Shape.fits_iff.mp fitting
    have number : digitsValue text = Hex.ofDigits digits := by
      rw [digitsValue, spelt, filter_isDigit_literal shaped valid]
    rw [← (Mode.shape?_digits shaped).1, number]
    refine ⟨numberIn?_of_fits mode shaped digits spelt counted valid, ?_⟩
    rw [← counted]
    exact Hex.ofDigits_lt valid

theorem classified_of_spelt (spelt : Spelt token.kind token.text.toList)
    : Classified token where
  reference := isReference_iff_kind spelt
  byte := accepts_iff_kind spelt (show Mode.zeroPage ∈ Lexeme.literalModes by decide)
  word := accepts_iff_kind spelt (show Mode.absolute ∈ Lexeme.literalModes by decide)
  value := by
    rw [← accepts_iff_kind spelt (show Mode.absolute ∈ Lexeme.literalModes by decide),
      Option.isSome_iff_exists]
    constructor
    · rintro ⟨w, found⟩
      exact (wordValue?_eq_some_iff.mp found).1
    · intro word
      exact wordValue?_of_isWord word
  modes := accepts_iff_mem_modes spelt
  byteRead := by
    intro mode member two
    obtain ⟨read, small⟩ :=
      numberIn?_eq_digitsValue ((accepts_iff_mem_modes spelt mode).mpr member) (by omega)
    rw [two] at read small
    have small : digitsValue token.text < 256 := small
    refine ⟨UInt8.ofNat (digitsValue token.text), by simp [byteIn?, read], ?_⟩
    rw [UInt8.toNat_ofNat']
    omega
  wordRead := by
    intro mode member three
    obtain ⟨read, small⟩ :=
      numberIn?_eq_digitsValue ((accepts_iff_mem_modes spelt mode).mpr member) (by omega)
    rw [three] at read small
    have small : digitsValue token.text < 65536 := small
    have found : wordIn? token.text = some (UInt16.ofNat (digitsValue token.text)) := by
      simp [wordIn?, read]
    refine ⟨_, _, by rw [found]; rfl, ?_⟩
    rw [lowByte_add_highByte, UInt16.toNat_ofNat']
    omega

/-- Every token of a source is judged as its kind says. -/
theorem tokens_classified {file code : String} {token : Token} (member : token ∈ tokens file code)
    : Classified token :=
  classified_of_spelt (spelt_of_mem_tokens member).1

/-- A word is cut off where its four digits end, though more of them follow. -/
theorem tokens_classified_word
    : tokens "t" "LDA $D0201"
        = [⟨.ident, "LDA", ⟨"t", 0, 0⟩⟩, ⟨.operand .absolute, "$D020", ⟨"t", 0, 4⟩⟩,
          ⟨.ident, "1", ⟨"t", 0, 9⟩⟩]
      ∧ Classified ⟨.operand .absolute, "$D020", ⟨"t", 0, 4⟩⟩ := by
  have scanned : tokens "t" "LDA $D0201"
      = [⟨.ident, "LDA", ⟨"t", 0, 0⟩⟩, ⟨.operand .absolute, "$D020", ⟨"t", 0, 4⟩⟩,
        ⟨.ident, "1", ⟨"t", 0, 9⟩⟩] := by
    decide +kernel
  exact ⟨scanned, tokens_classified (by rw [scanned]; simp)⟩

end Asm6510.Source
