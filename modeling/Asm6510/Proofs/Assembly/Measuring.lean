import Asm6510.Proofs.Assembly.Bindings
import Asm6510.Proofs.Machine.Branches

/-! The first pass measures with guesses. What an instruction is measured as takes as many bytes
as what is emitted, if branches have no other mode and each variable used before it is assigned
turns out to be a word.
-/

namespace Asm6510.Assembly

open Machine (BranchAlone Instruction InstructionSet Mode)
open Operand
open Source (Token)

variable {set : InstructionSet} {table known : Symbols} {here : UInt16}
  {instruction : Instruction} {operand token : Token} {plain text : String} {mode : Mode}
  {opcode : UInt8}

/-- The mode of a branch that has no other mode. -/
theorem relative_of_selected (alone : BranchAlone instruction)
    (branch : instruction.isBranch = true)
    (selected : selectMode? instruction text = some (mode, opcode))
    : mode = .relative :=
  alone branch (mode, opcode) (List.mem_of_find?_eq_some selected)

/-- An emitted text is converted to itself when it is measured: only a text that is neither word
nor byte would be measured differently, and a branch does not accept it.
-/
theorem converted_prescan (alone : BranchAlone instruction)
    (encoded : converted .assemble here instruction plain = .ok text)
    (selected : selectMode? instruction text = some (mode, opcode))
    : converted .prescan here instruction plain = .ok text := by
  cases branch : instruction.isBranch with
  | false =>
      rw [converted_of_not_branch branch] at encoded ⊢
      exact encoded
  | true =>
      refine (converted_eq_ok_iff branch).mpr ?_
      rcases (converted_eq_ok_iff branch).mp encoded with
        target | displacement | ⟨-, notByte, ⟨impossible, -⟩ | ⟨-, rfl⟩⟩
      · exact .inl target
      · exact .inr (.inl displacement)
      · cases impossible
      · obtain rfl := relative_of_selected alone branch selected
        have byte : isByte text = true := (selectMode?_eq_some selected).1
        rw [notByte] at byte
        cases byte

/-- Texts that are both words are accepted by the same modes. -/
theorem accepts_eq_of_words {other : String} (word : isWord text = true)
    (word' : isWord other = true) (mode : Mode)
    : mode.accepts text = mode.accepts other := by
  rw [Bool.eq_iff_iff, accepts_word_iff word, accepts_word_iff word']

theorem accepts_formatImmediate_eq (b c : UInt8) (mode : Mode)
    : mode.accepts (formatImmediate b) = mode.accepts (formatImmediate c) := by
  rw [Bool.eq_iff_iff, accepts_immediate_iff (accepts_formatImmediate b),
    accepts_immediate_iff (accepts_formatImmediate c)]

/-- A guessed branch is measured as a displacement, which takes two bytes. -/
theorem measured_branch (alone : BranchAlone instruction) (branch : instruction.isBranch = true)
    : ∃ text opcode,
        converted .prescan here instruction (formatWord here) = .ok text
        ∧ selectMode? instruction text = some (.relative, opcode) := by
  have encoded : converted .prescan here instruction (formatWord here) = .ok (formatByte 254) :=
    (converted_eq_ok_iff branch).mpr
      (.inl ⟨here, 254, wordValue?_formatWord here, displacement_self here, rfl⟩)
  have accepted := (accepts_byte_iff (isByte_formatByte 254)).mpr (.inr rfl)
  obtain ⟨⟨mode, opcode⟩, selected⟩ := selectMode?_isSome branch accepted
  obtain rfl := relative_of_selected alone branch selected
  exact ⟨_, opcode, encoded, selected⟩

/-- A guess is measured in a mode as long as the mode that the meaning is emitted in.
Witness: a marked name is immediate in both, an unmarked one is a word or a branch in both.
-/
theorem guess_measured (alone : BranchAlone instruction) {symbol : Symbol}
    (words : instruction.isBranch = false → part? operand.text = none
      → isWord symbol.operand = true)
    (substituted : substitute operand.text symbol = .ok plain)
    (encoded : converted .assemble here instruction plain = .ok text)
    (selected : selectMode? instruction text = some (mode, opcode))
    : ∃ measured mode' opcode',
        converted .prescan here instruction (guess operand.text here) = .ok measured
        ∧ selectMode? instruction measured = some (mode', opcode')
        ∧ mode'.length = mode.length := by
  rcases substitute_eq_ok_iff.mp substituted with ⟨unmarked, rfl⟩ | ⟨part, w, marked, -, rfl⟩
  · have guessed : guess operand.text here = formatWord here := by
      simp [guess, isExtract, unmarked]
    rw [guessed]
    cases branch : instruction.isBranch with
    | true =>
        obtain rfl := relative_of_selected alone branch selected
        obtain ⟨measured, opcode', encoded, selected⟩ := measured_branch alone branch
        exact ⟨measured, .relative, opcode', encoded, selected, rfl⟩
    | false =>
        rw [converted_of_not_branch branch] at encoded
        obtain rfl := Except.ok.inj encoded
        have same := accepts_eq_of_words (isWord_formatWord here) (words branch unmarked)
        exact ⟨formatWord here, mode, opcode, converted_of_not_branch branch _,
          (selectMode?_congr same).trans selected, rfl⟩
  · have guessed : guess operand.text here = formatImmediate 0 := by
      simp [guess, isExtract, marked]
    rw [guessed]
    cases branch : instruction.isBranch with
    | true =>
        -- A branch has no immediate mode, so the marked name is not emitted at all.
        rw [converted_immediate (accepts_formatImmediate _)] at encoded
        obtain rfl := Except.ok.inj encoded
        have accepted := (selectMode?_eq_some selected).1
        rw [relative_of_selected alone branch selected, accepts_immediate_iff (accepts_formatImmediate _)]
          at accepted
        cases accepted
    | false =>
        rw [converted_of_not_branch branch] at encoded
        obtain rfl := Except.ok.inj encoded
        have same := accepts_formatImmediate_eq 0 (part.of w)
        exact ⟨formatImmediate 0, mode, opcode, converted_of_not_branch branch _,
          (selectMode?_congr same).trans selected, rfl⟩

/-- An instruction that can be emitted with the whole table can be measured with the part of it
that is known, and is measured as long as it is.
-/
theorem operate_measured (alone : BranchAlone instruction) {row : Row}
    (kept : ∀ symbol, known.get? (referent operand.text) = some symbol
      → table.get? (referent operand.text) = some symbol)
    (words : known.get? (referent operand.text) = none → isLookedUp instruction operand = true
      → instruction.isBranch = false → part? operand.text = none
      → ∀ symbol, table.get? (referent operand.text) = some symbol
        → isWord symbol.operand = true)
    (emitted : (operate set .assemble table here token instruction operand).outcome = .ok row)
    : ∃ measured,
        (operate set .prescan known here token instruction operand).outcome = .ok measured
        ∧ measured.bytes.length = row.bytes.length := by
  obtain ⟨plain, text, mode, opcode, resolved, encoded, selected, rfl⟩ :=
    operate_eq_ok_iff.mp emitted
  rcases resolve_cases resolved with
    ⟨literal, rfl⟩ | ⟨sought, name, ⟨symbol, meant, substituted⟩ | ⟨_, impossible, _⟩⟩
  · exact ⟨_, operate_eq_ok_iff.mpr ⟨operand.text, text, mode, opcode, resolve_of_literal literal,
      converted_prescan alone encoded selected, selected, rfl⟩, rfl⟩
  · cases found : known.get? (referent operand.text) with
    | some other =>
        obtain rfl : other = symbol := Option.some.inj ((kept other found).symm.trans meant)
        exact ⟨_, operate_eq_ok_iff.mpr ⟨plain, text, mode, opcode,
          (resolve_of_known sought name found).trans substituted,
          converted_prescan alone encoded selected, selected, rfl⟩, rfl⟩
    | none =>
        obtain ⟨measured, mode', opcode', encoded', selected', long⟩ := guess_measured alone
          (fun branch unmarked => words found sought branch unmarked symbol meant)
          substituted encoded selected
        refine ⟨_, operate_eq_ok_iff.mpr ⟨_, measured, mode', opcode',
          resolve_of_unknown sought name found, encoded', selected', rfl⟩, ?_⟩
        rw [length_operandRow_bytes selected', length_operandRow_bytes selected, long]
  · cases impossible

end Asm6510.Assembly
