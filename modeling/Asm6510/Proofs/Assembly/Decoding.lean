import Asm6510.Proofs.Assembly.Passes
import Asm6510.Proofs.Assembly.Statements
import Asm6510.Proofs.Machine.Built
import Asm6510.Proofs.Operand.Spelled

/-! Instructions read back from their bytes. The opcode of every emitted instruction decodes to the
instruction and mode that it was selected for, so that a program without data is read back, one
instruction after the other, from its bytes alone.
-/

namespace Asm6510.Assembly

open Machine (Built Indexed Instruction InstructionSet Mode)
open Operand
open Progress (Change)
open Source (Directive Token)

/-- An instruction read back from bytes: what its opcode decodes to, and the bytes after it. -/
structure Decoded where
  instruction : Instruction
  mode : Mode
  opcode : UInt8
  operand : List UInt8
deriving DecidableEq, Repr

/-- A text that writes an instruction: its mnemonic, and its operand unless that is implied. -/
def Decoded.WrittenAs (decoded : Decoded) (text : String) : Prop :=
  match decoded.mode with
  | .implied => text = decoded.instruction.mnemonic
  | mode =>
      ∃ operand,
        text = decoded.instruction.mnemonic ++ " " ++ operand
        ∧ Spells mode decoded.operand operand

/-- A row that holds an instruction: its bytes decode to the instruction, as many as the mode says,
and its text writes them.
-/
structure Row.Decodes (set : InstructionSet) (row : Row) (decoded : Decoded) : Prop where
  bytes : row.bytes = decoded.opcode :: decoded.operand
  decode : set.decode decoded.opcode = some (decoded.instruction, decoded.mode)
  bound : decoded.instruction.opcode? decoded.mode = some decoded.opcode
  length : row.bytes.length = decoded.mode.length
  text : decoded.WrittenAs row.text

/-- Reads bytes as instructions one after the other: an opcode is decoded, and the next one is
looked for behind the operand that its mode has.
-/
def sweep (set : InstructionSet) (bytes : List UInt8) : Option (List Decoded) :=
  match bytes with
  | [] => some []
  | opcode :: rest => do
      let (instruction, mode) ← set.decode opcode
      let others ← sweep set (rest.drop mode.operandBytes)
      return ⟨instruction, mode, opcode, rest.take mode.operandBytes⟩ :: others
termination_by bytes.length
decreasing_by simp only [List.length_cons, List.length_drop]; omega

/-- Whether a statement is an instruction. -/
def Statement.isInstruction : Statement → Bool
  | implied _ _ _ | operate _ _ _ => true
  | origin _ _ | data _ _ _ | string _ _ | label _ _ | assign _ _ _ | stray _ => false

/-- An instruction puts bytes into the output. -/
theorem Statement.emits_of_isInstruction {statement : Statement}
    (instructs : statement.isInstruction = true)
    : statement.emits = true := by
  cases statement <;> simp_all [isInstruction, emits]

variable {set : InstructionSet} {pass : Pass} {table : Symbols} {here : UInt16} {counter : Nat}
  {instruction : Instruction} {mode : Mode} {opcode : UInt8} {text : String} {row : Row}
  {statement : Statement} {statements : List Statement} {tokens : List Token}
  {changes : List Change}

/-- A bound opcode decodes to the mode that it is bound to. -/
theorem decode_of_opcode? {mnemonic : String} (indexed : Indexed set)
    (found : set.lookup mnemonic = some instruction)
    (bound : instruction.opcode? mode = some opcode)
    : set.decode opcode = some (instruction, mode) := by
  have listed := List.mem_of_find?_eq_some found
  obtain ⟨before, after, split, -⟩ := List.lookup_eq_some_iff.mp bound
  exact indexed.decode_of_mem listed (by simp [split])

/-- The row of an implied instruction holds it. -/
theorem decodes_implied {token : Token} {mnemonic : String} (indexed : Indexed set)
    (found : set.lookup mnemonic = some instruction)
    (bound : instruction.opcode? .implied = some opcode)
    (made : ((Statement.implied token instruction opcode).effect set pass table here).outcome
      = .ok (.emit row))
    : row.Decodes set ⟨instruction, .implied, opcode, []⟩ := by
  cases made
  exact ⟨rfl, decode_of_opcode? indexed found bound, bound, rfl, rfl⟩

/-- The row of an instruction with an operand holds it, in the mode selected for the operand. -/
theorem decodes_operate {token operand : Token} {mnemonic : String} (indexed : Indexed set)
    (found : set.lookup mnemonic = some instruction)
    (made : (operate set pass table here token instruction operand).outcome = .ok row)
    : ∃ decoded, row.Decodes set decoded ∧ decoded.instruction = instruction := by
  obtain ⟨_, text, mode, opcode, -, -, selected, rfl⟩ := operate_eq_ok_iff.mp made
  obtain ⟨accepted, bound⟩ := selectMode?_eq_some selected
  have length : (operandRow here token instruction operand text mode opcode).bytes.length
      = mode.length :=
    length_operandRow_bytes selected
  refine ⟨⟨instruction, mode, opcode, operandBytes mode text⟩,
    ⟨rfl, decode_of_opcode? indexed found bound, bound, length, ?_⟩, rfl⟩
  have spelt := spells_of_accepts accepted
  cases mode with
  | implied => cases accepted
  | immediate | absoluteX | absoluteY | absolute | accumulator | zeroPageX | zeroPageY | zeroPage
  | indirectIndexedY | indirect | indexedIndirectX | relative => exact ⟨text, rfl, spelt⟩

/-- A statement that is an instruction starts with the mnemonic of an instruction of the set. -/
theorem starting_isInstruction {token : Token} {rest : List Token}
    (instructs : (Statement.starting set token rest).isInstruction = true)
    : ∃ instruction,
        set.lookup token.text = some instruction
        ∧ ((∃ opcode,
              instruction.opcode? .implied = some opcode
              ∧ Statement.starting set token rest = .implied token instruction opcode)
            ∨ Statement.starting set token rest = .operate token instruction rest.head?) := by
  obtain ⟨kind, text, pos⟩ := token
  cases kind with
  | directive directive => cases directive <;> cases instructs
  | text | assignment | label | operand => cases instructs
  | ident =>
      simp only [Statement.starting] at instructs ⊢
      cases found : set.lookup text with
      | none =>
          rw [found] at instructs
          cases instructs
      | some instruction =>
          refine ⟨instruction, rfl, ?_⟩
          cases bound : instruction.opcode? .implied with
          | none => exact Or.inr (by simp [bound])
          | some opcode => exact Or.inl ⟨opcode, rfl, by simp [bound]⟩

/-- What an instruction of a program emits holds the instruction of its mnemonic. -/
theorem decodes_of_effect (indexed : Indexed set)
    (member : statement ∈ Assembly.statements set tokens)
    (instructs : statement.isInstruction = true)
    (made : (statement.effect set pass table here).outcome = .ok (.emit row))
    : ∃ decoded,
        row.Decodes set decoded
        ∧ set.lookup statement.head.text = some decoded.instruction := by
  obtain ⟨token, rest, -, rfl⟩ := exists_starting_of_mem member
  obtain ⟨instruction, found, ⟨opcode, bound, same⟩ | same⟩ := starting_isInstruction instructs
  · rw [same] at made ⊢
    exact ⟨_, decodes_implied indexed found bound made, found⟩
  · rw [same] at made ⊢
    obtain ⟨operand, _, -, made, emitted⟩ := effect_operate_eq_ok_iff.mp made
    obtain rfl := Effect.emit.inj emitted
    obtain ⟨decoded, decodes, rfl⟩ := decodes_operate indexed found made
    exact ⟨decoded, decodes, found⟩

/-- A statement that emits is an instruction, or starts with a directive for data. -/
theorem isInstruction_of_emits (emitting : statement.emits = true)
    (member : statement ∈ Assembly.statements set tokens)
    (plain : ∀ token ∈ tokens, ∀ directive ∈ [Directive.byte, .word, .string],
      token.kind ≠ .directive directive)
    : statement.isInstruction = true := by
  obtain ⟨token, rest, inside, rfl⟩ := exists_starting_of_mem member
  have plain := plain token (inside.subset (by simp))
  obtain ⟨kind, text, pos⟩ := token
  cases kind with
  | directive directive =>
      cases directive with
      | org | includeFile => cases emitting
      | byte | word | string => exact absurd rfl (plain _ (by simp))
  | text | assignment | label | operand => cases emitting
  | ident =>
      simp only [Statement.starting] at emitting ⊢
      split at emitting
      · split at emitting <;> simp_all [Statement.isInstruction]
      · cases emitting

/-- Every row of a pass was emitted by one of its statements. -/
theorem Trace.exists_effect_of_mem_rows
    (trace : Trace set .assemble table counter statements changes) (member : row ∈ rows changes)
    : ∃ statement ∈ statements, ∃ here,
        (statement.effect set .assemble table here).outcome = .ok (.emit row) := by
  generalize second : Pass.assemble = pass at trace
  induction trace with
  | nil => cases member
  | @cons symbols counter statement statements change changes first rest ih =>
      subst second
      rw [first.grow_assemble] at rest ih
      cases first with
      | @emit _ emitted inside made fits =>
          have listed : row = emitted ∨ row ∈ rows changes := by
            simpa [rows, Pass.emitted] using member
          rcases listed with rfl | later
          · exact ⟨statement, by simp, _, made⟩
          · obtain ⟨other, found, made⟩ := ih later
            exact ⟨other, by simp [found], made⟩
      | move | label | assign | stray =>
          obtain ⟨other, found, made⟩ := ih member
          exact ⟨other, by simp [found], made⟩

/-- Rows that all hold instructions are read back from their bytes, each where it starts.
Witness: induction on the rows; the mode of each says how many bytes to skip.
-/
theorem sweep_rows {listing : List Row}
    (holding : ∀ row ∈ listing, ∃ decoded, row.Decodes set decoded)
    : ∃ items,
        sweep set (listing.flatMap (·.bytes)) = some items
        ∧ List.Forall₂ (Row.Decodes set) listing items := by
  induction listing with
  | nil => exact ⟨[], by simp [sweep], .nil⟩
  | cons row listing ih =>
      obtain ⟨decoded, decodes⟩ := holding row (by simp)
      obtain ⟨items, swept, all⟩ := ih fun other member => holding other (by simp [member])
      refine ⟨decoded :: items, ?_, .cons decodes all⟩
      have operand : decoded.operand.length = decoded.mode.operandBytes := by
        have length := decodes.length
        rw [decodes.bytes, List.length_cons] at length
        rw [Mode.operandBytes, ← length, Nat.add_sub_cancel]
      rw [List.flatMap_cons, decodes.bytes, List.cons_append, sweep, decodes.decode]
      simp [← operand, swept]

/-- Encoding is undone by decoding. In a run with a set that was built entry by entry, the row of
each instruction holds the instruction of its mnemonic; and where a source has no directives for
data, a sweep over the bytes gives the instructions of the listing in their order.
-/
theorem runSource_decodes {assembler : Assembler} (built : Built assembler.set)
    {file code : String} {base : UInt16} {output : Output}
    (succeeded : (assembler.runSource file code base).2 = .ok output)
    : ∃ tokens,
        (Source.expand assembler.library assembler.root file code).outcome = .ok tokens
        ∧ (∀ front statement back,
            Assembly.statements assembler.set tokens = front ++ statement :: back
            → statement.isInstruction = true
            → ∃ row decoded,
                output.rows[front.countP Statement.emits]? = some row
                ∧ row.Decodes assembler.set decoded
                ∧ decoded.instruction.mnemonic = statement.head.text)
        ∧ ((∀ token ∈ tokens, ∀ directive ∈ [Directive.byte, .word, .string],
              token.kind ≠ .directive directive)
            → ∃ items,
                sweep assembler.set output.bytes = some items
                ∧ List.Forall₂ (Row.Decodes assembler.set) output.rows items) := by
  obtain ⟨tokens, log, expanded, succeeded⟩ := expand_of_runSource succeeded
  obtain ⟨firsts, seconds, passes, -, rfl⟩ := twoPass_eq_ok_iff.mp succeeded
  refine ⟨tokens, expanded, ?_, ?_⟩
  · intro front statement back split instructs
    have trace := passes.assemble
    rw [split] at trace
    obtain ⟨_, row, -, listed, made⟩ :=
      trace.row_of_emits (Statement.emits_of_isInstruction instructs)
    have member : statement ∈ Assembly.statements assembler.set tokens := by simp [split]
    obtain ⟨decoded, decodes, found⟩ := decodes_of_effect built.indexed member instructs made
    exact ⟨row, decoded, listed, decodes, by simpa using List.find?_some found⟩
  · intro plain
    refine sweep_rows fun row member => ?_
    obtain ⟨statement, inside, _, made⟩ := passes.assemble.exists_effect_of_mem_rows member
    have instructs := isInstruction_of_emits (address_of_effect made).1 inside plain
    obtain ⟨decoded, decodes, -⟩ := decodes_of_effect built.indexed inside instructs made
    exact ⟨decoded, decodes⟩

theorem built_smallSet
    : Built smallSet :=
  ((((((Built.empty.register "JMP" "Jump").bind "JMP" .absolute 0x4C).register "BNE" "Branch").bind
    "BNE" .relative 0xD0).register "LDA" "Load").bind "LDA" .zeroPage 0xA5).bind "LDA" .absolute 0xAD

theorem runSource_decodes_loop
    : ∃ output items,
        (smallAssembler.runSource "t" "JMP loop loop: BNE loop" 0xC000).2 = .ok output
        ∧ sweep smallSet output.bytes = some items
        ∧ items.map (fun item => (item.instruction.mnemonic, item.mode, item.operand))
          = [("JMP", .absolute, [0x03, 0xC0]), ("BNE", .relative, [0xFE])]
        ∧ List.Forall₂ (Row.Decodes smallSet) output.rows items := by
  have bytes : (smallAssembler.runSource "t" "JMP loop loop: BNE loop" 0xC000).2.toOption.map
        (fun output => (sweep smallSet output.bytes).map fun items =>
          items.map fun item => (item.instruction.mnemonic, item.mode, item.operand))
      = some (some [("JMP", .absolute, [0x03, 0xC0]), ("BNE", .relative, [0xFE])]) := by
    decide +kernel
  cases succeeded : (smallAssembler.runSource "t" "JMP loop loop: BNE loop" 0xC000).2 with
  | error fault => simp [succeeded, Except.toOption] at bytes
  | ok output =>
      obtain ⟨tokens, expanded, -, swept⟩ := runSource_decodes built_smallSet succeeded
      obtain rfl := Except.ok.inj (expanded.symm.trans expand_loop)
      obtain ⟨items, swept, all⟩ := swept (by decide)
      have read : sweep smallSet output.bytes = some items := swept
      refine ⟨output, items, rfl, read, ?_, all⟩
      simpa [succeeded, Except.toOption, read] using bytes

end Asm6510.Assembly
