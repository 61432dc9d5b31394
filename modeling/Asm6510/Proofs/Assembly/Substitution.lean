import Asm6510.Proofs.Assembly.Passes
import Asm6510.Proofs.Assembly.Statements
import Asm6510.Proofs.Source.Expanded

/-! Programs with their references written out. Where each reference of an instruction is replaced
by the text that it stands for, nothing is guessed or looked up any more, and the program is still
assembled to the same bytes, names and rows.
-/

namespace Asm6510

open Machine (Instruction InstructionSet Mode)
open Operand

namespace Source

/-- The kind of the token that a text is read as; a text that is no token counts as a name. -/
def kindOf (text : String) : Kind :=
  match tokens "" text with
  | [token] => token.kind
  | _ => .ident

/-- A token at the same place that holds another text, and has the kind of that text. -/
def Token.holding (token : Token) (text : String) : Token :=
  { token with kind := kindOf text, text }

/-- A text spelt like a token is read as a token of that kind. -/
theorem kindOf_of_spelt {kind : Kind} {text : String} (spelt : Spelt kind text.toList)
    (feedless : '\n' ∉ text.toList)
    : kindOf text = kind := by
  have single : ∀ token ∈ [(⟨kind, text, default⟩ : Token)],
      Spelt token.kind token.text.toList ∧ '\n' ∉ token.text.toList := by
    simp [spelt, feedless]
  have scanned := (rescanned_of_spelt "" single).same
  rw [flat, List.map_singleton, List.map_singleton, String.intercalate_singleton] at scanned
  obtain ⟨token, others, split, content, rest⟩ := List.map_eq_cons_iff.mp scanned
  obtain rfl : others = [] := by simpa using rest
  simp only [kindOf, split]
  exact (Prod.mk.inj content).1

/-- A literal of a mode's shape is spelt like a literal operand. The displacements have no kind of
their own, and are spelt like zero-page addresses.
-/
theorem spelt_of_fits {mode : Mode} {shape : Machine.Shape} (shaped : mode.shape? = some shape)
    {text : String} (fitting : shape.fits text = true)
    : ∃ literal, Spelt (.operand literal) text.toList ∧ '\n' ∉ text.toList := by
  have all : ∀ mode ∈ Mode.all, ∀ shape ∈ mode.shape?,
      ∃ literal ∈ Lexeme.literalModes, literal.shape? = some shape := by
    decide
  obtain ⟨literal, member, shaped'⟩ := all mode (Mode.mem_all mode) shape shaped
  obtain ⟨digits, spelt, counted, valid⟩ := Machine.Shape.fits_iff.mp fitting
  rw [spelt]
  refine ⟨literal, .operand member shaped' counted valid, fun feed => ?_⟩
  have other := Source.forall_mem_literal (· != '\n') ?_ (by decide) shaped valid _ feed
  · simp at other
  · intro c plain
    rw [bne_iff_ne]
    exact Source.ne_of_isAlphanumeric plain (by decide)

/-- An operand that a mode accepts is read as a literal, the accumulator apart. -/
theorem kindOf_of_accepts {mode : Mode} {text : String} (accepted : mode.accepts text = true)
    : mode = .accumulator ∧ text = "A" ∨ ∃ literal, kindOf text = .operand literal := by
  rcases Mode.accepts_cases accepted with accumulator | ⟨shape, shaped, fitting⟩
  · exact Or.inl accumulator
  · obtain ⟨literal, spelt, feedless⟩ := spelt_of_fits shaped fitting
    exact Or.inr ⟨literal, kindOf_of_spelt spelt feedless⟩

end Source

namespace Assembly

open Progress (Change)
open Report (Log)
open Source (Library Path Token kindOf)

/-- The text that a reference stands for when the names have the meanings of a table. -/
def meant? (table : Symbols) (instruction : Instruction) (operand : Token) : Option String :=
  if isLookedUp instruction operand then
    (table.get? (referent operand.text)).bind fun symbol =>
      (substitute operand.text symbol).toOption
  else
    none

/-- An operand with its reference written out. -/
def writtenOut (table : Symbols) (instruction : Instruction) (operand : Token) : Token :=
  ((meant? table instruction operand).map operand.holding).getD operand

/-- A row that names no reference. -/
def Row.unreferenced (row : Row) : Row :=
  { row with reference? := none }

variable {set : InstructionSet} {pass : Pass} {table known : Symbols} {here : UInt16}
  {instruction : Instruction} {operand token : Token} {plain text : String} {mode : Mode}
  {opcode : UInt8} {row first second : Row}

/-- A resolved text that can be encoded is no reference any more.
Witness: it is a word, a byte, or itself accepted by a mode.
-/
theorem literal_of_selected (encoded : converted .assemble here instruction plain = .ok text)
    (selected : selectMode? instruction text = some (mode, opcode))
    : plain = "A" ∧ instruction.supports .accumulator = true ∧ text = plain
      ∨ ∃ literal, kindOf plain = .operand literal := by
  obtain ⟨accepted, bound⟩ := selectMode?_eq_some selected
  have itself (same : text = plain)
      : plain = "A" ∧ instruction.supports .accumulator = true ∧ text = plain
        ∨ ∃ literal, kindOf plain = .operand literal := by
    subst same
    rcases Source.kindOf_of_accepts accepted with ⟨rfl, rfl⟩ | literal
    · exact Or.inl ⟨rfl, by simp [Instruction.supports, bound], rfl⟩
    · exact Or.inr literal
  cases branch : instruction.isBranch with
  | false =>
      rw [converted_of_not_branch branch] at encoded
      exact itself (Except.ok.inj encoded).symm
  | true =>
      rcases (converted_eq_ok_iff branch).mp encoded with
        ⟨target, -, word, -, -⟩ | ⟨-, same⟩ | ⟨-, -, ⟨impossible, -⟩ | ⟨-, same⟩⟩
      · have absolute : Mode.absolute.accepts plain = true := (wordValue?_eq_some_iff.mp word).1
        rcases Source.kindOf_of_accepts absolute with ⟨other, -⟩ | literal
        · cases other
        · exact Or.inr literal
      · exact itself same
      · cases impossible
      · exact itself same

/-- A text that is no reference is not looked up, and its row names no reference. -/
theorem unreferenced_of_literal (here : UInt16) (token operand : Token) (mode : Mode)
    (opcode : UInt8)
    (literal : plain = "A" ∧ instruction.supports .accumulator = true ∧ text = plain
      ∨ ∃ literal, kindOf plain = .operand literal)
    : isLookedUp instruction (operand.holding plain) = false
      ∧ operandRow here token instruction (operand.holding plain) text mode opcode
        = (operandRow here token instruction operand text mode opcode).unreferenced := by
  rcases literal with ⟨rfl, accumulator, rfl⟩ | ⟨literal, kind⟩
  · simp [isLookedUp, operandRow, Row.unreferenced, Token.holding, accumulator]
  · simp [isLookedUp, operandRow, Row.unreferenced, Token.holding, kind]

/-- What a branch is measured as is a byte. -/
theorem isByte_of_converted (branch : instruction.isBranch = true)
    (encoded : converted .prescan here instruction plain = .ok text)
    : isByte text = true := by
  rcases (converted_eq_ok_iff branch).mp encoded with
    ⟨_, offset, -, -, rfl⟩ | ⟨byte, rfl⟩ | ⟨-, -, ⟨-, rfl⟩ | ⟨impossible, -⟩⟩
  · exact isByte_formatByte offset
  · exact byte
  · exact isByte_formatByte 0
  · cases impossible

theorem length_of_selected_byte (byte : isByte text = true)
    (selected : selectMode? instruction text = some (mode, opcode))
    : mode.length = 2 := by
  rcases (accepts_byte_iff byte).mp (selectMode?_eq_some selected).1 with rfl | rfl
  · rfl
  · rfl

theorem converted_prescan_of_assemble (branch : instruction.isBranch = true)
    (encoded : converted .assemble here instruction plain = .ok text)
    : ∃ measured, converted .prescan here instruction plain = .ok measured := by
  rcases (converted_eq_ok_iff branch).mp encoded with
    target | displacement | ⟨notWord, notByte, -⟩
  · exact ⟨text, (converted_eq_ok_iff branch).mpr (.inl target)⟩
  · exact ⟨text, (converted_eq_ok_iff branch).mpr (.inr (.inl displacement))⟩
  · exact ⟨formatByte 0, (converted_eq_ok_iff branch).mpr
      (.inr (.inr ⟨notWord, notByte, .inl ⟨rfl, rfl⟩⟩))⟩

/-- However its operand is resolved or guessed, a branch is measured as two bytes. -/
theorem length_of_measured_branch (branch : instruction.isBranch = true)
    (measured : (operate set .prescan known here token instruction operand).outcome = .ok row)
    : row.bytes.length = 2 := by
  obtain ⟨plain, text, mode, opcode, -, encoded, selected, rfl⟩ := operate_eq_ok_iff.mp measured
  rw [length_operandRow_bytes selected]
  exact length_of_selected_byte (isByte_of_converted branch encoded) selected

/-- An operand that is written out is measured as long as the reference was, or as long as it is
emitted. Witness: the lengths of branches never differ, and all else is measured as emitted.
-/
theorem measured_of_literal (literal : isLookedUp instruction operand = false)
    (encoded : converted .assemble here instruction operand.text = .ok text)
    (selected : selectMode? instruction text = some (mode, opcode))
    : ∃ measured,
        (operate set .prescan known here token instruction operand).outcome = .ok measured
        ∧ (instruction.isBranch = false → measured.bytes.length = mode.length) := by
  cases branch : instruction.isBranch with
  | false =>
      rw [converted_of_not_branch branch] at encoded
      refine ⟨_, operate_eq_ok_iff.mpr ⟨operand.text, text, mode, opcode,
        resolve_of_literal literal, ?_, selected, rfl⟩, fun _ => length_operandRow_bytes selected⟩
      rw [converted_of_not_branch branch]
      exact encoded
  | true =>
      obtain ⟨measured, encoded⟩ := converted_prescan_of_assemble branch encoded
      have accepted := (accepts_byte_iff (isByte_of_converted branch encoded)).mpr (Or.inr rfl)
      obtain ⟨⟨mode, opcode⟩, selected⟩ := selectMode?_isSome branch accepted
      exact ⟨_, operate_eq_ok_iff.mpr ⟨operand.text, measured, mode, opcode,
        resolve_of_literal literal, encoded, selected, rfl⟩, fun impossible => by cases impossible⟩

theorem kindOf_accumulator
    : kindOf "A" = .ident := by
  have named : Source.IsName ['A'] := ⟨by simp, by decide, by simp; decide⟩
  exact Source.kindOf_of_spelt (.name named) (by simp)

/-- An instruction whose operand is written out has the same row, which names no reference, and
is measured as before or as it is emitted.
-/
theorem operate_writtenOut (reference : operand.kind = .ident → isReference operand.text = true)
    (measured : (operate set .prescan known here token instruction operand).outcome = .ok first)
    (emitted : (operate set .assemble table here token instruction operand).outcome = .ok second)
    : (∃ again,
        (operate set .prescan known here token instruction
          (writtenOut table instruction operand)).outcome = .ok again
        ∧ (again.bytes.length = first.bytes.length ∨ again.bytes.length = second.bytes.length))
      ∧ (operate set .assemble table here token instruction
          (writtenOut table instruction operand)).outcome = .ok second.unreferenced := by
  obtain ⟨plain, text, mode, opcode, resolved, encoded, selected, rfl⟩ :=
    operate_eq_ok_iff.mp emitted
  have literal := literal_of_selected encoded selected
  rcases resolve_cases resolved with
    ⟨unsought, rfl⟩ | ⟨sought, -, ⟨symbol, meant, substituted⟩ | ⟨_, impossible, _⟩⟩
  · have same : writtenOut table instruction operand = operand := by
      simp [writtenOut, meant?, unsought]
    have unnamed : (operandRow here token instruction operand text mode opcode).unreferenced
        = operandRow here token instruction operand text mode opcode := by
      cases named : operand.kind == .ident with
      | false => simp [Row.unreferenced, operandRow, named]
      | true =>
          have refers := reference (by simpa using named)
          have accumulator : operand.text = "A" := by
            simp only [isLookedUp, named, refers, Bool.and_self, Bool.true_and, Bool.not_eq_false',
              Bool.and_eq_true, beq_iff_eq] at unsought
            exact unsought.1
          rcases literal with ⟨-, -, rfl⟩ | ⟨literal, kind⟩
          · simp [Row.unreferenced, operandRow]
          · rw [accumulator, kindOf_accumulator] at kind
            cases kind
    rw [same, unnamed]
    exact ⟨⟨first, measured, Or.inl rfl⟩, emitted⟩
  · have same : writtenOut table instruction operand = operand.holding plain := by
      simp [writtenOut, meant?, sought, meant, substituted, Except.toOption]
    obtain ⟨unsought, unnamed⟩ :=
      unreferenced_of_literal here token operand mode opcode literal
    obtain ⟨again, remeasured, long⟩ := measured_of_literal unsought encoded selected
    rw [same]
    refine ⟨⟨again, remeasured, ?_⟩, ?_⟩
    · cases branch : instruction.isBranch with
      | true =>
          refine Or.inl ?_
          rw [length_of_measured_branch branch remeasured, length_of_measured_branch branch measured]
      | false => exact Or.inr ((long branch).trans (length_operandRow_bytes selected).symm)
    · exact operate_eq_ok_iff.mpr ⟨plain, text, mode, opcode, resolve_of_literal unsought, encoded,
        selected, unnamed.symm⟩
  · cases impossible

/-- A statement with its reference written out. -/
def Statement.writtenOut (table : Symbols) (statement : Statement) : Statement :=
  statement.mapOperand (Assembly.writtenOut table)

/-- The names among a statement's tokens are references. -/
def Statement.Refers (statement : Statement) : Prop :=
  ∀ token ∈ statement.tokens, token.kind = .ident → isReference token.text = true

variable {measured emitted guessed : Nat} {statement : Statement} {statements : List Statement}
  {one two : Change} {firsts seconds : List Change}

theorem Statement.isAnchored_writtenOut (statement : Statement)
    : (statement.writtenOut table).isAnchored = statement.isAnchored := by
  cases statement <;> rfl

/-- Only instructions with operands name a reference in their rows. -/
theorem reference?_of_not_operate (plain : statement.isOperate = false)
    (made : (statement.effect set pass table here).outcome = .ok (.emit row))
    : row.unreferenced = row := by
  cases statement with
  | operate => cases plain
  | string directive operand? =>
      obtain ⟨operand, content, -, -, same⟩ := effect_string_eq_ok_iff.mp made
      obtain rfl := Effect.emit.inj same
      rfl
  | data | implied =>
      cases made
      rfl
  | origin | label | assign | stray => cases (address_of_effect made).1

theorem Statement.writtenOut_of_not_operate (plain : statement.isOperate = false)
    : statement.writtenOut table = statement := by
  cases statement with
  | operate => cases plain
  | origin | data | string | label | assign | implied | stray => rfl

/-- A change whose row names no reference. -/
def Progress.Change.unreferenced (change : Change) : Change :=
  { change with row? := change.row?.map Row.unreferenced }

theorem finish_unreferenced (counter : Nat) (changes : List Change)
    : finish counter (changes.map Change.unreferenced) = finish counter changes := by
  induction changes generalizing counter with
  | nil => rfl
  | cons change changes ih => exact ih change.counter

theorem rows_unreferenced (changes : List Change)
    : rows (changes.map Change.unreferenced) = (rows changes).map Row.unreferenced := by
  simp only [rows, List.filterMap_map, List.map_filterMap]
  rfl

/-- A statement that emits at one counter in both passes does so when its reference is written
out, and is measured as before or as it is emitted.
-/
theorem Carried.emit_writtenOut {counter : Nat} (refers : statement.Refers)
    (inside : counter < addressSpace)
    (made : (statement.effect set .prescan known (UInt16.ofNat counter)).outcome
      = .ok (.emit first))
    (fits : counter + first.bytes.length ≤ addressSpace)
    (made' : (statement.effect set .assemble table (UInt16.ofNat counter)).outcome
      = .ok (.emit second))
    (fits' : counter + second.bytes.length ≤ addressSpace)
    : (∃ again,
        Carried set .prescan known counter (statement.writtenOut table)
          (Pass.prescan.emitted counter again)
        ∧ (again.bytes.length = first.bytes.length ∨ again.bytes.length = second.bytes.length))
      ∧ Carried set .assemble table counter (statement.writtenOut table)
          (Pass.assemble.emitted counter second.unreferenced) := by
  cases operates : statement.isOperate with
  | false =>
      rw [Statement.writtenOut_of_not_operate operates, reference?_of_not_operate operates made']
      exact ⟨⟨first, .emit inside made fits, Or.inl rfl⟩, .emit inside made' fits'⟩
  | true =>
      cases statement with
      | operate token instruction operand? =>
          obtain ⟨operand, _, rfl, measured, same⟩ := effect_operate_eq_ok_iff.mp made
          obtain rfl := Effect.emit.inj same
          obtain ⟨_, _, same, emitted, same'⟩ := effect_operate_eq_ok_iff.mp made'
          obtain rfl := Option.some.inj same
          obtain rfl := Effect.emit.inj same'
          have reference := refers operand (by simp [Statement.tokens, Statement.tail])
          obtain ⟨⟨again, remeasured, long⟩, reemitted⟩ :=
            operate_writtenOut reference measured emitted
          have refits : counter + again.bytes.length ≤ addressSpace := by
            rcases long with long | long
            · rwa [long]
            · rwa [long]
          exact ⟨⟨again, .emit inside (effect_operate_eq_ok_iff.mpr
              ⟨_, again, rfl, remeasured, rfl⟩) refits, long⟩,
            .emit inside (effect_operate_eq_ok_iff.mpr ⟨_, _, rfl, reemitted, rfl⟩) fits'⟩
      | origin | data | string | label | assign | implied | stray => cases operates

/-- A statement carried out in both passes is carried out so when its reference is written out.
The first pass can start where the first or the second pass did, and ends so too.
-/
theorem Carried.writtenOut (refers : statement.Refers)
    (prescan : Carried set .prescan known measured statement one)
    (assemble : Carried set .assemble table emitted statement two)
    (aligned : statement.isAnchored = true → measured = emitted)
    (start : guessed = measured ∨ guessed = emitted)
    : (∃ again,
        Carried set .prescan known guessed (statement.writtenOut table) again
        ∧ again.declaration? = one.declaration?
        ∧ (again.counter = one.counter ∨ again.counter = two.counter))
      ∧ Carried set .assemble table emitted (statement.writtenOut table)
          two.unreferenced := by
  cases prescan with
  | move word =>
      cases assemble with
      | move word' =>
          obtain rfl := Option.some.inj (word.symm.trans word')
          exact ⟨⟨_, .move word, rfl, Or.inl rfl⟩, .move word⟩
      | emit inside made fits => cases (address_of_effect made).1
  | @emit _ first inside made fits =>
      -- A statement that emits stands where it was measured, so all three counters are one.
      have anchored := Statement.isAnchored_of_emits (address_of_effect made).1
      obtain rfl := aligned anchored
      obtain rfl : guessed = measured := start.elim id id
      cases assemble with
      | move | label | assign | stray => cases (address_of_effect made).1
      | @emit _ second inside' made' fits' =>
          obtain ⟨⟨again, measured', long⟩, emitted'⟩ :=
            Carried.emit_writtenOut refers inside made fits made' fits'
          refine ⟨⟨_, measured', rfl, ?_⟩, emitted'⟩
          rcases long with long | long
          · exact Or.inl (by simp [Pass.emitted, long])
          · exact Or.inr (by simp [Pass.emitted, long])
  | label inside fresh =>
      obtain rfl := aligned rfl
      obtain rfl : guessed = measured := start.elim id id
      cases assemble with
      | label inside' fresh' =>
          exact ⟨⟨_, .label inside fresh, rfl, Or.inl rfl⟩,
            .label inside fun impossible => by cases impossible⟩
      | emit inside' made fits => cases (address_of_effect made).1
  | assign fresh =>
      cases assemble with
      | assign fresh' =>
          exact ⟨⟨_, .assign fresh, rfl, start⟩, .assign fun impossible => by cases impossible⟩
      | emit inside' made fits => cases (address_of_effect made).1
  | stray =>
      cases assemble with
      | stray => exact ⟨⟨_, .stray, rfl, start⟩, .stray⟩
      | emit inside' made fits => cases (address_of_effect made).1

/-- Both passes over what is written out make the changes of the passes before, up to what the
first measures. Witness: induction on the passes; where the first pass stands differently, it
stands where the second does.
-/
theorem Passes.writtenOut (refers : ∀ statement ∈ statements, statement.Refers)
    (passes : Passes set table known measured emitted statements firsts seconds)
    (start : guessed = measured ∨ guessed = emitted)
    : ∃ again,
        Passes set table known guessed emitted (statements.map (Statement.writtenOut table)) again
          (seconds.map Change.unreferenced)
        ∧ declarations again = declarations firsts
        ∧ (finish guessed again = finish measured firsts
          ∨ finish guessed again = finish emitted seconds) := by
  induction passes generalizing guessed with
  | nil => exact ⟨[], .nil, rfl, start⟩
  | @cons known measured emitted statement statements one two firsts seconds prescan assemble aligned
      rest ih =>
      obtain ⟨⟨again, prescan', declared, next⟩, assemble'⟩ :=
        prescan.writtenOut (refers statement (by simp)) assemble aligned start
      obtain ⟨others, passes, same, finished⟩ :=
        ih (fun other member => refers other (by simp [member])) next
      have grown : known.grow again = known.grow one := by
        rw [Symbols.grow, Symbols.grow, declared]
      refine ⟨again :: others, .cons prescan' assemble' ?_ (grown ▸ passes), ?_, finished⟩
      · intro anchored
        rw [Statement.isAnchored_writtenOut] at anchored
        rcases start with same | same
        · exact same.trans (aligned anchored)
        · exact same
      · simp only [declarations, List.filterMap_cons, declared] at same ⊢
        rw [same]

/-- A program with every reference of its instructions written out. -/
def literalTokens (set : InstructionSet) (table : Symbols) (tokens : List Token) : List Token :=
  replaceOperands set (writtenOut table) tokens

/-- Symbolic programs equal their literal versions: with every reference written out as its table
says, a program that is assembled is assembled to the same bytes, symbols and rows, and no row
names a reference.
-/
theorem twoPass_literal {library : Library} {root : Path} {file code : String}
    {tokens : List Token}
    (expanded : (Source.expand library root file code).outcome = .ok tokens)
    {base : UInt16} {log : Log} {output : Output}
    (succeeded : (twoPass set tokens base log).2 = .ok output) (note : Log)
    : ∃ literal,
        (twoPass set (literalTokens set output.symbols tokens) base note).2 = .ok literal
        ∧ literal.bytes = output.bytes
        ∧ literal.symbols = output.symbols
        ∧ literal.rows = output.rows.map Row.unreferenced := by
  obtain ⟨firsts, seconds, passes, finished, rfl⟩ := twoPass_eq_ok_iff.mp succeeded
  have refers : ∀ statement ∈ Assembly.statements set tokens, statement.Refers := by
    intro statement member token inside kind
    have spelt := (Source.spelt_of_mem_expand expanded token (mem_of_mem_statements member inside)).1
    rw [kind] at spelt
    simpa using spelt.isReference
  obtain ⟨again, passes', declared, ended⟩ := passes.writtenOut refers (Or.inl rfl)
  have grouped : Assembly.statements set (literalTokens set ⟨declarations firsts⟩ tokens)
      = (Assembly.statements set tokens).map (Statement.writtenOut ⟨declarations firsts⟩) :=
    statements_replaceOperands tokens
  have met : finish base.toNat again
      = finish base.toNat (seconds.map Change.unreferenced) := by
    rw [finish_unreferenced]
    rcases ended with same | same
    · exact same.trans finished
    · exact same
  rw [← grouped] at passes'
  refine ⟨outputOf _ base again (seconds.map Change.unreferenced),
    twoPass_eq_ok_iff.mpr ⟨again, _, ?_, met, rfl⟩, ?_, ?_, ?_⟩
  · rw [declared]
    exact passes'
  · simp [outputOf, rows_unreferenced, List.flatMap_map, Row.unreferenced]
  · exact congrArg Symbols.mk declared
  · exact rows_unreferenced seconds

theorem twoPass_literal_loop
    : ∃ output literal,
        (twoPass smallSet loopTokens 0xC000 {}).2 = .ok output
        ∧ (twoPass smallSet (literalTokens smallSet output.symbols loopTokens) 0xC000 {}).2
          = .ok literal
        ∧ literal.bytes = [0x4C, 0x03, 0xC0, 0xD0, 0xFE]
        ∧ literal.symbols = output.symbols
        ∧ literal.rows = output.rows.map Row.unreferenced := by
  have evaluated : (twoPass smallSet loopTokens 0xC000 {}).2.toOption.map (·.bytes)
      = some [0x4C, 0x03, 0xC0, 0xD0, 0xFE] := by
    decide +kernel
  cases succeeded : (twoPass smallSet loopTokens 0xC000 {}).2 with
  | error fault => simp [succeeded, Except.toOption] at evaluated
  | ok output =>
      have bytes : output.bytes = [0x4C, 0x03, 0xC0, 0xD0, 0xFE] := by
        simpa [succeeded, Except.toOption] using evaluated
      obtain ⟨literal, run, same, symbols, listing⟩ := twoPass_literal expand_loop succeeded {}
      exact ⟨output, literal, rfl, run, same.trans bytes, symbols, listing⟩

end Assembly

end Asm6510
