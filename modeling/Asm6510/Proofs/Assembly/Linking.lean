import Asm6510.Proofs.Assembly.Bindings
import Asm6510.Proofs.Assembly.Statements
import Asm6510.Proofs.Operand.Spelled
import Asm6510.Proofs.Source.Expanded

/-! References and the places they lead to. The bytes of an instruction that refers to a name
are those of the name's meaning, a branch reaches its target exactly, and a label is the address
of what is emitted next.
-/

namespace Asm6510.Assembly

open Machine (Instruction InstructionSet Mode Shape)
open Operand
open Progress (Change)
open Source (Token)
open Text

/-- The name in a reference: what stands behind a `<` or `>`, or all of it. -/
def nameIn (reference : String) : String :=
  match reference.toList with
  | '<' :: name => String.ofList name
  | '>' :: name => String.ofList name
  | _ => reference

/-- A symbol stands for a word: a label for its address, and a variable for the number in its
text, if that is a dollar sign and four digits.
-/
inductive Symbol.StandsFor : Symbol → Nat → Prop
  | label (address : UInt16)
    : StandsFor (.label address) address.toNat
  | assigned {text : String} {digits : List Char} (spelt : text.toList = '$' :: digits)
    (counted : digits.length = 4) (valid : digits.all Hex.isDigit = true)
    : StandsFor (.assigned text) (Hex.ofDigits digits)

/-- The bytes of an instruction with a reference to a symbol. The mark `<` takes the low byte of a
word and `>` its high byte, which becomes an immediate operand; without a mark, a word is the target
of a branch, or an absolute operand with its low byte first.
-/
def Linked (instruction : Instruction) (reference : String) (symbol : Symbol) (row : Row) : Prop :=
  match reference.toList with
  | '<' :: _ =>
      ∃ w opcode,
        symbol.StandsFor w
        ∧ instruction.opcode? .immediate = some opcode
        ∧ row.bytes = [opcode, UInt8.ofNat (w % 256)]
  | '>' :: _ =>
      ∃ w opcode,
        symbol.StandsFor w
        ∧ instruction.opcode? .immediate = some opcode
        ∧ row.bytes = [opcode, UInt8.ofNat (w / 256)]
  | _ =>
      ∀ w, symbol.StandsFor w
        → if (instruction.opcode? .relative).isSome then
            ∃ opcode offset,
              (instruction.opcode? .relative = some opcode
                ∨ instruction.opcode? .zeroPage = some opcode)
              ∧ row.bytes = [opcode, offset]
              ∧ (row.address.toNat : Int) + 2 + offset.toInt8.toInt = w
          else
            ∃ opcode,
              instruction.opcode? .absolute = some opcode
              ∧ row.bytes = [opcode, UInt8.ofNat (w % 256), UInt8.ofNat (w / 256)]

/-- A name is a label at an address: the row of the next statement that emits stands there, if
no statement before it moves the counter.
-/
def Labels (statements : List Statement) (listing : List Row) (name : String) (address : UInt16)
    : Prop :=
  ∃ front token back,
    statements = front ++ .label token name :: back
    ∧ ∀ between next rest,
        back = between ++ next :: rest
        → (∀ statement ∈ between, statement.emits = false ∧ statement.moves = false)
        → next.emits = true
        → ∃ row, listing[front.countP Statement.emits]? = some row ∧ row.address = address

variable {set : InstructionSet} {table : Symbols} {here : UInt16} {counter : Nat}
  {instruction : Instruction} {operand token : Token} {statements : List Statement}
  {changes : List Change} {row : Row}

/-- The marks of references and the bytes that they take. -/
theorem part?_cases (reference : String)
    : (∃ name, reference.toList = '<' :: name ∧ part? reference = some .low)
      ∨ (∃ name, reference.toList = '>' :: name ∧ part? reference = some .high)
      ∨ (∀ name, reference.toList ≠ '<' :: name) ∧ (∀ name, reference.toList ≠ '>' :: name)
        ∧ part? reference = none := by
  unfold part? Part.mark?
  split
  · rename_i name low
    exact .inl ⟨name, low, rfl⟩
  · rename_i name high
    exact .inr (.inl ⟨name, high, rfl⟩)
  · rename_i notLow notHigh
    exact .inr (.inr ⟨notLow, notHigh, rfl⟩)

/-- The name that is looked up for a reference is the name in it. -/
theorem referent_eq_nameIn (reference : String)
    : referent reference = nameIn reference := by
  unfold referent unmarked nameIn
  rcases part?_cases reference with
    ⟨name, spelt, -⟩ | ⟨name, spelt, -⟩ | ⟨notLow, notHigh, unmarked⟩
  · simp [spelt, Part.mark?]
  · simp [spelt, Part.mark?]
  · rw [part?] at unmarked
    simp [unmarked]

/-- A symbol stands for the value of the operand that it is replaced with. Witness: a label is
written with the digits of its address, which are read back.
-/
theorem Symbol.standsFor_iff {symbol : Symbol} {n : Nat}
    : symbol.StandsFor n ↔ ∃ w : UInt16, wordValue? symbol.operand = some w ∧ w.toNat = n := by
  cases symbol with
  | label address =>
      simp only [Symbol.operand, wordValue?_formatWord, Option.some.injEq]
      constructor
      · intro stands
        cases stands with
        | label => exact ⟨address, rfl, rfl⟩
      · rintro ⟨w, rfl, rfl⟩
        exact .label address
  | assigned text =>
      constructor
      · intro stands
        cases stands with
        | assigned spelt counted valid => exact ⟨_, wordValue?_of_spelt spelt counted valid⟩
      · rintro ⟨w, found, rfl⟩
        obtain ⟨digits, spelt, counted, valid⟩ :=
          Shape.fits_iff.mp (wordValue?_eq_some_iff.mp found).1
        have spelt : text.toList = '$' :: digits := by simpa [wordShape, Symbol.operand] using spelt
        obtain ⟨same, number⟩ := wordValue?_of_spelt spelt counted valid
        obtain rfl := Option.some.inj (same.symm.trans found)
        rw [number]
        exact .assigned spelt counted valid

theorem operandBytes_formatImmediate (b : UInt8)
    : operandBytes .immediate (formatImmediate b) = [b] := by
  simp [operandBytes, Mode.length, byteIn?_formatImmediate]

theorem operandBytes_word {text : String} {w : UInt16} (word : wordValue? text = some w)
    : operandBytes .absolute text = littleEndian w := by
  simp [operandBytes, Mode.length, (wordValue?_eq_some_iff.mp word).2]

/-- The bytes of a word are its low byte and its high byte, and a mark takes one of them. -/
theorem linked_of_part {part : Part} {reference : String} {symbol : Symbol} {w : UInt16}
    {opcode : UInt8} (marked : part? reference = some part)
    (word : wordValue? symbol.operand = some w)
    (bound : instruction.opcode? .immediate = some opcode)
    (bytes : row.bytes = [opcode, part.of w])
    : Linked instruction reference symbol row := by
  have stands : symbol.StandsFor w.toNat := Symbol.standsFor_iff.mpr ⟨w, word, rfl⟩
  unfold Linked
  rcases part?_cases reference with ⟨name, spelt, taken⟩ | ⟨name, spelt, taken⟩ | ⟨-, -, unmarked⟩
  · obtain rfl := Option.some.inj (marked.symm.trans taken)
    rw [spelt]
    exact ⟨_, opcode, stands, bound, bytes⟩
  · obtain rfl := Option.some.inj (marked.symm.trans taken)
    rw [spelt]
    exact ⟨_, opcode, stands, bound, bytes⟩
  · cases marked.symm.trans unmarked

/-- Without a mark, the whole word is what a reference is linked to. -/
theorem linked_of_unmarked {reference : String} {symbol : Symbol}
    (unmarked : part? reference = none)
    (whole : ∀ w : UInt16, wordValue? symbol.operand = some w
      → if instruction.isBranch then
          ∃ opcode offset,
            (instruction.opcode? .relative = some opcode
              ∨ instruction.opcode? .zeroPage = some opcode)
            ∧ row.bytes = [opcode, offset]
            ∧ (row.address.toNat : Int) + 2 + offset.toInt8.toInt = w.toNat
        else
          ∃ opcode,
            instruction.opcode? .absolute = some opcode
            ∧ row.bytes = opcode :: littleEndian w)
    : Linked instruction reference symbol row := by
  unfold Linked
  rcases part?_cases reference with ⟨name, -, taken⟩ | ⟨name, -, taken⟩ | ⟨notLow, notHigh, -⟩
  · cases unmarked.symm.trans taken
  · cases unmarked.symm.trans taken
  · split
    · rename_i name low
      exact absurd low (notLow name)
    · rename_i name high
      exact absurd high (notHigh name)
    · intro n stands
      obtain ⟨w, word, rfl⟩ := Symbol.standsFor_iff.mp stands
      exact whole w word

/-- A reference that is emitted has a meaning, and the bytes of its row are linked to it.
Witness: the text substituted for the reference leaves one mode to choose, or for a branch two
modes that take the same byte.
-/
theorem linked_of_operate (sought : isLookedUp instruction operand = true)
    (made : (operate set .assemble table here token instruction operand).outcome = .ok row)
    : ∃ symbol,
        table.get? (nameIn operand.text) = some symbol
        ∧ Linked instruction operand.text symbol row := by
  obtain ⟨plain, text, mode, opcode, resolved, encoded, selected, rfl⟩ := operate_eq_ok_iff.mp made
  rcases resolve_cases resolved with
    ⟨literal, -⟩ | ⟨-, -, ⟨symbol, meant, substituted⟩ | ⟨_, impossible, _⟩⟩
  · rw [sought] at literal
    cases literal
  · refine ⟨symbol, referent_eq_nameIn _ ▸ meant, ?_⟩
    obtain ⟨accepted, bound⟩ := selectMode?_eq_some selected
    rcases substitute_eq_ok_iff.mp substituted with
      ⟨unmarked, rfl⟩ | ⟨part, w, marked, word, rfl⟩
    · refine linked_of_unmarked unmarked fun w word => ?_
      have isWord := (wordValue?_eq_some_iff.mp word).1
      cases branch : instruction.isBranch with
      | true =>
          rw [if_pos rfl]
          obtain ⟨offset, reach, rfl⟩ : ∃ offset,
              displacement here w = .ok offset ∧ text = formatByte offset := by
            rcases (converted_eq_ok_iff branch).mp encoded with
              ⟨target, offset, same, reach, spelt⟩ | ⟨byte, -⟩ | ⟨notWord, -⟩
            · obtain rfl := Option.some.inj (word.symm.trans same)
              exact ⟨offset, reach, spelt⟩
            · simp [isByte_of_isWord isWord] at byte
            · simp [isWord] at notWord
          have reached := displacement_reaches reach
          rcases (accepts_byte_iff (isByte_formatByte offset)).mp accepted with rfl | rfl
          · exact ⟨opcode, offset, Or.inr bound,
              by simp [operandRow, operandBytes, Mode.length, byteIn?_formatByte], reached⟩
          · exact ⟨opcode, offset, Or.inl bound,
              by simp [operandRow, operandBytes, Mode.length, byteIn?_formatByte], reached⟩
      | false =>
          rw [if_neg (by simp)]
          rw [converted_of_not_branch branch] at encoded
          obtain rfl := Except.ok.inj encoded
          obtain rfl := (accepts_word_iff isWord).mp accepted
          exact ⟨opcode, bound, by simp [operandRow, operandBytes_word word]⟩
    · rw [converted_immediate (accepts_formatImmediate _)] at encoded
      obtain rfl := Except.ok.inj encoded
      obtain rfl := (accepts_immediate_iff (accepts_formatImmediate _)).mp accepted
      exact linked_of_part marked word bound
        (by simp [operandRow, operandBytes_formatImmediate])
  · cases impossible

theorem pos_of_operate {pass : Pass}
    (made : (operate set pass table here token instruction operand).outcome = .ok row)
    : row.pos = token.pos := by
  obtain ⟨_, _, _, _, _, _, _, rfl⟩ := operate_eq_ok_iff.mp made
  rfl

/-- A name in a source is looked up, unless it is the accumulator of its instruction. -/
theorem isLookedUp_of_spelt (spelt : Source.Spelt operand.kind operand.text.toList)
    (kind : operand.kind = .ident)
    (other : ¬ (operand.text = "A" ∧ instruction.supports .accumulator = true))
    : isLookedUp instruction operand = true := by
  rw [kind] at spelt
  have reference := spelt.isReference
  rw [String.ofList_toList] at reference
  simp only [isLookedUp, kind, reference, beq_self_eq_true, Bool.and_self, Bool.true_and,
    Bool.not_eq_true', Bool.and_eq_false_iff, beq_eq_false_iff_ne]
  rcases not_and_or.mp other with name | unsupported
  · exact Or.inl name
  · exact Or.inr (by simpa using unsupported)

/-- Statements that neither emit nor move leave the counter where it is. -/
theorem Trace.finish_of_still (trace : Trace set .assemble table counter statements changes)
    (still : ∀ statement ∈ statements, statement.emits = false ∧ statement.moves = false)
    : finish counter changes = counter := by
  generalize second : Pass.assemble = pass at trace
  induction trace with
  | nil => rfl
  | @cons symbols counter statement statements change changes first rest ih =>
      subst second
      obtain ⟨silent, fixed⟩ := still statement (by simp)
      rw [finish, ih fun other member => still other (by simp [member]), first.still silent fixed]

/-- A label that is bound stands where the next row is emitted. -/
theorem labels_of_bound {name : String} {address : UInt16}
    (trace : Trace set .assemble table counter statements changes)
    (bound : (name, .label address) ∈ bindings statements (starts counter changes))
    : Labels statements (rows changes) name address := by
  obtain ⟨front, statement, back, start, rfl, placed, bound⟩ := exists_of_mem_bindings bound
  rcases binding?_eq_some bound with ⟨token, rfl, same⟩ | ⟨token, value, rfl, other⟩
  · obtain rfl := Symbol.label.inj same
    refine ⟨front, token, back, rfl, ?_⟩
    intro between next rest split still emitting
    subst split
    obtain ⟨earlier, later, rfl, before, after⟩ := trace.split_assemble
    cases after with
    | @cons _ _ _ _ change later first after =>
        have start : start = finish counter earlier := by
          have length : (starts counter earlier).length = front.length := by
            rw [length_starts, before.length_eq]
          rw [starts_append, ← length, List.getElem?_append_right (Nat.le_refl _), Nat.sub_self]
            at placed
          exact (Option.some.inj placed).symm
        obtain ⟨stays, silent⟩ : change.counter = finish counter earlier ∧ change.row? = none := by
          cases first with
          | label inside fresh => exact ⟨rfl, rfl⟩
          | emit inside made fits => cases (address_of_effect made).1
        rw [first.grow_assemble, stays] at after
        obtain ⟨waiting, row, still', listed, made⟩ := after.row_of_emits emitting
        have quiet : between.countP Statement.emits = 0 :=
          List.countP_eq_zero.mpr fun statement member => by simp [still statement member]
        refine ⟨row, ?_, ?_⟩
        · have rowsOf : rows (earlier ++ change :: later) = rows earlier ++ rows later := by
            simp [rows, silent]
          rw [quiet] at listed
          rw [rowsOf, ← before.length_rows, List.getElem?_append_right (Nat.le_refl _),
            Nat.sub_self]
          exact listed
        · rw [(address_of_effect made).2, still'.finish_of_still still, start]
  · cases other

/-- References are linked to the right place. In a run that succeeds every reference of an
instruction has a meaning, to which the bytes of the instruction's row are linked, and every
label is the address of the row emitted next.
-/
theorem runSource_linked {assembler : Assembler} {file code : String} {base : UInt16}
    {output : Output} (succeeded : (assembler.runSource file code base).2 = .ok output)
    : ∃ tokens,
        (Source.expand assembler.library assembler.root file code).outcome = .ok tokens
        ∧ (∀ front token instruction operand back,
            Assembly.statements assembler.set tokens
                = front ++ .operate token instruction (some operand) :: back
            → operand.kind = .ident
            → ¬ (operand.text = "A" ∧ instruction.supports .accumulator = true)
            → ∃ symbol row,
                output.symbols.get? (nameIn operand.text) = some symbol
                ∧ output.rows[front.countP Statement.emits]? = some row
                ∧ row.pos = token.pos
                ∧ Linked instruction operand.text symbol row)
        ∧ ∀ name address,
            output.symbols.get? name = some (.label address)
            → Labels (Assembly.statements assembler.set tokens) output.rows name address := by
  obtain ⟨tokens, log, expanded, succeeded⟩ := expand_of_runSource succeeded
  obtain ⟨firsts, seconds, passes, -, rfl⟩ := twoPass_eq_ok_iff.mp succeeded
  refine ⟨tokens, expanded, ?_, ?_⟩
  · intro front token instruction operand back split kind notAccumulator
    have trace := passes.assemble
    rw [split] at trace
    obtain ⟨earlier, row, -, listed, made⟩ := trace.row_of_emits rfl
    obtain ⟨_, _, same, made, emitted⟩ := effect_operate_eq_ok_iff.mp made
    obtain rfl := Option.some.inj same
    obtain rfl := Effect.emit.inj emitted
    have inside : .operate token instruction (some operand)
        ∈ Assembly.statements assembler.set tokens := by
      rw [split]
      simp
    have member : operand ∈ tokens :=
      mem_of_mem_statements inside (by simp [Statement.tokens, Statement.tail])
    have sought := isLookedUp_of_spelt (Source.spelt_of_mem_expand expanded operand member).1 kind
      notAccumulator
    obtain ⟨symbol, meant, linked⟩ := linked_of_operate sought made
    exact ⟨symbol, row, meant, listed, pos_of_operate made, linked⟩
  · intro name address known
    have member := mem_meanings_of_get? known
    rw [show (outputOf tokens base firsts seconds).symbols = ⟨declarations firsts⟩ from rfl,
      passes.declared.1] at member
    exact labels_of_bound passes.assemble member

/-- The small set, with a load of a byte. -/
def markingSet : InstructionSet :=
  (smallSet.bind "LDA" .immediate 0xA9).1

/-- An assembler with that set, which can load nothing. -/
def markingAssembler : Assembler where
  set := markingSet
  library := Source.Library.ofFiles []

/-- A program that refers to a label in every way, and to a variable. -/
def markedSource : String :=
  "JMP loop loop: LDA screen LDA <loop LDA >loop BNE loop screen = $0400"

/-- Its tokens. -/
def markedTokens : List Token :=
  [⟨.ident, "JMP", ⟨"t", 0, 0⟩⟩, ⟨.ident, "loop", ⟨"t", 0, 4⟩⟩,
    ⟨.label "loop", "loop:", ⟨"t", 0, 9⟩⟩,
    ⟨.ident, "LDA", ⟨"t", 0, 15⟩⟩, ⟨.ident, "screen", ⟨"t", 0, 19⟩⟩,
    ⟨.ident, "LDA", ⟨"t", 0, 26⟩⟩, ⟨.ident, "<loop", ⟨"t", 0, 30⟩⟩,
    ⟨.ident, "LDA", ⟨"t", 0, 36⟩⟩, ⟨.ident, ">loop", ⟨"t", 0, 40⟩⟩,
    ⟨.ident, "BNE", ⟨"t", 0, 46⟩⟩, ⟨.ident, "loop", ⟨"t", 0, 50⟩⟩,
    ⟨.assignment "screen", "screen =", ⟨"t", 0, 55⟩⟩, ⟨.operand .absolute, "$0400", ⟨"t", 0, 64⟩⟩]

/-- Its statements. -/
def markedStatements : List Statement :=
  let load : Instruction :=
    ⟨"LDA", "Load", [(.zeroPage, 0xA5), (.absolute, 0xAD), (.immediate, 0xA9)]⟩
  [.operate ⟨.ident, "JMP", ⟨"t", 0, 0⟩⟩ ⟨"JMP", "Jump", [(.absolute, 0x4C)]⟩
      (some ⟨.ident, "loop", ⟨"t", 0, 4⟩⟩),
    .label ⟨.label "loop", "loop:", ⟨"t", 0, 9⟩⟩ "loop",
    .operate ⟨.ident, "LDA", ⟨"t", 0, 15⟩⟩ load (some ⟨.ident, "screen", ⟨"t", 0, 19⟩⟩),
    .operate ⟨.ident, "LDA", ⟨"t", 0, 26⟩⟩ load (some ⟨.ident, "<loop", ⟨"t", 0, 30⟩⟩),
    .operate ⟨.ident, "LDA", ⟨"t", 0, 36⟩⟩ load (some ⟨.ident, ">loop", ⟨"t", 0, 40⟩⟩),
    .operate ⟨.ident, "BNE", ⟨"t", 0, 46⟩⟩ ⟨"BNE", "Branch", [(.relative, 0xD0)]⟩
      (some ⟨.ident, "loop", ⟨"t", 0, 50⟩⟩),
    .assign ⟨.assignment "screen", "screen =", ⟨"t", 0, 55⟩⟩ "screen"
      (some ⟨.operand .absolute, "$0400", ⟨"t", 0, 64⟩⟩)]

theorem statements_marked
    : Assembly.statements markingSet markedTokens = markedStatements := by
  decide +kernel

theorem expand_marked
    : (Source.expand markingAssembler.library markingAssembler.root "t" markedSource).outcome
      = .ok markedTokens := by
  apply eq_ok_of_toOption
  decide +kernel

/-- Every reference to the label leads to its address, or takes the byte of it that is asked for. -/
theorem runSource_linked_marked
    : ∃ output jump low high branch,
        (markingAssembler.runSource "t" markedSource 0xC000).2 = .ok output
        ∧ output.symbols.get? "loop" = some (.label 0xC003)
        ∧ output.rows[0]? = some jump
        ∧ output.rows[2]? = some low
        ∧ output.rows[3]? = some high
        ∧ output.rows[4]? = some branch
        ∧ jump.bytes.tail = [0x03, 0xC0]
        ∧ low.bytes.tail = [0x03]
        ∧ high.bytes.tail = [0xC0]
        ∧ ∃ opcode offset,
            branch.bytes = [opcode, offset]
            ∧ (branch.address.toNat : Int) + 2 + offset.toInt8.toInt = 0xC003 := by
  have known : (markingAssembler.runSource "t" markedSource 0xC000).2.toOption.map
        (fun output => output.symbols.get? "loop")
      = some (some (.label 0xC003)) := by
    decide +kernel
  cases succeeded : (markingAssembler.runSource "t" markedSource 0xC000).2 with
  | error fault => simp [succeeded, Except.toOption] at known
  | ok output =>
      have known : output.symbols.get? "loop" = some (.label 0xC003) := by
        simpa [succeeded, Except.toOption] using known
      obtain ⟨tokens, expanded, linked, -⟩ := runSource_linked succeeded
      obtain rfl := Except.ok.inj (expanded.symm.trans expand_marked)
      have row (front : List Statement) {back : List Statement} {token operand : Token}
          {instruction : Instruction}
          (split : markedStatements
            = front ++ .operate token instruction (some operand) :: back)
          (kind : operand.kind = .ident) (name : nameIn operand.text = "loop")
          (other : operand.text ≠ "A")
          : ∃ row, output.rows[front.countP Statement.emits]? = some row
            ∧ Linked instruction operand.text (.label 0xC003) row := by
        obtain ⟨symbol, row, meant, listed, -, linked⟩ :=
          linked front token instruction operand back (statements_marked.trans split) kind
            fun accumulator => other accumulator.1
        rw [name, known] at meant
        obtain rfl := Option.some.inj meant
        exact ⟨row, listed, linked⟩
      obtain ⟨jump, listedJump, linkedJump⟩ :=
        row [] rfl rfl (by decide +kernel) (by decide)
      obtain ⟨low, listedLow, linkedLow⟩ :=
        row (markedStatements.take 3) rfl rfl (by decide +kernel) (by decide)
      obtain ⟨high, listedHigh, linkedHigh⟩ :=
        row (markedStatements.take 4) rfl rfl (by decide +kernel) (by decide)
      obtain ⟨branch, listedBranch, linkedBranch⟩ :=
        row (markedStatements.take 5) rfl rfl (by decide +kernel) (by decide)
      obtain ⟨_, -, jumped⟩ := linkedJump 0xC003 (.label 0xC003)
      obtain ⟨_, _, ⟨⟩, -, lowered⟩ := linkedLow
      obtain ⟨_, _, ⟨⟩, -, raised⟩ := linkedHigh
      obtain ⟨opcode, offset, -, branched, reached⟩ := linkedBranch 0xC003 (.label 0xC003)
      exact ⟨output, jump, low, high, branch, rfl, known, listedJump, listedLow, listedHigh,
        listedBranch, by rw [jumped]; rfl, by rw [lowered]; rfl, by rw [raised]; rfl, opcode,
        offset, branched, reached⟩

end Asm6510.Assembly
