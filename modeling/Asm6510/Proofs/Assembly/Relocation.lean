import Asm6510.Proofs.Assembly.Bounds
import Asm6510.Proofs.Assembly.Drift
import Asm6510.Proofs.Assembly.Linking
import Asm6510.Proofs.Assembly.Loading

/-! Programs that can be moved. Without an origin, and with labels as the only targets of its
branches, a program that is assembled at one base is assembled at every base that leaves room for
it. Addresses and labels move with the base; instructions keep their modes, and branches their
displacements.
-/

namespace Asm6510.Assembly

open Machine (BranchAlone BranchesAlone Instruction InstructionSet Mode)
open Operand
open Progress (Change)
open Report (Log)
open Source (Token)

-----------------------------------------------------------------------------------------
-- What moves and what stays
-----------------------------------------------------------------------------------------

/-- A number that moves with the base. -/
def Moved (base base' number number' : Nat) : Prop :=
  number' + base = number + base'

/-- A label moves with the base, and a variable keeps its text. -/
inductive Symbol.Relocated (base base' : Nat) : Symbol → Symbol → Prop
  | label {address address' : UInt16} (moved : Moved base base' address.toNat address'.toNat)
    : Relocated base base' (.label address) (.label address')
  | assigned (text : String)
    : Relocated base base' (.assigned text) (.assigned text)

/-- A declaration keeps its name and its place. -/
structure Declaration.Relocated (base base' : Nat) (declaration declaration' : Declaration)
    : Prop where
  name : declaration'.name = declaration.name
  pos : declaration'.pos = declaration.pos
  symbol : declaration.symbol.Relocated base base' declaration'.symbol

/-- The same names are declared in the same order. -/
def Symbols.Relocated (base base' : Nat) (symbols symbols' : Symbols) : Prop :=
  List.Forall₂ (Declaration.Relocated base base') symbols.declarations symbols'.declarations

/-- The reference of an instruction to a label, and the address of the label. A branch refers to
no address, since it holds a displacement.
-/
def Statement.labelled? (symbols : Symbols) : Statement → Option (String × UInt16)
  | operate _ instruction (some operand) =>
      if isLookedUp instruction operand && !instruction.isBranch then
        match symbols.get? (nameIn operand.text) with
        | some (.label address) => some (operand.text, address)
        | _ => none
      else
        none
  | _ => none

/-- The bytes after the opcode of an instruction that refers to an address: its low byte behind
`<`, its high byte behind `>`, and otherwise both, the low byte first.
-/
def labelBytes (reference : String) (address : Nat) : List UInt8 :=
  match reference.toList with
  | '<' :: _ => [UInt8.ofNat (address % 256)]
  | '>' :: _ => [UInt8.ofNat (address / 256)]
  | _ => [UInt8.ofNat (address % 256), UInt8.ofNat (address / 256)]

/-- The row of a statement, and its row in a run from another base. -/
structure Row.Relocated (base base' : Nat) (symbols symbols' : Symbols) (statement : Statement)
    (row row' : Row) : Prop where
  address : Moved base base' row.address.toNat row'.address.toNat
  length : row'.bytes.length = row.bytes.length
  /-- An instruction is used in the same mode, with the same opcode. -/
  selected
    : ∀ token instruction operand, statement = .operate token instruction (some operand)
      → ∃ text text' mode opcode,
          row.text = instruction.mnemonic ++ " " ++ text
          ∧ row'.text = instruction.mnemonic ++ " " ++ text'
          ∧ selectMode? instruction text = some (mode, opcode)
          ∧ selectMode? instruction text' = some (mode, opcode)
          ∧ row.bytes = opcode :: operandBytes mode text
          ∧ row'.bytes = opcode :: operandBytes mode text'
  /-- A branch, and a row that refers to no label, keeps its bytes. -/
  kept : statement.labelled? symbols = none → row'.bytes = row.bytes
  /-- A row that refers to a label encodes the address that the label has moved to. -/
  encoded
    : ∀ reference address, statement.labelled? symbols = some (reference, address)
      → ∃ address',
          statement.labelled? symbols' = some (reference, address')
          ∧ Moved base base' address.toNat address'.toNat
          ∧ row.bytes.tail = labelBytes reference address.toNat
          ∧ row'.bytes.tail = labelBytes reference address'.toNat

/-- As many rows in one run as in the other: one for each statement that emits, and related. -/
structure Listed (base base' : Nat) (table table' : Symbols) (statements : List Statement)
    (rows rows' : List Row) : Prop where
  count : rows'.length = rows.length
  rows
    : List.Forall₂
        (fun statement pair =>
          Row.Relocated base base' table table' statement pair.1 pair.2)
        (statements.filter Statement.emits) (rows.zip rows')

/-- The outputs of a program at two bases. -/
structure Output.Relocated (base base' : UInt16) (statements : List Statement)
    (output output' : Output) : Prop where
  origin : output'.origin = base'
  listing
    : Listed base.toNat base'.toNat output.symbols output'.symbols statements output.rows
        output'.rows
  symbols : output.symbols.Relocated base.toNat base'.toNat output'.symbols

/-- No branch has a target that stays: its operand is no word, nor a variable that is assigned
one.
-/
def BranchesMove (statements : List Statement) : Prop :=
  ∀ token instruction operand, .operate token instruction (some operand) ∈ statements
    → instruction.isBranch = true
    → isWord operand.text = false
      ∧ (isLookedUp instruction operand = true
        → ∀ assignment value, .assign assignment (nameIn operand.text) (some value) ∈ statements
          → isWord value.text = false)

variable {base base' : Nat} {set : InstructionSet} {pass : Pass}
  {symbols symbols' table table' known known' : Symbols} {here here' : UInt16}
  {counter counter' : Nat} {instruction : Instruction} {operand token : Token}
  {statement : Statement} {statements : List Statement} {change : Change}
  {changes firsts seconds : List Change} {row : Row}

-----------------------------------------------------------------------------------------
-- Operands
-----------------------------------------------------------------------------------------

/-- A name that is known in one run is known in the other, with a meaning that has moved. -/
theorem get?_relocated (tables : symbols.Relocated base base' symbols') (name : String)
    : symbols.get? name = none ∧ symbols'.get? name = none
      ∨ ∃ symbol symbol',
          symbols.get? name = some symbol
          ∧ symbols'.get? name = some symbol'
          ∧ symbol.Relocated base base' symbol' := by
  obtain ⟨declarations⟩ := symbols
  obtain ⟨declarations'⟩ := symbols'
  change List.Forall₂ (Declaration.Relocated base base') declarations declarations' at tables
  induction tables with
  | nil => exact .inl ⟨rfl, rfl⟩
  | @cons declaration declaration' _ _ first _ ih =>
      by_cases same : declaration.name = name
      · have same' : declaration'.name = name := first.name.trans same
        exact .inr ⟨declaration.symbol, declaration'.symbol,
          by simp [Symbols.get?, Symbols.find?, same],
          by simp [Symbols.get?, Symbols.find?, same'], first.symbol⟩
      · have other : declaration'.name ≠ name := first.name ▸ same
        simpa [Symbols.get?, Symbols.find?, same, other] using ih

/-- A branch and its target move together, and their displacement stays. -/
theorem displacement_moved {target target' : UInt16}
    (moved : Moved base base' here.toNat here'.toNat)
    (together : Moved base base' target.toNat target'.toNat)
    : displacement here' target' = displacement here target := by
  have same : distance here' target' = distance here target := by
    unfold Moved at moved together
    simp only [distance]
    omega
  simp only [displacement, same]

/-- What an operand stands for in two runs: a text that does not move, the address of a label or
a byte of it, or in the first pass the guessed address.
-/
inductive Rebased (base base' : Nat) (pass : Pass) (symbols symbols' : Symbols)
    (here here' : UInt16) (instruction : Instruction) (operand : Token) : String → String → Prop
  | fixed {text : String}
    (unlabelled : isLookedUp instruction operand = true
      → ∀ address, symbols.get? (referent operand.text) ≠ some (.label address))
    (unbranched : instruction.isBranch = true → isWord text = false)
    : Rebased base base' pass symbols symbols' here here' instruction operand text text
  | word {w w' : UInt16} (sought : isLookedUp instruction operand = true)
    (meant : symbols.get? (referent operand.text) = some (.label w))
    (meant' : symbols'.get? (referent operand.text) = some (.label w'))
    (moved : Moved base base' w.toNat w'.toNat) (unmarked : part? operand.text = none)
    : Rebased base base' pass symbols symbols' here here' instruction operand (formatWord w)
        (formatWord w')
  | part {part : Part} {w w' : UInt16} (sought : isLookedUp instruction operand = true)
    (meant : symbols.get? (referent operand.text) = some (.label w))
    (meant' : symbols'.get? (referent operand.text) = some (.label w'))
    (moved : Moved base base' w.toNat w'.toNat) (marked : part? operand.text = some part)
    : Rebased base base' pass symbols symbols' here here' instruction operand
        (formatImmediate (part.of w)) (formatImmediate (part.of w'))
  | guess (first : pass = .prescan)
    : Rebased base base' pass symbols symbols' here here' instruction operand (formatWord here)
        (formatWord here')

/-- An immediate operand is neither a word nor a byte. -/
theorem not_word_of_immediate {text : String} (immediate : Mode.immediate.accepts text = true)
    : isWord text = false ∧ isByte text = false := by
  constructor
  · rw [Bool.eq_false_iff]
    intro word
    cases (accepts_word_iff word).mp immediate
  · rw [Bool.eq_false_iff]
    intro byte
    rcases (accepts_byte_iff byte).mp immediate with other | other
    · cases other
    · cases other

/-- The operand of a statement that is no branch to a fixed target: a word, or a variable with a
word for its value, would be one.
-/
def Movable (symbols : Symbols) (instruction : Instruction) (operand : Token) : Prop :=
  instruction.isBranch = true
    → isWord operand.text = false
      ∧ (isLookedUp instruction operand = true
        → ∀ value, symbols.get? (referent operand.text) = some (.assigned value)
          → isWord value = false)

/-- An operand that is resolved in one run is resolved in the other, by cases on what it stands
for.
-/
theorem resolve_relocated (here' : UInt16) (movable : Movable symbols instruction operand)
    (tables : symbols.Relocated base base' symbols') {plain : String}
    (resolved : (resolve set pass symbols here instruction operand).outcome = .ok plain)
    : ∃ plain',
        (resolve set pass symbols' here' instruction operand).outcome = .ok plain'
        ∧ Rebased base base' pass symbols symbols' here here' instruction operand plain plain' := by
  rcases resolve_cases resolved with
    ⟨literal, rfl⟩ | ⟨sought, name, ⟨symbol, meant, substituted⟩ | ⟨unknown, rfl, rfl⟩⟩
  · refine ⟨_, resolve_of_literal literal, .fixed ?_ fun branch => (movable branch).1⟩
    intro sought
    rw [literal] at sought
    cases sought
  · rcases get?_relocated tables (referent operand.text) with
      ⟨unknown, -⟩ | ⟨first, symbol', meantFirst, meant', moved⟩
    · rw [unknown] at meant
      cases meant
    obtain rfl : first = symbol := Option.some.inj (meantFirst.symm.trans meant)
    have known : (resolve set pass symbols' here' instruction operand).outcome
        = substitute operand.text symbol' := resolve_of_known sought name meant'
    cases moved with
    | assigned value =>
        refine ⟨plain, known.trans substituted, .fixed ?_ ?_⟩
        · intro _ address label
          cases meant.symm.trans label
        · intro branch
          rcases substitute_eq_ok_iff.mp substituted with ⟨-, same⟩ | ⟨part, w, -, -, rfl⟩
          · rw [same]
            exact (movable branch).2 sought value meant
          · exact (not_word_of_immediate (accepts_formatImmediate _)).1
    | @label address address' moved =>
        rcases substitute_eq_ok_iff.mp substituted with
          ⟨unmarked, rfl⟩ | ⟨part, w, marked, word, rfl⟩
        · exact ⟨_, known.trans (substitute_eq_ok_iff.mpr (.inl ⟨unmarked, rfl⟩)),
            .word sought meant meant' moved unmarked⟩
        · obtain rfl : address = w :=
            Option.some.inj ((wordValue?_formatWord address).symm.trans word)
          exact ⟨_,
            known.trans (substitute_eq_ok_iff.mpr
              (.inr ⟨part, address', marked, wordValue?_formatWord address', rfl⟩)),
            .part sought meant meant' moved marked⟩
  · rcases get?_relocated tables (referent operand.text) with ⟨-, unknown'⟩ | ⟨_, _, meant, -, -⟩
    · refine ⟨_, resolve_of_unknown sought name unknown', ?_⟩
      unfold guess
      split
      · refine .fixed ?_ fun _ => (not_word_of_immediate (accepts_formatImmediate 0)).1
        intro _ address label
        cases unknown.symm.trans label
      · exact .guess rfl
    · cases unknown.symm.trans meant

/-- A branch is converted to the same displacement in both runs. -/
theorem Rebased.converted_branch {plain plain' text : String} {mode : Mode} {opcode : UInt8}
    (alone : BranchAlone instruction) (branch : instruction.isBranch = true)
    (moved : Moved base base' here.toNat here'.toNat)
    (rebased : Rebased base base' pass symbols symbols' here here' instruction operand plain plain')
    (encoded : converted pass here instruction plain = .ok text)
    (selected : selectMode? instruction text = some (mode, opcode))
    : converted pass here' instruction plain' = .ok text := by
  have words {w w' : UInt16} (together : Moved base base' w.toNat w'.toNat)
      : converted pass here' instruction (formatWord w')
        = converted pass here instruction (formatWord w) := by
    simp only [converted, branch, if_true, branchOperand, wordValue?_formatWord,
      displacement_moved moved together]
  cases rebased with
  | fixed unlabelled unbranched =>
      have notWord := wordValue?_eq_none_iff.mpr (unbranched branch)
      simpa only [converted, branch, if_true, branchOperand, notWord] using encoded
  | word sought meant meant' together unmarked => rw [words together, encoded]
  | guess first => rw [words moved, encoded]
  | @part part w w' sought meant meant' together marked =>
      cases pass with
      | assemble =>
          -- A branch accepts no immediate operand.
          rw [converted_immediate (accepts_formatImmediate _)] at encoded
          obtain rfl := Except.ok.inj encoded
          have accepted := (selectMode?_eq_some selected).1
          rw [relative_of_selected alone branch selected,
            accepts_immediate_iff (accepts_formatImmediate _)] at accepted
          cases accepted
      | prescan =>
          have measured (b : UInt8)
              : converted .prescan here instruction (formatImmediate b) = .ok (formatByte 0)
                ∧ converted .prescan here' instruction (formatImmediate b)
                  = .ok (formatByte 0) := by
            obtain ⟨notWord, notByte⟩ := not_word_of_immediate (accepts_formatImmediate b)
            exact ⟨(converted_eq_ok_iff branch).mpr
                (.inr (.inr ⟨notWord, notByte, .inl ⟨rfl, rfl⟩⟩)),
              (converted_eq_ok_iff branch).mpr
                (.inr (.inr ⟨notWord, notByte, .inl ⟨rfl, rfl⟩⟩))⟩
          rw [(measured _).1] at encoded
          rw [(measured _).2, encoded]

/-- The same modes accept what an operand stands for in the two runs. -/
theorem Rebased.accepts {text text' : String}
    (rebased : Rebased base base' pass symbols symbols' here here' instruction operand text text')
    (mode : Mode)
    : mode.accepts text = mode.accepts text' := by
  cases rebased with
  | fixed => rfl
  | word | guess => exact accepts_eq_of_words (isWord_formatWord _) (isWord_formatWord _) mode
  | part => exact accepts_formatImmediate_eq _ _ mode

theorem labelled?_operate_eq_some_iff {reference : String} {address : UInt16}
    : (Statement.operate token instruction (some operand)).labelled? symbols
        = some (reference, address)
      ↔ isLookedUp instruction operand = true
        ∧ instruction.isBranch = false
        ∧ symbols.get? (referent operand.text) = some (.label address)
        ∧ reference = operand.text := by
  simp only [Statement.labelled?, ← referent_eq_nameIn]
  cases isLookedUp instruction operand with
  | false => simp
  | true =>
      cases instruction.isBranch with
      | true => simp
      | false =>
          cases symbols.get? (referent operand.text) with
          | none => simp
          | some symbol => cases symbol <;> simp [eq_comm, and_comm]

-----------------------------------------------------------------------------------------
-- Rows
-----------------------------------------------------------------------------------------

/-- What is left to show of the rows of an instruction used in one mode is what their operands
encode.
-/
theorem relocated_operandRow {text text' : String} {mode : Mode} {opcode : UInt8}
    (moved : Moved base base' here.toNat here'.toNat)
    (selected : selectMode? instruction text = some (mode, opcode))
    (selected' : selectMode? instruction text' = some (mode, opcode))
    (kept
      : (Statement.operate token instruction (some operand)).labelled? symbols = none
        → text' = text)
    (encoded
      : ∀ address,
          isLookedUp instruction operand = true
          → instruction.isBranch = false
          → symbols.get? (referent operand.text) = some (.label address)
          → ∃ address',
              symbols'.get? (referent operand.text) = some (.label address')
              ∧ Moved base base' address.toNat address'.toNat
              ∧ operandBytes mode text = labelBytes operand.text address.toNat
              ∧ operandBytes mode text' = labelBytes operand.text address'.toNat)
    : Row.Relocated base base' symbols symbols' (.operate token instruction (some operand))
        (operandRow here token instruction operand text mode opcode)
        (operandRow here' token instruction operand text' mode opcode) where
  address := moved
  length := by rw [length_operandRow_bytes selected, length_operandRow_bytes selected']
  selected := by
    rintro token' instruction' operand' same
    obtain ⟨rfl, rfl, same⟩ := Statement.operate.inj same
    exact ⟨text, text', mode, opcode, rfl, rfl, selected, selected', rfl, rfl⟩
  kept := by
    intro unlabelled
    rw [kept unlabelled]
    rfl
  encoded := by
    intro reference address labelled
    obtain ⟨sought, plain, meant, rfl⟩ := labelled?_operate_eq_some_iff.mp labelled
    obtain ⟨address', meant', moved, bytes, bytes'⟩ := encoded address sought plain meant
    exact ⟨address', labelled?_operate_eq_some_iff.mpr ⟨sought, plain, meant', rfl⟩, moved, bytes,
      bytes'⟩

/-- A word is encoded with its low byte first, and a byte of it as it is. -/
theorem operandBytes_formatWord {mode : Mode} {w : UInt16}
    (accepted : mode.accepts (formatWord w) = true)
    : operandBytes mode (formatWord w) = littleEndian w := by
  obtain rfl := (accepts_word_iff (isWord_formatWord w)).mp accepted
  exact operandBytes_word (wordValue?_formatWord w)

theorem operandBytes_of_immediate {mode : Mode} {b : UInt8}
    (accepted : mode.accepts (formatImmediate b) = true)
    : operandBytes mode (formatImmediate b) = [b] := by
  obtain rfl := (accepts_immediate_iff (accepts_formatImmediate b)).mp accepted
  exact operandBytes_formatImmediate b

/-- A reference without a mark takes both bytes of an address, and a mark takes one of them. -/
theorem labelBytes_of_unmarked {reference : String} (unmarked : part? reference = none)
    (address : UInt16)
    : labelBytes reference address.toNat = littleEndian address := by
  unfold labelBytes
  rcases part?_cases reference with ⟨name, -, taken⟩ | ⟨name, -, taken⟩ | ⟨notLow, notHigh, -⟩
  · cases unmarked.symm.trans taken
  · cases unmarked.symm.trans taken
  · split
    · rename_i name low
      exact absurd low (notLow name)
    · rename_i name high
      exact absurd high (notHigh name)
    · rfl

theorem labelBytes_of_part {reference : String} {part : Part}
    (marked : part? reference = some part) (address : UInt16)
    : labelBytes reference address.toNat = [part.of address] := by
  unfold labelBytes
  rcases part?_cases reference with ⟨name, spelt, taken⟩ | ⟨name, spelt, taken⟩ | ⟨-, -, unmarked⟩
  · obtain rfl := Option.some.inj (marked.symm.trans taken)
    rw [spelt]
    rfl
  · obtain rfl := Option.some.inj (marked.symm.trans taken)
    rw [spelt]
    rfl
  · cases marked.symm.trans unmarked

/-- The rows of an instruction that is no branch, by cases on what its operand stands for. -/
theorem Rebased.relocated {text text' : String} {mode : Mode} {opcode : UInt8}
    (plain : instruction.isBranch = false) (moved : Moved base base' here.toNat here'.toNat)
    (rebased : Rebased base base' .assemble symbols symbols' here here' instruction operand text
      text')
    (selected : selectMode? instruction text = some (mode, opcode))
    (selected' : selectMode? instruction text' = some (mode, opcode))
    : Row.Relocated base base' symbols symbols' (.operate token instruction (some operand))
        (operandRow here token instruction operand text mode opcode)
        (operandRow here' token instruction operand text' mode opcode) := by
  have accepted := (selectMode?_eq_some selected).1
  have accepted' := (selectMode?_eq_some selected').1
  refine relocated_operandRow moved selected selected' ?_ ?_
  · intro unlabelled
    cases rebased with
    | fixed => rfl
    | word sought meant | part sought meant =>
        rw [labelled?_operate_eq_some_iff.mpr ⟨sought, plain, meant, rfl⟩] at unlabelled
        cases unlabelled
    | guess first => cases first
  · intro address sought _ meant
    cases rebased with
    | fixed unlabelled => exact absurd meant (unlabelled sought address)
    | @word w w' _ meantWord meant' together unmarked =>
        obtain rfl : w = address := by
          cases meantWord.symm.trans meant
          rfl
        refine ⟨w', meant', together, ?_, ?_⟩
        · rw [operandBytes_formatWord accepted, labelBytes_of_unmarked unmarked]
        · rw [operandBytes_formatWord accepted', labelBytes_of_unmarked unmarked]
    | @part part w w' _ meantWord meant' together marked =>
        obtain rfl : w = address := by
          cases meantWord.symm.trans meant
          rfl
        refine ⟨w', meant', together, ?_, ?_⟩
        · rw [operandBytes_of_immediate accepted, labelBytes_of_part marked]
        · rw [operandBytes_of_immediate accepted', labelBytes_of_part marked]
    | guess first => cases first

/-- An instruction that has a row in one run has one in the other, as long and in the same mode.
The guesses of the first pass need not be related any further.
-/
theorem operate_relocated (alone : BranchAlone instruction)
    (movable : Movable symbols instruction operand)
    (tables : symbols.Relocated base base' symbols')
    (moved : Moved base base' here.toNat here'.toNat)
    (made : (operate set pass symbols here token instruction operand).outcome = .ok row)
    : ∃ row',
        (operate set pass symbols' here' token instruction operand).outcome = .ok row'
        ∧ row'.bytes.length = row.bytes.length
        ∧ (pass = .assemble
          → Row.Relocated base base' symbols symbols' (.operate token instruction (some operand))
              row row') := by
  obtain ⟨plain, text, mode, opcode, resolved, encoded, selected, rfl⟩ := operate_eq_ok_iff.mp made
  obtain ⟨plain', resolved', rebased⟩ := resolve_relocated here' movable tables resolved
  cases branch : instruction.isBranch with
  | true =>
      have encoded' := rebased.converted_branch alone branch moved encoded selected
      refine ⟨_, operate_eq_ok_iff.mpr ⟨_, _, _, _, resolved', encoded', selected, rfl⟩, rfl, ?_⟩
      rintro -
      refine relocated_operandRow moved selected selected (fun _ => rfl) ?_
      intro _ _ plain
      rw [branch] at plain
      cases plain
  | false =>
      rw [converted_of_not_branch branch] at encoded
      obtain rfl := Except.ok.inj encoded
      have selected' : selectMode? instruction plain' = some (mode, opcode) :=
        (selectMode?_congr rebased.accepts).symm.trans selected
      refine ⟨_,
        operate_eq_ok_iff.mpr
          ⟨_, _, _, _, resolved', converted_of_not_branch branch plain', selected', rfl⟩, ?_, ?_⟩
      · rw [length_operandRow_bytes selected, length_operandRow_bytes selected']
      · rintro rfl
        exact rebased.relocated branch moved selected selected'

/-- A statement that is no instruction with an operand emits the same at every address. -/
theorem effect_readdressed (plain : statement.isOperate = false)
    (made : (statement.effect set pass symbols here).outcome = .ok (.emit row))
    : (statement.effect set pass symbols' here').outcome
      = .ok (.emit { row with address := here' }) := by
  cases statement with
  | operate => cases plain
  | data | implied =>
      cases made
      rfl
  | string =>
      obtain ⟨operand, content, rfl, kind, same⟩ := effect_string_eq_ok_iff.mp made
      cases same
      exact effect_string_eq_ok_iff.mpr ⟨operand, content, rfl, kind, rfl⟩
  | origin | label | assign | stray => cases (address_of_effect made).1

/-- The operand of a statement moves, if it has one. -/
def Statement.Movable (symbols : Symbols) (statement : Statement) : Prop :=
  ∀ token instruction operand, statement = .operate token instruction (some operand)
    → Assembly.Movable symbols instruction operand

/-- A statement that emits in one run emits in the other, by cases on the statement. -/
theorem effect_relocated (alone : AloneIn [statement]) (movable : statement.Movable symbols)
    (tables : symbols.Relocated base base' symbols')
    (moved : Moved base base' here.toNat here'.toNat)
    (made : (statement.effect set pass symbols here).outcome = .ok (.emit row))
    : ∃ row',
        (statement.effect set pass symbols' here').outcome = .ok (.emit row')
        ∧ row'.bytes.length = row.bytes.length
        ∧ (pass = .assemble → Row.Relocated base base' symbols symbols' statement row row') := by
  cases plain : statement.isOperate with
  | true =>
      cases statement with
      | operate token instruction operand? =>
          obtain ⟨operand, _, rfl, made, same⟩ := effect_operate_eq_ok_iff.mp made
          cases same
          have alone := alone token instruction (some operand) (by simp)
          have movable := movable token instruction operand rfl
          obtain ⟨row', made', length, relocated⟩ :=
            operate_relocated alone movable tables moved made
          exact ⟨row', effect_operate_eq_ok_iff.mpr ⟨operand, row', rfl, made', rfl⟩, length,
            relocated⟩
      | origin | data | string | label | assign | implied | stray => cases plain
  | false =>
      refine ⟨_, effect_readdressed plain made, rfl, fun _ => ?_⟩
      have unlabelled : statement.labelled? symbols = none := by
        cases statement with
        | operate => cases plain
        | origin | data | string | label | assign | implied | stray => rfl
      exact {
        address := by
          rw [(address_of_effect made).2]
          exact moved
        length := rfl
        selected := by
          rintro token instruction operand rfl
          cases plain
        kept := fun _ => rfl
        encoded := by
          intro reference address labelled
          rw [unlabelled] at labelled
          cases labelled
      }

-----------------------------------------------------------------------------------------
-- Passes
-----------------------------------------------------------------------------------------

/-- What a statement changes in two runs. -/
structure ChangeRelocated (base base' : Nat) (symbols symbols' : Symbols) (statement : Statement)
    (change change' : Change) : Prop where
  counter : Moved base base' change.counter change'.counter
  declaration
    : Option.Rel (Declaration.Relocated base base') change.declaration? change'.declaration?
  row : Option.Rel (Row.Relocated base base' symbols symbols' statement) change.row? change'.row?

/-- Without an origin, the counter never moves back. -/
theorem Carried.le_counter (carried : Carried set pass symbols counter statement change)
    (unmoved : statement.moves = false)
    : counter ≤ change.counter := by
  cases carried with
  | move => cases unmoved
  | emit => exact Nat.le_add_right _ _
  | label | assign | stray => exact Nat.le_refl _

theorem Trace.le_finish (trace : Trace set pass symbols counter statements changes)
    (unmoved : ∀ statement ∈ statements, statement.moves = false)
    : counter ≤ finish counter changes := by
  induction trace with
  | nil => exact Nat.le_refl _
  | cons first rest ih =>
      exact (first.le_counter (unmoved _ (by simp))).trans
        (ih fun other member => unmoved other (by simp [member]))

/-- What a statement does in one run it does in the other, if there is room for it. -/
theorem Carried.relocates (alone : AloneIn [statement]) (movable : statement.Movable symbols)
    (unmoved : statement.moves = false) (tables : symbols.Relocated base base' symbols')
    (moved : Moved base base' counter counter')
    (carried : Carried set pass symbols counter statement change)
    (room : change.counter + base' < addressSpace + base)
    : ∃ change',
        Carried set pass symbols' counter' statement change'
        ∧ ChangeRelocated base base' symbols symbols' statement change change' := by
  have inside' : counter' < addressSpace := by
    have forward := carried.le_counter unmoved
    unfold Moved at moved
    omega
  have fresh' {name : String} (fresh : pass = .prescan → symbols.get? name = none)
      : pass = .prescan → symbols'.get? name = none := by
    intro first
    rcases get?_relocated tables name with ⟨-, unknown⟩ | ⟨_, _, known, -, -⟩
    · exact unknown
    · cases (fresh first).symm.trans known
  have addresses (inside : counter < addressSpace)
      : Moved base base' (UInt16.ofNat counter).toNat (UInt16.ofNat counter').toNat := by
    have same : (UInt16.ofNat counter).toNat = counter := UInt16.toNat_ofNat_of_lt inside
    have same' : (UInt16.ofNat counter').toNat = counter' := UInt16.toNat_ofNat_of_lt inside'
    rwa [same, same']
  cases carried with
  | move => cases unmoved
  | stray => exact ⟨_, .stray, moved, .none, .none⟩
  | assign fresh =>
      refine ⟨_, .assign (fresh' fresh), moved, ?_, .none⟩
      cases pass with
      | prescan => exact .some ⟨rfl, rfl, .assigned _⟩
      | assemble => exact .none
  | label inside fresh =>
      refine ⟨_, .label inside' (fresh' fresh), moved, ?_, .none⟩
      cases pass with
      | prescan => exact .some ⟨rfl, rfl, .label (addresses inside)⟩
      | assemble => exact .none
  | @emit _ row inside made fits =>
      obtain ⟨row', made', length, relocated⟩ :=
        effect_relocated alone movable tables (addresses inside) made
      have ends : Moved base base' (counter + row.bytes.length) (counter' + row'.bytes.length) := by
        unfold Moved at moved ⊢
        omega
      have fits' : counter' + row'.bytes.length ≤ addressSpace := by
        change counter + row.bytes.length + base' < addressSpace + base at room
        unfold Moved at ends
        omega
      refine ⟨_, .emit inside' made' fits', ends, .none, ?_⟩
      cases pass with
      | prescan => exact .none
      | assemble => exact .some (relocated rfl)

/-- Tables that agree so far agree after a change in both. -/
theorem ChangeRelocated.grow {change' : Change} {known known' : Symbols}
    (relocated : ChangeRelocated base base' symbols symbols' statement change change')
    (tables : known.Relocated base base' known')
    : (known.grow change).Relocated base base' (known'.grow change') := by
  have declared := relocated.declaration
  unfold Symbols.grow
  generalize change.declaration? = declaration? at declared ⊢
  generalize change'.declaration? = declaration'? at declared ⊢
  cases declared with
  | none => exact tables
  | some agreed => exact List.rel_append tables (.cons agreed .nil)

theorem ChangeRelocated.declarations {change' : Change} {changes' : List Change}
    (relocated : ChangeRelocated base base' symbols symbols' statement change change')
    (others : List.Forall₂ (Declaration.Relocated base base') (declarations changes)
      (declarations changes'))
    : List.Forall₂ (Declaration.Relocated base base') (Assembly.declarations (change :: changes))
        (Assembly.declarations (change' :: changes')) := by
  have declared := relocated.declaration
  unfold Assembly.declarations at others ⊢
  rw [List.filterMap_cons, List.filterMap_cons]
  generalize change.declaration? = declaration? at declared ⊢
  generalize change'.declaration? = declaration'? at declared ⊢
  cases declared with
  | none => exact others
  | some agreed => exact .cons agreed others

theorem ChangeRelocated.listed {change' : Change} {changes' : List Change}
    (carried : Carried set .assemble table counter statement change)
    (relocated : ChangeRelocated base base' table table' statement change change')
    (others : Listed base base' table table' statements (rows changes) (rows changes'))
    : Listed base base' table table' (statement :: statements) (rows (change :: changes))
        (rows (change' :: changes')) := by
  have emits := carried.isSome_row?_assemble
  have listed := relocated.row
  unfold Assembly.rows at others ⊢
  rw [List.filterMap_cons, List.filterMap_cons]
  generalize change.row? = row? at emits listed ⊢
  generalize change'.row? = row'? at listed ⊢
  cases listed with
  | none =>
      have silent : statement.emits = false := emits.symm
      refine ⟨others.count, ?_⟩
      rw [List.filter_cons_of_neg (by simp [silent])]
      exact others.rows
  | some agreed =>
      have emitting : statement.emits = true := emits.symm
      refine ⟨by simpa using others.count, ?_⟩
      rw [List.filter_cons_of_pos emitting]
      exact .cons agreed others.rows

/-- The first pass declares the same names in both runs.
Witness: induction on the trace; what is known at a statement is a part of the whole table, so the
branches that move with the table move with what is known.
-/
theorem Trace.relocates_prescan (alone : AloneIn statements)
    (movable : ∀ statement ∈ statements, statement.Movable table)
    (unmoved : ∀ statement ∈ statements, statement.moves = false)
    (whole : known.declarations ++ declarations firsts <+: table.declarations)
    (tables : known.Relocated base base' known') (moved : Moved base base' counter counter')
    (trace : Trace set .prescan known counter statements firsts)
    (room : finish counter firsts + base' < addressSpace + base)
    : ∃ firsts',
        Trace set .prescan known' counter' statements firsts'
        ∧ List.Forall₂ (Moved base base') (starts counter firsts) (starts counter' firsts')
        ∧ Moved base base' (finish counter firsts) (finish counter' firsts')
        ∧ List.Forall₂ (Declaration.Relocated base base') (declarations firsts)
            (declarations firsts') := by
  generalize first : Pass.prescan = pass at trace
  induction trace generalizing known' counter' with
  | nil => exact ⟨[], .nil, .nil, moved, .nil⟩
  | @cons known counter statement statements change changes carried rest ih =>
      subst first
      have unmoved' := fun other member => unmoved other (List.mem_cons_of_mem _ member)
      obtain ⟨earlier, others⟩ := isPrefix_of_grow whole
      have ready : statement.Movable known := by
        intro token instruction operand same branch
        obtain ⟨literal, assigned⟩ :=
          movable statement (by simp) token instruction operand same branch
        exact ⟨literal, fun sought value meant =>
          assigned sought value (get?_of_isPrefix earlier meant)⟩
      have left : change.counter + base' < addressSpace + base :=
        (Nat.add_le_add_right (rest.le_finish unmoved') base').trans_lt room
      obtain ⟨change', carried', relocated⟩ :=
        carried.relocates alone.head ready (unmoved statement (by simp)) tables moved left
      obtain ⟨changes', rest', starts', finish', declared⟩ :=
        ih alone.tail (fun other member => movable other (by simp [member])) unmoved' others
          (relocated.grow tables) relocated.counter room
      exact ⟨change' :: changes', .cons carried' rest', .cons moved starts', finish',
        relocated.declarations declared⟩

/-- The second pass has the same rows in both runs, up to what moves. -/
theorem Trace.relocates_assemble (alone : AloneIn statements)
    (movable : ∀ statement ∈ statements, statement.Movable table)
    (unmoved : ∀ statement ∈ statements, statement.moves = false)
    (tables : table.Relocated base base' table') (moved : Moved base base' counter counter')
    (trace : Trace set .assemble table counter statements seconds)
    (room : finish counter seconds + base' < addressSpace + base)
    : ∃ seconds',
        Trace set .assemble table' counter' statements seconds'
        ∧ List.Forall₂ (Moved base base') (starts counter seconds) (starts counter' seconds')
        ∧ Moved base base' (finish counter seconds) (finish counter' seconds')
        ∧ Listed base base' table table' statements (rows seconds) (rows seconds') := by
  generalize second : Pass.assemble = pass at trace
  induction trace generalizing counter' with
  | nil => exact ⟨[], .nil, .nil, moved, rfl, .nil⟩
  | @cons table counter statement statements change changes carried rest ih =>
      subst second
      have unmoved' := fun other member => unmoved other (List.mem_cons_of_mem _ member)
      have left : change.counter + base' < addressSpace + base :=
        (Nat.add_le_add_right (rest.le_finish unmoved') base').trans_lt room
      obtain ⟨change', carried', relocated⟩ :=
        carried.relocates alone.head (movable statement (by simp)) (unmoved statement (by simp))
          tables moved left
      rw [carried.grow_assemble] at ih
      obtain ⟨changes', rest', starts', finish', listed⟩ :=
        ih alone.tail (fun other member => movable other (by simp [member])) unmoved' tables
          relocated.counter room
      refine ⟨change' :: changes', .cons carried' ?_, .cons moved starts', finish',
        relocated.listed carried listed⟩
      rw [carried'.grow_assemble]
      exact rest'

/-- Statements that meet their starts in one run meet them in the other. -/
theorem Met.relocates {expected expected' found found' : List Nat}
    (moved : List.Forall₂ (Moved base base') expected expected')
    (moved' : List.Forall₂ (Moved base base') found found')
    (met : Met (statements.zip (expected.map some)) found)
    : Met (statements.zip (expected'.map some)) found' := by
  induction statements generalizing expected expected' found found' with
  | nil => trivial
  | cons statement statements ih =>
      cases moved with
      | nil => trivial
      | @cons start start' _ _ first rest =>
          cases moved' with
          | nil => trivial
          | @cons place place' _ _ first' rest' =>
              refine ⟨?_, ih rest rest' met.2⟩
              intro anchored other same
              obtain rfl := Option.mem_some_iff.mp same
              have equal : start = place := met.1 anchored start rfl
              unfold Moved at first first'
              omega

-----------------------------------------------------------------------------------------
-- Runs
-----------------------------------------------------------------------------------------

/-- The variables of a run have the values that they are assigned. -/
theorem BranchesMove.movable (targets : BranchesMove statements)
    (trace : Trace set .prescan Symbols.empty counter statements firsts)
    : ∀ statement ∈ statements, statement.Movable ⟨declarations firsts⟩ := by
  rintro statement member token instruction operand rfl branch
  obtain ⟨literal, assigned⟩ := targets token instruction operand member branch
  rw [← referent_eq_nameIn] at assigned
  refine ⟨literal, fun sought value meant => ?_⟩
  have bound := mem_meanings_of_get? meant
  rw [trace.bindings_prescan] at bound
  rcases mem_bindings bound with ⟨_, _, _, label⟩ | ⟨assignment, token', listed, same⟩
  · cases label
  · cases same
    exact assigned sought assignment token' listed

/-- A program without origins, whose branches have no fixed targets, is assembled at every base
that leaves room for it. Its rows and labels move with the base; its variables, its modes, its
branches and whatever refers to no label stay.
-/
theorem twoPass_relocates {set : InstructionSet} (alone : BranchesAlone set) {tokens : List Token}
    (unset : ∀ token ∈ tokens, token.kind ≠ .directive .org)
    (targets : BranchesMove (Assembly.statements set tokens)) {base : UInt16} {log : Log}
    {output : Output} (succeeded : (twoPass set tokens base log).2 = .ok output)
    (base' : UInt16) (room : base'.toNat + output.bytes.length ≤ 0xFFFF) (log' : Log)
    : ∃ output',
        (twoPass set tokens base' log').2 = .ok output'
        ∧ output.Relocated base base' (Assembly.statements set tokens) output' := by
  obtain ⟨firsts, seconds, passes, ended, rfl⟩ := twoPass_eq_ok_iff.mp succeeded
  have unmoved : ∀ statement ∈ Assembly.statements set tokens, statement.moves = false :=
    fun statement member => unmoved_of_unset unset member
  have movable := targets.movable passes.prescan
  have alone := aloneIn_statements alone tokens
  have start : Moved base.toNat base'.toNat base.toNat base'.toNat := Nat.add_comm _ _
  -- Both passes end where the bytes do, so there is room for all of their counters.
  have left : finish base.toNat seconds + base'.toNat < addressSpace + base.toNat := by
    rw [passes.assemble.finish_of_unmoved unmoved]
    change base'.toNat + ((rows seconds).flatMap (·.bytes)).length ≤ 0xFFFF at room
    unfold addressSpace
    omega
  have nothing : Symbols.empty.Relocated base.toNat base'.toNat Symbols.empty := .nil
  obtain ⟨firsts', prescan', starts', finish', declared⟩ :=
    passes.prescan.relocates_prescan alone movable unmoved List.prefix_rfl nothing start
      (ended ▸ left)
  have tables : Symbols.Relocated base.toNat base'.toNat ⟨declarations firsts⟩
      ⟨declarations firsts'⟩ := declared
  obtain ⟨seconds', assemble', places', ends', listed⟩ :=
    passes.assemble.relocates_assemble alone movable unmoved tables start left
  have passes' := prescan'.passes assemble' (passes.met.relocates starts' places')
  have ended' : finish base'.toNat firsts' = finish base'.toNat seconds' := by
    unfold Moved at finish' ends'
    omega
  refine ⟨_, twoPass_eq_ok_iff.mpr ⟨firsts', seconds', passes', ended', rfl⟩, ?_, listed, tables⟩
  rw [outputOf, origin?_of_unset unset]
  rfl

theorem branchesAlone_markingSet
    : BranchesAlone markingSet := by
  unfold BranchesAlone BranchAlone
  decide +kernel

/-- The only branch of the marked program has a label for its target. -/
theorem branchesMove_marked
    : BranchesMove markedStatements := by
  intro token instruction operand member branch
  simp only [markedStatements, List.mem_cons, Statement.operate.injEq, Option.some.injEq,
    reduceCtorEq, List.not_mem_nil, or_false, false_or] at member
  rcases member with ⟨rfl, rfl, rfl⟩ | ⟨rfl, rfl, rfl⟩ | ⟨rfl, rfl, rfl⟩ | ⟨rfl, rfl, rfl⟩
    | ⟨rfl, rfl, rfl⟩
  · cases branch
  · cases branch
  · cases branch
  · cases branch
  · refine ⟨by decide, fun _ assignment value assigned => ?_⟩
    simp only [markedStatements, List.mem_cons, Statement.assign.injEq, reduceCtorEq,
      List.not_mem_nil, or_false, false_or] at assigned
    exact absurd assigned.2.1 (by decide +kernel)

/-- The marked program moves to the last base that leaves room for it. Its jump follows the label,
and so do the bytes of the label that it loads; its other load keeps the variable, and its branch
keeps its displacement.
-/
theorem twoPass_relocates_marked
    : BranchesMove markedStatements
      ∧ ∃ output output',
          (twoPass markingSet markedTokens 0xC000 {}).2 = .ok output
          ∧ output.bytes
            = [0x4C, 0x03, 0xC0, 0xAD, 0x00, 0x04, 0xA9, 0x03, 0xA9, 0xC0, 0xD0, 0xF7]
          ∧ (twoPass markingSet markedTokens 0xFFF3 {}).2 = .ok output'
          ∧ output.Relocated 0xC000 0xFFF3 markedStatements output'
          ∧ output'.bytes
            = [0x4C, 0xF6, 0xFF, 0xAD, 0x00, 0x04, 0xA9, 0xF6, 0xA9, 0xFF, 0xD0, 0xF7] := by
  have evaluated : (twoPass markingSet markedTokens 0xC000 {}).2.toOption.map (·.bytes)
        = some [0x4C, 0x03, 0xC0, 0xAD, 0x00, 0x04, 0xA9, 0x03, 0xA9, 0xC0, 0xD0, 0xF7]
      ∧ (twoPass markingSet markedTokens 0xFFF3 {}).2.toOption.map (·.bytes)
        = some [0x4C, 0xF6, 0xFF, 0xAD, 0x00, 0x04, 0xA9, 0xF6, 0xA9, 0xFF, 0xD0, 0xF7] := by
    decide +kernel
  cases succeeded : (twoPass markingSet markedTokens 0xC000 {}).2 with
  | error fault => simp [succeeded, Except.toOption] at evaluated
  | ok output =>
      have bytes : output.bytes
          = [0x4C, 0x03, 0xC0, 0xAD, 0x00, 0x04, 0xA9, 0x03, 0xA9, 0xC0, 0xD0, 0xF7] := by
        simpa [succeeded, Except.toOption] using evaluated.1
      obtain ⟨output', succeeded', relocated⟩ :=
        twoPass_relocates branchesAlone_markingSet (by decide)
          (statements_marked ▸ branchesMove_marked) succeeded 0xFFF3 (by rw [bytes]; decide) {}
      rw [statements_marked] at relocated
      refine ⟨branchesMove_marked, output, output', rfl, bytes, succeeded', relocated, ?_⟩
      simpa [succeeded', Except.toOption] using evaluated.2

end Asm6510.Assembly
