import Asm6510.Proofs.Assembly.Passes
import Asm6510.Proofs.Machine.Inverse
import Asm6510.Proofs.Operand.Outline

/-! The order of registration. A text is an operand of one mode at most, zero-page addresses and
displacements apart, so the first mode that accepts it is the only one. Sets that hold the same
entries in different orders therefore assemble every source alike, down to the messages.
-/

namespace Asm6510

namespace Machine

namespace Mode

/-- A displacement looks like a zero-page address. -/
theorem accepts_zeroPage_eq_relative (text : String)
    : Mode.zeroPage.accepts text = Mode.relative.accepts text :=
  rfl

/-- The modes other than those of a byte address are told apart by their shapes. -/
theorem eq_of_shape? {mode other : Mode} (same : mode.shape? = other.shape?)
    (first : mode ≠ .implied) (second : other ≠ .implied)
    : mode = other
      ∨ mode = .zeroPage ∧ other = .relative
      ∨ mode = .relative ∧ other = .zeroPage := by
  have all : ∀ mode ∈ Mode.all, ∀ other ∈ Mode.all,
      mode.shape? = other.shape? → mode ≠ .implied → other ≠ .implied
      → mode = other
        ∨ mode = .zeroPage ∧ other = .relative
        ∨ mode = .relative ∧ other = .zeroPage := by decide
  exact all mode (mem_all mode) other (mem_all other) same first second

/-- No text is the operand of an implied instruction. -/
theorem ne_implied_of_accepts {mode : Mode} {text : String} (accepted : mode.accepts text = true)
    : mode ≠ .implied := by
  rintro rfl
  cases accepted

/-- A text is an operand of one mode, or of the two that read a byte address. -/
theorem eq_of_accepts {mode other : Mode} {text : String} (first : mode.accepts text = true)
    (second : other.accepts text = true)
    : mode = other
      ∨ mode = .zeroPage ∧ other = .relative
      ∨ mode = .relative ∧ other = .zeroPage :=
  eq_of_shape? (shape?_eq_of_accepts first second) (ne_implied_of_accepts first)
    (ne_implied_of_accepts second)

end Mode

namespace Instruction

/-- Instructions with one mnemonic, one description and the same opcodes, in whatever order their
modes were bound.
-/
structure Agrees (first second : Instruction) : Prop where
  mnemonic : first.mnemonic = second.mnemonic
  description : first.description = second.description
  opcodes : ∀ mode, first.opcode? mode = second.opcode? mode

instance (first second : Instruction) : Decidable (first.Agrees second) :=
  decidable_of_iff
    (first.mnemonic = second.mnemonic
      ∧ first.description = second.description
      ∧ ∀ mode ∈ Mode.all, first.opcode? mode = second.opcode? mode)
    ⟨fun agreed => ⟨agreed.1, agreed.2.1, fun mode => agreed.2.2 mode (Mode.mem_all mode)⟩,
      fun agreed => ⟨agreed.mnemonic, agreed.description, fun mode _ => agreed.opcodes mode⟩⟩

/-- No operand can be read in two modes of the instruction. -/
def Unambiguous (instruction : Instruction) : Prop :=
  ¬ (instruction.supports .zeroPage = true ∧ instruction.supports .relative = true)

instance (instruction : Instruction) : Decidable instruction.Unambiguous :=
  inferInstanceAs (Decidable (¬ _))

variable {first second : Instruction}

theorem Agrees.supports (agreed : first.Agrees second) (mode : Mode)
    : first.supports mode = second.supports mode := by
  rw [Instruction.supports, Instruction.supports, agreed.opcodes]

theorem Agrees.unambiguous (agreed : first.Agrees second) (clear : first.Unambiguous)
    : second.Unambiguous := by
  rwa [Unambiguous, agreed.supports, agreed.supports] at clear

end Instruction

namespace InstructionSet

/-- Sets that hold the same mnemonics, descriptions and opcodes, in whatever order. -/
structure Agrees (first second : InstructionSet) : Prop where
  left
    : ∀ instruction ∈ first.instructions, ∃ other ∈ second.instructions, instruction.Agrees other
  right
    : ∀ other ∈ second.instructions, ∃ instruction ∈ first.instructions, instruction.Agrees other

instance (first second : InstructionSet) : Decidable (first.Agrees second) :=
  decidable_of_iff
    ((∀ instruction ∈ first.instructions, ∃ other ∈ second.instructions,
        instruction.Agrees other)
      ∧ ∀ other ∈ second.instructions, ∃ instruction ∈ first.instructions,
          instruction.Agrees other)
    ⟨fun agreed => ⟨agreed.1, agreed.2⟩, fun agreed => ⟨agreed.left, agreed.right⟩⟩

/-- Sets that answer every look-up alike, and with an instruction that reads no operand in two
ways.
-/
def Answers (first second : InstructionSet) : Prop :=
  ∀ mnemonic,
    first.lookup mnemonic = none ∧ second.lookup mnemonic = none
    ∨ ∃ instruction other,
        first.lookup mnemonic = some instruction
        ∧ second.lookup mnemonic = some other
        ∧ instruction.Agrees other
        ∧ instruction.Unambiguous

variable {first second : InstructionSet}

/-- In sets where each mnemonic names one instruction, order does not matter to look-ups. -/
theorem Agrees.answers (agreed : first.Agrees second) (built : Built first)
    (rebuilt : Built second)
    (clear : ∀ instruction ∈ first.instructions, instruction.Unambiguous)
    : first.Answers second := by
  intro mnemonic
  cases found : first.lookup mnemonic with
  | some instruction =>
      obtain ⟨listed, rfl⟩ := mem_of_lookup found
      obtain ⟨other, present, same⟩ := agreed.left instruction listed
      have answer : second.lookup instruction.mnemonic = some other := by
        rw [same.mnemonic]
        exact rebuilt.indexed.lookup_of_mem present
      exact .inr ⟨instruction, other, rfl, answer, same, clear instruction listed⟩
  | none =>
      refine .inl ⟨rfl, ?_⟩
      cases answer : second.lookup mnemonic with
      | none => rfl
      | some other =>
          obtain ⟨present, rfl⟩ := mem_of_lookup answer
          obtain ⟨instruction, listed, same⟩ := agreed.right other present
          have looked := built.indexed.lookup_of_mem listed
          rw [same.mnemonic, found] at looked
          cases looked

theorem Answers.isInstruction (answers : first.Answers second) (text : String)
    : first.isInstruction text = second.isInstruction text := by
  unfold InstructionSet.isInstruction
  rcases answers text with ⟨unknown, unknown'⟩ | ⟨_, _, found, found', -, -⟩
  · rw [unknown, unknown']
  · rw [found, found']
    rfl

end InstructionSet

end Machine

namespace Assembly

open Machine (Built Instruction InstructionSet Mode)
open Operand
open Source (Token)

variable {set other : InstructionSet} {instruction twin : Instruction} {pass : Pass}
  {symbols : Symbols} {here : UInt16} {statement statement' : Statement} {progress : Progress}
  {expected? : Option Nat}

-----------------------------------------------------------------------------------------
-- Modes
-----------------------------------------------------------------------------------------

/-- An instruction that reads no operand in two ways selects the mode that accepts it. -/
theorem selectMode?_eq_some_iff (clear : instruction.Unambiguous) {text : String} {mode : Mode}
    {opcode : UInt8}
    : selectMode? instruction text = some (mode, opcode)
      ↔ mode.accepts text = true ∧ instruction.opcode? mode = some opcode := by
  constructor
  · exact selectMode?_eq_some
  · rintro ⟨accepted, bound⟩
    have supported : instruction.supports mode = true := by
      rw [Instruction.supports, bound]
      rfl
    obtain ⟨⟨mode', opcode'⟩, selected⟩ := selectMode?_isSome supported accepted
    obtain ⟨accepted', bound'⟩ := selectMode?_eq_some selected
    have supported' : instruction.supports mode' = true := by
      rw [Instruction.supports, bound']
      rfl
    rcases Mode.eq_of_accepts accepted accepted' with rfl | ⟨rfl, rfl⟩ | ⟨rfl, rfl⟩
    · obtain rfl : opcode' = opcode := Option.some.inj (bound'.symm.trans bound)
      exact selected
    · exact absurd ⟨supported, supported'⟩ clear
    · exact absurd ⟨supported', supported⟩ clear

/-- The order in which modes were bound does not matter to the selection. -/
theorem selectMode?_of_agrees (agreed : instruction.Agrees twin) (clear : instruction.Unambiguous)
    (text : String)
    : selectMode? instruction text = selectMode? twin text := by
  apply Option.ext
  rintro ⟨mode, opcode⟩
  rw [selectMode?_eq_some_iff clear, selectMode?_eq_some_iff (agreed.unambiguous clear),
    agreed.opcodes]

-----------------------------------------------------------------------------------------
-- Instructions
-----------------------------------------------------------------------------------------

theorem resolve_of_agrees (answers : set.Answers other) (agreed : instruction.Agrees twin)
    (operand : Token)
    : resolve set pass symbols here instruction operand
      = resolve other pass symbols here twin operand := by
  have sought : isLookedUp instruction operand = isLookedUp twin operand := by
    rw [isLookedUp, isLookedUp, agreed.supports]
  simp only [resolve, sought, answers.isInstruction, agreed.mnemonic]

theorem operandText_of_agrees (answers : set.Answers other) (agreed : instruction.Agrees twin)
    (operand : Token)
    : operandText set pass symbols here instruction operand
      = operandText other pass symbols here twin operand := by
  have branch : instruction.isBranch = twin.isBranch := agreed.supports .relative
  rw [operandText, operandText, resolve_of_agrees answers agreed, branch]

/-- Agreeing instructions do the same with an operand, messages included. -/
theorem operate_of_agrees (answers : set.Answers other) (agreed : instruction.Agrees twin)
    (clear : instruction.Unambiguous) (token operand : Token)
    : operate set pass symbols here token instruction operand
      = operate other pass symbols here token twin operand := by
  simp only [operate, operandText_of_agrees answers agreed, selectMode?_of_agrees agreed clear,
    agreed.mnemonic, agreed.description]

-----------------------------------------------------------------------------------------
-- Statements
-----------------------------------------------------------------------------------------

/-- Statements of the same tokens, whose instructions agree. -/
inductive Statement.Agrees : Statement → Statement → Prop
  | same {statement : Statement} (plain : statement.isOperate = false)
    : Agrees statement statement
  | implied {instruction twin : Instruction} (token : Token) (opcode : UInt8)
    (agreed : instruction.Agrees twin)
    : Agrees (.implied token instruction opcode) (.implied token twin opcode)
  | operate {instruction twin : Instruction} (token : Token) (operand? : Option Token)
    (agreed : instruction.Agrees twin) (clear : instruction.Unambiguous)
    : Agrees (.operate token instruction operand?) (.operate token twin operand?)

namespace Statement.Agrees

theorem head (agreed : statement.Agrees statement')
    : statement.head = statement'.head := by
  cases agreed <;> rfl

theorem tail (agreed : statement.Agrees statement')
    : statement.tail = statement'.tail := by
  cases agreed <;> rfl

theorem isAnchored (agreed : statement.Agrees statement')
    : statement.isAnchored = statement'.isAnchored := by
  cases agreed <;> rfl

/-- The effect of a statement does not depend on the order of registration. -/
theorem effect (answers : set.Answers other) (agreed : statement.Agrees statement')
    : statement.effect set pass symbols here = statement'.effect other pass symbols here := by
  cases agreed with
  | same plain =>
      -- Only an instruction with an operand consults the set.
      cases statement with
      | operate token instruction operand? => cases plain
      | origin | data | string | label | assign | implied | stray => rfl
  | implied token opcode agreed => simp only [Statement.effect, agreed.mnemonic]
  | operate token operand? agreed clear =>
      simp only [Statement.effect, operate_of_agrees answers agreed clear]

/-- A statement takes a pass as far with either set, and leaves the same messages. -/
theorem step (answers : set.Answers other) (agreed : statement.Agrees statement')
    : progress.step set pass expected? statement
      = progress.step other pass expected? statement' := by
  have pos : statement.pos = statement'.pos := congrArg (·.pos) agreed.head
  have started : progress.checkStart expected? statement
      = progress.checkStart expected? statement' := by
    simp only [Progress.checkStart, agreed.isAnchored]
  have changed (effect : Effect)
      : progress.change pass statement effect = progress.change pass statement' effect := by
    cases effect <;> simp only [Progress.change, agreed.head, pos]
  simp only [Progress.step, Progress.attempt, started, agreed.effect answers, changed, pos]

end Statement.Agrees

theorem starting_agrees (answers : set.Answers other) (token : Token) (rest : List Token)
    : (Statement.starting set token rest).Agrees (Statement.starting other token rest) := by
  obtain ⟨kind, text, pos⟩ := token
  cases kind with
  | directive directive => cases directive <;> exact .same rfl
  | text | assignment | label | operand => exact .same rfl
  | ident =>
      simp only [Statement.starting]
      rcases answers text with
        ⟨unknown, unknown'⟩ | ⟨instruction, twin, found, found', agreed, clear⟩
      · rw [unknown, unknown']
        exact .same rfl
      · rw [found, found']
        dsimp only
        rw [agreed.opcodes]
        cases twin.opcode? .implied with
        | some opcode => exact .implied _ opcode agreed
        | none => exact .operate _ _ agreed clear

/-- The statements of a source do not depend on the order of registration. -/
theorem statements_agree (answers : set.Answers other) (tokens : List Token)
    : List.Forall₂ Statement.Agrees (statements set tokens) (statements other tokens) := by
  fun_induction statements set tokens with
  | case1 =>
      rw [statements]
      exact .nil
  | case2 token rest statement ih =>
      have agreed := starting_agrees answers token rest
      rw [statements]
      refine .cons agreed ?_
      rw [← agreed.tail]
      exact ih

-----------------------------------------------------------------------------------------
-- Runs
-----------------------------------------------------------------------------------------

/-- Agreeing statements, each to be found at the same counter. -/
def PairedAgrees (item item' : Statement × Option Nat) : Prop :=
  item.1.Agrees item'.1 ∧ item.2 = item'.2

theorem forall₂_zip_agrees {items items' : List Statement}
    (agreed : List.Forall₂ Statement.Agrees items items') (starts : List (Option Nat))
    : List.Forall₂ PairedAgrees (items.zip starts) (items'.zip starts) := by
  induction agreed generalizing starts with
  | nil => exact .nil
  | cons first _ ih =>
      cases starts with
      | nil => exact .nil
      | cons start starts => exact .cons ⟨first, rfl⟩ (ih starts)

/-- A walk does not depend on the order of registration, by induction on its statements. -/
theorem walk_of_agrees (answers : set.Answers other)
    {items items' : List (Statement × Option Nat)}
    (agreed : List.Forall₂ PairedAgrees items items') (progress : Progress)
    : Progress.walk set pass items progress = Progress.walk other pass items' progress := by
  induction agreed generalizing progress with
  | nil => rfl
  | @cons item item' items items' first _ ih =>
      obtain ⟨statement, expected?⟩ := item
      obtain ⟨statement', _⟩ := item'
      obtain ⟨agreed, rfl⟩ := first
      have stepped : progress.step set pass expected? statement
          = progress.step other pass expected? statement' := agreed.step answers
      simp only [Progress.walk, stepped, ih]

theorem prescan_of_agrees (answers : set.Answers other) {items items' : List Statement}
    (agreed : List.Forall₂ Statement.Agrees items items') (progress : Progress)
    : progress.prescan set items = progress.prescan other items' := by
  refine walk_of_agrees answers ?_ progress
  rw [List.forall₂_map_left_iff, List.forall₂_map_right_iff]
  exact agreed.imp fun _ _ same => ⟨same, rfl⟩

theorem assemble_of_agrees (answers : set.Answers other) {items items' : List Statement}
    (agreed : List.Forall₂ Statement.Agrees items items') (progress : Progress) (base : UInt16)
    : progress.assemble set items base = progress.assemble other items' base := by
  have walked : Progress.walk set .assemble _ (restarted progress base)
      = Progress.walk other .assemble _ (restarted progress base) :=
    walk_of_agrees answers (forall₂_zip_agrees agreed (progress.starts.toList.map some)) _
  unfold restarted at walked
  simp only [Progress.assemble, walked]

/-- Tokens are assembled alike with sets that answer alike. -/
theorem twoPass_of_agrees (answers : set.Answers other) (tokens : List Token) (base : UInt16)
    (log : Report.Log)
    : twoPass set tokens base log = twoPass other tokens base log := by
  have agreed := statements_agree answers tokens
  simp only [twoPass, prescan_of_agrees answers agreed, assemble_of_agrees answers agreed]

/-- Registration order does not matter to assembly: a run with another set of the same entries
ends alike and leaves the same log and the same sources. It does not matter because a text is an
operand of one mode at most, apart from the two modes that accept the same texts.
-/
theorem runSource_of_agrees {set other : InstructionSet} (built : Built set)
    (rebuilt : Built other) (agreed : set.Agrees other)
    (clear : ∀ instruction ∈ set.instructions, instruction.Unambiguous)
    : (∀ (assembler : Assembler) (file code : String) (base : UInt16),
        let run := { assembler with set }.runSource file code base
        { assembler with set := other }.runSource file code base
          = ({ run.1 with set := other }, run.2))
      ∧ (∀ (text : String) (mode mode' : Mode),
          mode.accepts text = true
          → mode'.accepts text = true
          → mode = mode'
            ∨ mode = .zeroPage ∧ mode' = .relative
            ∨ mode = .relative ∧ mode' = .zeroPage)
      ∧ ∀ text, Mode.zeroPage.accepts text = Mode.relative.accepts text := by
  have answers := agreed.answers built rebuilt clear
  refine ⟨?_, fun _ _ _ => Mode.eq_of_accepts, Mode.accepts_zeroPage_eq_relative⟩
  intro assembler file code base
  simp only [Assembler.runSource]
  cases (Source.expand assembler.library assembler.root file code).outcome with
  | error fault => rfl
  | ok tokens => simp only [twoPass_of_agrees answers]

/-- The small set in another order, with the modes of its load in another order too. -/
def shuffledSet : InstructionSet :=
  let loading := ((InstructionSet.empty.register "LDA" "Load").1.bind "LDA" .absolute 0xAD).1
  let branching := ((loading.register "BNE" "Branch").1.bind "BNE" .relative 0xD0).1
  let jumping := ((branching.register "JMP" "Jump").1.bind "JMP" .absolute 0x4C).1
  (jumping.bind "LDA" .zeroPage 0xA5).1

/-- A program with a forward reference, a branch back and loads in both widths runs alike with
the two sets, which are different.
-/
theorem runSource_of_agrees_shuffled
    : smallSet ≠ shuffledSet
      ∧ smallSet.Agrees shuffledSet
      ∧ (∀ instruction ∈ smallSet.instructions, instruction.Unambiguous)
      ∧ ({ smallAssembler with set := shuffledSet }.runSource "t"
            "JMP end loop: LDA $10 BNE loop end: LDA loop" 0x1000).2.toOption.map Output.bytes
          = some [0x4C, 0x07, 0x10, 0xA5, 0x10, 0xD0, 0xFC, 0xAD, 0x03, 0x10] := by
  have built : Built smallSet :=
    ((((((Built.empty.register _ _).bind _ _ _).register _ _).bind _ _ _).register _ _).bind
      _ _ _).bind _ _ _
  have rebuilt : Built shuffledSet :=
    ((((((Built.empty.register _ _).bind _ _ _).register _ _).bind _ _ _).register _ _).bind
      _ _ _).bind _ _ _
  have agreed : smallSet.Agrees shuffledSet := by decide +kernel
  have clear : ∀ instruction ∈ smallSet.instructions, instruction.Unambiguous := by
    decide +kernel
  refine ⟨by decide +kernel, agreed, clear, ?_⟩
  rw [(runSource_of_agrees built rebuilt agreed clear).1 smallAssembler]
  decide +kernel

end Assembly

end Asm6510
