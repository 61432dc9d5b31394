import Asm6510.Assembly.Progress
import Asm6510.Proofs.Assembly.Outcomes

/-! What carrying out one statement changes. Each way to succeed is a case of one relation, so
that facts about passes are proved case by case and never from the step function itself.
-/

namespace Asm6510.Assembly

open Machine (Instruction InstructionSet Mode)
open Operand
open Progress (Change)
open Source (Token)

namespace Statement

/-- Whether a statement puts bytes into the output. -/
def emits : Statement → Bool
  | data _ _ _ | string _ _ | implied _ _ _ | operate _ _ _ => true
  | origin _ _ | label _ _ | assign _ _ _ | stray _ => false

/-- Whether a statement moves the counter without emitting. -/
def moves : Statement → Bool
  | origin _ _ => true
  | _ => false

/-- Whether a statement is an instruction with an operand, whose row depends on the pass. -/
def isOperate : Statement → Bool
  | operate _ _ _ => true
  | _ => false

/-- A statement that emits stands for an address. -/
theorem isAnchored_of_emits {statement : Statement} (emitting : statement.emits = true)
    : statement.isAnchored = true := by
  cases statement <;> simp_all [emits, isAnchored]

end Statement

namespace Pass

/-- The change that moves the counter past a row, which the second pass keeps. -/
def emitted (pass : Pass) (counter : Nat) (row : Row) : Change where
  counter := counter + row.bytes.length
  row? :=
    match pass with
    | prescan => none
    | assemble => some row

/-- The change that declares a name, which the first pass keeps. -/
def declared (pass : Pass) (counter : Nat) (declaration : Declaration) : Change where
  counter := counter
  declaration? :=
    match pass with
    | prescan => some declaration
    | assemble => none

end Pass

/-- The changes that a statement can make at a counter, with these symbols known. -/
inductive Carried (set : InstructionSet) (pass : Pass) (symbols : Symbols) (counter : Nat)
    : Statement → Change → Prop
  | move {directive operand : Token} {address : UInt16}
    (word : wordValue? operand.text = some address)
    : Carried set pass symbols counter (.origin directive (some operand))
        { counter := address.toNat }
  | emit {statement : Statement} {row : Row} (inside : counter < addressSpace)
    (made : (statement.effect set pass symbols (UInt16.ofNat counter)).outcome = .ok (.emit row))
    (fits : counter + row.bytes.length ≤ addressSpace)
    : Carried set pass symbols counter statement (pass.emitted counter row)
  | label {token : Token} {name : String} (inside : counter < addressSpace)
    (fresh : pass = .prescan → symbols.get? name = none)
    : Carried set pass symbols counter (.label token name)
        (pass.declared counter ⟨name, token.pos, .label (UInt16.ofNat counter)⟩)
  | assign {token value : Token} {name : String}
    (fresh : pass = .prescan → symbols.get? name = none)
    : Carried set pass symbols counter (.assign token name (some value))
        (pass.declared counter ⟨name, token.pos, .assigned value.text⟩)
  | stray {token : Token}
    : Carried set pass symbols counter (.stray token) { counter }

variable {set : InstructionSet} {pass : Pass} {symbols : Symbols} {counter : Nat}
  {statement : Statement} {change : Change} {progress : Progress} {expected? : Option Nat}
  {here : UInt16} {effect : Effect}

theorem effect_origin_eq_ok_iff {directive : Token} {operand? : Option Token}
    : ((Statement.origin directive operand?).effect set pass symbols here).outcome = .ok effect
      ↔ ∃ operand address,
          operand? = some operand
          ∧ wordValue? operand.text = some address
          ∧ effect = .moveTo address := by
  cases operand? with
  | none => simp [Statement.effect, required]
  | some operand =>
      cases found : wordValue? operand.text with
      | none => simp [Statement.effect, required, found]
      | some address => simp [Statement.effect, required, found, eq_comm]

theorem effect_string_eq_ok_iff {directive : Token} {operand? : Option Token}
    : ((Statement.string directive operand?).effect set pass symbols here).outcome = .ok effect
      ↔ ∃ operand content,
          operand? = some operand
          ∧ operand.kind = .text content
          ∧ effect
            = .emit {
                address := here
                bytes := Text.encode content ++ [0]
                text := directive.text ++ " " ++ operand.text
                reference? := none
                pos := directive.pos
              } := by
  cases operand? with
  | none => simp [Statement.effect, required]
  | some operand => cases found : operand.kind <;> simp [Statement.effect, required, found, eq_comm]

theorem effect_assign_eq_ok_iff {token : Token} {name : String} {value? : Option Token}
    : ((Statement.assign token name value?).effect set pass symbols here).outcome = .ok effect
      ↔ ∃ value, value? = some value ∧ effect = .declare name (.assigned value.text) := by
  cases value? <;> simp [Statement.effect, required, eq_comm]

theorem effect_operate_eq_ok_iff {token : Token} {instruction : Instruction}
    {operand? : Option Token}
    : ((Statement.operate token instruction operand?).effect set pass symbols here).outcome
        = .ok effect
      ↔ ∃ operand row,
          operand? = some operand
          ∧ (operate set pass symbols here token instruction operand).outcome = .ok row
          ∧ effect = .emit row := by
  cases operand? with
  | none => simp [Statement.effect, required]
  | some operand =>
      simp only [Statement.effect, required, Logged.outcome_bind, Logged.outcome_pure, ok_bind,
        bind_eq_ok, Option.some.injEq, Except.ok.injEq]
      constructor
      · intro found
        obtain ⟨row, made, rfl⟩ := found
        exact ⟨operand, row, rfl, made, rfl⟩
      · intro found
        obtain ⟨_, row, rfl, made, rfl⟩ := found
        exact ⟨row, made, rfl⟩

/-- The effect of a statement that is no instruction with an operand does not depend on the pass
or the symbols.
-/
theorem effect_eq_of_not_operate (plain : statement.isOperate = false) (other : Pass)
    (known : Symbols)
    : statement.effect set pass symbols here = statement.effect set other known here := by
  cases statement <;> first | rfl | simp [Statement.isOperate] at plain

/-- The five kinds of effects, and the statements that have them. -/
theorem effect_cases (made : (statement.effect set pass symbols here).outcome = .ok effect)
    : (∃ row, effect = .emit row ∧ statement.emits = true ∧ row.address = here)
      ∨ (∃ directive operand address,
          statement = .origin directive (some operand)
          ∧ wordValue? operand.text = some address
          ∧ effect = .moveTo address)
      ∨ (∃ token name, statement = .label token name ∧ effect = .declare name (.label here))
      ∨ (∃ token name value,
          statement = .assign token name (some value)
          ∧ effect = .declare name (.assigned value.text))
      ∨ ∃ token, statement = .stray token ∧ effect = .ignore := by
  cases statement with
  | origin directive operand? =>
      obtain ⟨operand, address, rfl, word, rfl⟩ := effect_origin_eq_ok_iff.mp made
      exact .inr (.inl ⟨directive, operand, address, rfl, word, rfl⟩)
  | label token name =>
      cases made
      exact .inr (.inr (.inl ⟨token, name, rfl, rfl⟩))
  | assign token name value? =>
      obtain ⟨value, rfl, rfl⟩ := effect_assign_eq_ok_iff.mp made
      exact .inr (.inr (.inr (.inl ⟨token, name, value, rfl, rfl⟩)))
  | stray token =>
      cases made
      exact .inr (.inr (.inr (.inr ⟨token, rfl, rfl⟩)))
  | data width directive literals =>
      cases made
      exact .inl ⟨_, rfl, rfl, rfl⟩
  | implied token instruction opcode =>
      cases made
      exact .inl ⟨_, rfl, rfl, rfl⟩
  | string directive operand? =>
      obtain ⟨_, _, rfl, _, rfl⟩ := effect_string_eq_ok_iff.mp made
      exact .inl ⟨_, rfl, rfl, rfl⟩
  | operate token instruction operand? =>
      obtain ⟨_, _, rfl, encoded, rfl⟩ := effect_operate_eq_ok_iff.mp made
      obtain ⟨_, _, _, _, _, _, _, rfl⟩ := operate_eq_ok_iff.mp encoded
      exact .inl ⟨_, rfl, rfl, rfl⟩

/-- A row stands at the address it was made for, and only statements that emit have one. -/
theorem address_of_effect {row : Row}
    (made : (statement.effect set pass symbols here).outcome = .ok (.emit row))
    : statement.emits = true ∧ row.address = here := by
  rcases effect_cases made with
    ⟨_, same, emitting, placed⟩ | ⟨_, _, _, _, _, other⟩ | ⟨_, _, _, other⟩
    | ⟨_, _, _, _, other⟩ | ⟨_, _, other⟩
  · cases same
    exact ⟨emitting, placed⟩
  all_goals cases other

/-- Inside the address space a row stands at the counter, which is not cut to an address. -/
theorem toNat_address_of_effect {row : Row} (inside : counter < addressSpace)
    (made : (statement.effect set pass symbols (UInt16.ofNat counter)).outcome = .ok (.emit row))
    : row.address.toNat = counter := by
  rw [(address_of_effect made).2]
  exact UInt16.toNat_ofNat_of_lt inside

namespace Progress

theorem attempt_outcome
    : (progress.attempt set pass expected? statement).outcome
      = (progress.checkStart expected? statement >>= fun _ =>
          (statement.effect set pass progress.symbols (UInt16.ofNat progress.counter)).outcome
            >>= fun effect => (progress.change pass statement effect).outcome) := by
  simp [attempt]

/-- The start of a statement is right when it is an address and the one measured before. -/
theorem checkStart_eq_ok_iff
    : progress.checkStart expected? statement = .ok ()
      ↔ (statement.isAnchored = true
          → progress.counter < addressSpace ∧ ∀ expected ∈ expected?, expected = progress.counter)
        := by
  unfold checkStart
  split
  · rename_i anchored
    split
    · rename_i outside
      simp only [anchored, reduceCtorEq, forall_const, false_iff, not_and]
      intro inside
      omega
    · rename_i inside
      cases expected? with
      | none => simp [anchored]; omega
      | some expected =>
          by_cases same : expected = progress.counter
          · simp [anchored, same]; omega
          · simp [anchored, same]
  · simp_all

/-- A name has a place exactly when it has a meaning. -/
theorem pos?_eq_none_iff {name : String}
    : symbols.pos? name = none ↔ symbols.get? name = none := by
  simp [Symbols.pos?, Symbols.get?]

/-- Only a first declaration is a change, and only the first pass keeps it. -/
theorem change_declare_eq_ok_iff {name : String} {symbol : Symbol}
    : (progress.change pass statement (.declare name symbol)).outcome = .ok change
      ↔ (pass = .prescan → progress.symbols.get? name = none)
        ∧ change = pass.declared progress.counter ⟨name, statement.pos, symbol⟩ := by
  cases pass with
  | assemble => simp [Progress.change, Pass.declared, eq_comm]
  | prescan =>
      simp only [Progress.change, declare, Pass.declared, ← pos?_eq_none_iff]
      cases progress.symbols.pos? name with
      | none => simp [eq_comm]
      | some first => simp

/-- A row must end inside the address space. -/
theorem change_emit_eq_ok_iff {row : Row}
    : (progress.change pass statement (.emit row)).outcome = .ok change
      ↔ progress.counter + row.bytes.length ≤ addressSpace
        ∧ change = pass.emitted progress.counter row := by
  simp only [Progress.change, Logged.outcome_ofExcept, emit, Pass.emitted]
  split
  · rename_i outside
    simp only [reduceCtorEq, false_iff, not_and]
    omega
  · rename_i inside
    cases pass <;> simp [eq_comm] <;> omega

end Progress

/-- A statement that stands for an address is carried out inside the address space. -/
theorem Carried.inside (carried : Carried set pass symbols counter statement change)
    (anchored : statement.isAnchored = true)
    : counter < addressSpace := by
  cases carried with
  | emit inside | label inside => exact inside
  | move | assign | stray => simp [Statement.isAnchored] at anchored

/-- A statement that neither emits nor moves leaves the counter where it is. -/
theorem Carried.still (carried : Carried set pass symbols counter statement change)
    (silent : statement.emits = false) (fixed : statement.moves = false)
    : change.counter = counter := by
  cases carried with
  | move word => cases fixed
  | emit inside made fits =>
      rw [(address_of_effect made).1] at silent
      cases silent
  | label | assign | stray => rfl

/-- Carrying out a statement succeeds exactly in the cases of `Carried`, provided that a
statement that stands for an address is where it was measured.
-/
theorem attempt_eq_ok_iff
    : (progress.attempt set pass expected? statement).outcome = .ok change
      ↔ Carried set pass progress.symbols progress.counter statement change
        ∧ (statement.isAnchored = true → ∀ expected ∈ expected?, expected = progress.counter) := by
  rw [Progress.attempt_outcome, bind_eq_ok]
  constructor
  · intro attempted
    obtain ⟨⟨⟩, started, changed⟩ := attempted
    have started := Progress.checkStart_eq_ok_iff.mp started
    refine ⟨?_, fun anchored => (started anchored).2⟩
    -- The guards of the start and of the change are what each case of the relation asks for.
    obtain ⟨effect, made, changed⟩ := bind_eq_ok.mp changed
    rcases effect_cases made with
      ⟨row, rfl, emitting, -⟩ | ⟨directive, operand, address, rfl, word, rfl⟩
      | ⟨token, name, rfl, rfl⟩ | ⟨token, name, value, rfl, rfl⟩ | ⟨token, rfl, rfl⟩
    · obtain ⟨fits, rfl⟩ := Progress.change_emit_eq_ok_iff.mp changed
      exact .emit (started (Statement.isAnchored_of_emits emitting)).1 made fits
    · cases changed
      exact .move word
    · obtain ⟨fresh, rfl⟩ := Progress.change_declare_eq_ok_iff.mp changed
      exact .label (started rfl).1 fresh
    · obtain ⟨fresh, rfl⟩ := Progress.change_declare_eq_ok_iff.mp changed
      exact .assign fresh
    · obtain rfl : change = { counter := progress.counter } := by
        cases pass <;> simpa [Progress.change, eq_comm] using changed
      exact .stray
  · intro possible
    obtain ⟨carried, placed⟩ := possible
    refine ⟨(), Progress.checkStart_eq_ok_iff.mpr fun anchored => ⟨?_, placed anchored⟩,
      bind_eq_ok.mpr ?_⟩
    · exact carried.inside anchored
    · cases carried with
      | move word => exact ⟨_, effect_origin_eq_ok_iff.mpr ⟨_, _, rfl, word, rfl⟩, rfl⟩
      | emit inside made fits =>
          exact ⟨_, made, Progress.change_emit_eq_ok_iff.mpr ⟨fits, rfl⟩⟩
      | label inside fresh =>
          exact ⟨_, rfl, Progress.change_declare_eq_ok_iff.mpr ⟨fresh, rfl⟩⟩
      | assign fresh =>
          exact ⟨_, effect_assign_eq_ok_iff.mpr ⟨_, rfl, rfl⟩,
            Progress.change_declare_eq_ok_iff.mpr ⟨fresh, rfl⟩⟩
      | stray => exact ⟨_, rfl, by cases pass <;> rfl⟩

end Asm6510.Assembly
