import Asm6510.Proofs.Assembly.Passes
import Asm6510.Proofs.Source.Expanded

/-! Runs without places. Tokens of the same kinds and texts are assembled alike wherever they
stand: each step commutes with forgetting the places, and so does a whole run, failed or not.
-/

namespace Asm6510

open Machine (Instruction InstructionSet)
open Operand
open Report (Log)

/-- A token that stands nowhere. -/
def Source.Token.unplaced (token : Source.Token) : Source.Token :=
  { token with pos := default }

namespace Assembly

open Progress (Change)
open Source (Token)

/-- A statement of tokens that stand nowhere. -/
def Statement.unplaced : Statement → Statement
  | origin directive operand? => origin directive.unplaced (operand?.map Token.unplaced)
  | data width directive literals => data width directive.unplaced (literals.map Token.unplaced)
  | string directive operand? => string directive.unplaced (operand?.map Token.unplaced)
  | label token name => label token.unplaced name
  | assign token name value? => assign token.unplaced name (value?.map Token.unplaced)
  | implied token instruction opcode => implied token.unplaced instruction opcode
  | operate token instruction operand? =>
      operate token.unplaced instruction (operand?.map Token.unplaced)
  | stray token => stray token.unplaced

def Row.unplaced (row : Row) : Row :=
  { row with pos := default }

def Declaration.unplaced (declaration : Declaration) : Declaration :=
  { declaration with pos := default }

def Symbols.unplaced (symbols : Symbols) : Symbols :=
  ⟨symbols.declarations.map Declaration.unplaced⟩

def Effect.unplaced : Effect → Effect
  | emit row => emit row.unplaced
  | effect => effect

namespace Progress

def Change.unplaced (change : Change) : Change :=
  { change with
    declaration? := change.declaration?.map Declaration.unplaced
    row? := change.row?.map Row.unplaced }

/-- The state of a pass without its places, and without the log that names them. -/
def unplaced (progress : Progress) : Progress :=
  { progress with
    symbols := progress.symbols.unplaced
    rows := progress.rows.map Row.unplaced
    log := {} }

end Progress

/-- An output without the places of its names and rows. -/
def Output.unplaced (output : Output) : Output :=
  { output with
    symbols := output.symbols.unplaced
    rows := output.rows.map Row.unplaced }

/-- The result of a run without places: an output, or the cause of a fault. -/
def unplacedResult (result : Except Fault Output) : Except Cause Output :=
  (result.map Output.unplaced).mapError (·.cause)

variable {set : InstructionSet} {pass : Pass} {symbols : Symbols} {here : UInt16}
  {instruction : Instruction} {operand token : Token} {statement other : Statement}
  {progress twin : Progress} {expected? : Option Nat}

-----------------------------------------------------------------------------------------
-- Statements do not depend on places
-----------------------------------------------------------------------------------------

theorem starting_unplaced (token : Token) (rest : List Token)
    : Statement.starting set token.unplaced (rest.map Token.unplaced)
      = (Statement.starting set token rest).unplaced := by
  have taken (width : Width)
      : (rest.map Token.unplaced).takeWhile (fun next => width.holds next.text)
        = (rest.takeWhile fun next => width.holds next.text).map Token.unplaced := by
    rw [List.takeWhile_map]
    rfl
  have first : (rest.map Token.unplaced).head? = rest.head?.map Token.unplaced := by
    simp
  obtain ⟨kind, text, pos⟩ := token
  cases kind with
  | directive directive =>
      cases directive <;>
        simp only [Statement.starting, Token.unplaced, Statement.unplaced, taken, first]
  | text | assignment | label | operand =>
      simp only [Statement.starting, Token.unplaced, Statement.unplaced, first]
  | ident =>
      simp only [Statement.starting, Token.unplaced, first]
      cases set.lookup text with
      | none => rfl
      | some instruction =>
          dsimp only
          cases instruction.opcode? .implied with
          | none => rfl
          | some opcode => rfl

theorem length_tail_unplaced (statement : Statement)
    : statement.unplaced.tail.length = statement.tail.length := by
  cases statement with
  | origin _ operand? | string _ operand? | assign _ _ operand? | operate _ _ operand? =>
      cases operand? <;> rfl
  | data => simp [Statement.unplaced, Statement.tail]
  | label | implied | stray => rfl

/-- How tokens are grouped into statements does not depend on their places. -/
theorem statements_unplaced (tokens : List Token)
    : statements set (tokens.map Token.unplaced)
      = (statements set tokens).map Statement.unplaced := by
  fun_induction statements set tokens with
  | case1 => simp [statements]
  | case2 token rest statement ih =>
      rw [List.map_cons, statements, starting_unplaced]
      rw [length_tail_unplaced, ← List.map_drop, ih]
      rfl

-----------------------------------------------------------------------------------------
-- Effects do not depend on places
-----------------------------------------------------------------------------------------

theorem get?_unplaced (name : String)
    : symbols.unplaced.get? name = symbols.get? name := by
  simp only [Symbols.get?, Symbols.find?, Symbols.unplaced, List.find?_map, Option.map_map]
  rfl

theorem resolve_unplaced
    : (resolve set pass symbols.unplaced here instruction operand.unplaced).outcome
      = (resolve set pass symbols here instruction operand).outcome := by
  have sought : isLookedUp instruction operand.unplaced = isLookedUp instruction operand := rfl
  have text : operand.unplaced.text = operand.text := rfl
  simp only [resolve, sought, text, get?_unplaced]
  split
  · rfl
  · split
    · rfl
    · split <;> rfl

theorem operate_unplaced
    : (operate set pass symbols.unplaced here token.unplaced instruction operand.unplaced).outcome
      = (operate set pass symbols here token instruction operand).outcome.map Row.unplaced := by
  rw [operate_outcome, operate_outcome, resolve_unplaced]
  cases (resolve set pass symbols here instruction operand).outcome with
  | error cause => rfl
  | ok plain =>
      simp only [ok_bind]
      cases converted pass here instruction plain with
      | error cause => rfl
      | ok text =>
          simp only [ok_bind]
          cases selectMode? instruction text with
          | none => rfl
          | some bound => rfl

/-- What a statement does is the same wherever its tokens stand, by cases on the statement. -/
theorem effect_unplaced (statement : Statement)
    : (statement.unplaced.effect set pass symbols.unplaced here).outcome
      = (statement.effect set pass symbols here).outcome.map Effect.unplaced := by
  cases statement with
  | label | implied | stray => rfl
  | data width directive literals =>
      have texts : (literals.map Token.unplaced).map (·.text) = literals.map (·.text) := by
        rw [List.map_map]
        rfl
      have bytes : ((literals.map Token.unplaced).flatMap fun literal => width.encode literal.text)
          = literals.flatMap fun literal => width.encode literal.text := by
        rw [List.flatMap_map]
        rfl
      simp only [Statement.unplaced, Statement.effect, texts, bytes, Logged.outcome_pure]
      rfl
  | origin directive operand? =>
      cases operand? with
      | none => rfl
      | some operand =>
          have text : operand.unplaced.text = operand.text := rfl
          simp only [Statement.unplaced, Statement.effect, required, Option.map_some,
            Logged.outcome_bind, Logged.outcome_pure, ok_bind, text]
          cases wordValue? operand.text <;> rfl
  | string directive operand? =>
      cases operand? with
      | none => rfl
      | some operand =>
          have kind : operand.unplaced.kind = operand.kind := rfl
          simp only [Statement.unplaced, Statement.effect, required, Option.map_some,
            Logged.outcome_bind, Logged.outcome_pure, ok_bind, kind]
          cases operand.kind <;> rfl
  | assign token name value? => cases value? <;> rfl
  | operate token instruction operand? =>
      cases operand? with
      | none => rfl
      | some operand =>
          simp only [Statement.unplaced, Statement.effect, required, Option.map_some,
            Logged.outcome_bind, Logged.outcome_pure, ok_bind, operate_unplaced]
          cases (operate set pass symbols here token instruction operand).outcome <;> rfl

-----------------------------------------------------------------------------------------
-- Steps do not depend on places
-----------------------------------------------------------------------------------------

theorem pos?_unplaced (name : String)
    : symbols.unplaced.pos? name = (symbols.pos? name).map fun _ => default := by
  simp only [Symbols.pos?, Symbols.find?, Symbols.unplaced, List.find?_map, Option.map_map]
  rfl

theorem change_unplaced (effect : Effect)
    : (progress.unplaced.change pass statement.unplaced effect.unplaced).outcome
      = (progress.change pass statement effect).outcome.map Change.unplaced := by
  have nowhere : statement.unplaced.pos = default := by
    cases statement <;> rfl
  cases effect with
  | moveTo address => rfl
  | ignore => cases pass <;> rfl
  | declare name symbol =>
      cases pass with
      | assemble => rfl
      | prescan =>
          have places : progress.unplaced.symbols.pos? name
              = (progress.symbols.pos? name).map fun _ => default := pos?_unplaced name
          simp only [Effect.unplaced, Progress.change, Progress.declare, nowhere, places]
          cases progress.symbols.pos? name <;> rfl
  | emit row =>
      have counter : progress.unplaced.counter = progress.counter := rfl
      have bytes : row.unplaced.bytes = row.bytes := rfl
      simp only [Effect.unplaced, Progress.change, Logged.outcome_ofExcept, Progress.emit, counter,
        bytes]
      split
      · rfl
      · cases pass <;> rfl

/-- What a statement changes is the same wherever its tokens stand. -/
theorem attempt_unplaced
    : (progress.unplaced.attempt set pass expected? statement.unplaced).outcome
      = (progress.attempt set pass expected? statement).outcome.map Change.unplaced := by
  have anchored : statement.unplaced.isAnchored = statement.isAnchored := by
    cases statement <;> rfl
  have started : progress.unplaced.checkStart expected? statement.unplaced
      = progress.checkStart expected? statement := by
    simp only [Progress.checkStart, anchored]
    rfl
  have effects : (statement.unplaced.effect set pass progress.unplaced.symbols
        (UInt16.ofNat progress.unplaced.counter)).outcome
      = (statement.effect set pass progress.symbols (UInt16.ofNat progress.counter)).outcome.map
          Effect.unplaced := effect_unplaced statement
  rw [Progress.attempt_outcome, Progress.attempt_outcome, started, effects]
  cases progress.checkStart expected? statement with
  | error cause => rfl
  | ok _ =>
      simp only [ok_bind]
      cases (statement.effect set pass progress.symbols (UInt16.ofNat progress.counter)).outcome with
      | error cause => rfl
      | ok effect => exact change_unplaced effect

theorem advance_unplaced (change : Change)
    : (progress.advance change).unplaced = progress.unplaced.advance change.unplaced := by
  cases declared : change.declaration? with
  | none => cases listed : change.row? <;>
      simp [Progress.advance, Progress.unplaced, Change.unplaced, declared, listed, Row.unplaced]
  | some declaration => cases listed : change.row? <;>
      simp [Progress.advance, Progress.unplaced, Change.unplaced, declared, listed, Row.unplaced,
        Symbols.unplaced, Symbols.push]

/-- Where a pass has got and why it stopped agree, places and messages aside. -/
def Alike (first second : Progress × Option Fault) : Prop :=
  first.1.unplaced = second.1.unplaced ∧ first.2.map (·.cause) = second.2.map (·.cause)

/-- Passes that agree either both stop, for one cause, or both go on. -/
theorem Alike.cases {first second : Progress × Option Fault} (alike : Alike first second)
    : (∃ next next' fault fault',
        first = (next, some fault) ∧ second = (next', some fault')
        ∧ next.unplaced = next'.unplaced ∧ fault.cause = fault'.cause)
      ∨ ∃ next next',
          first = (next, none) ∧ second = (next', none) ∧ next.unplaced = next'.unplaced := by
  obtain ⟨next, fault⟩ := first
  obtain ⟨next', fault'⟩ := second
  obtain ⟨states, causes⟩ := alike
  cases fault with
  | some fault =>
      cases fault' with
      | some fault' =>
          exact Or.inl ⟨next, next', fault, fault', rfl, rfl, states, Option.some.inj causes⟩
      | none => cases causes
  | none =>
      cases fault' with
      | some fault' => cases causes
      | none => exact Or.inr ⟨next, next', rfl, rfl, states⟩

/-- States that differ in places and messages alone take the same step. -/
theorem step_alike (state : progress.unplaced = twin.unplaced)
    (same : statement.unplaced = other.unplaced)
    : Alike (progress.step set pass expected? statement) (twin.step set pass expected? other) := by
  have alike : (progress.attempt set pass expected? statement).outcome.map Change.unplaced
      = (twin.attempt set pass expected? other).outcome.map Change.unplaced := by
    rw [← attempt_unplaced, ← attempt_unplaced, state, same]
  simp only [Progress.step]
  generalize progress.attempt set pass expected? statement = first at alike ⊢
  generalize twin.attempt set pass expected? other = second at alike ⊢
  obtain ⟨messages, result⟩ := first
  obtain ⟨messages', result'⟩ := second
  cases result with
  | error fault =>
      cases result' with
      | error fault' =>
          have cause : fault.cause = fault'.cause := Except.error.inj alike
          exact ⟨state, by simp [cause]⟩
      | ok change' => cases alike
  | ok change =>
      cases result' with
      | error fault' => cases alike
      | ok change' =>
          have changes : change.unplaced = change'.unplaced := Except.ok.inj alike
          have advanced : (progress.advance change).unplaced = (twin.advance change').unplaced := by
            rw [advance_unplaced, advance_unplaced, state, changes]
          exact ⟨advanced, rfl⟩

/-- A whole walk is the same, by induction on the statements. -/
theorem walk_alike {items others : List (Statement × Option Nat)}
    (same : items.map (fun item => (item.1.unplaced, item.2))
      = others.map fun item => (item.1.unplaced, item.2))
    (state : progress.unplaced = twin.unplaced)
    : Alike (Progress.walk set pass items progress) (Progress.walk set pass others twin) := by
  induction items generalizing others progress twin with
  | nil =>
      obtain rfl : others = [] := by simpa using same.symm
      exact ⟨state, rfl⟩
  | cons item items ih =>
      obtain ⟨item', others, rfl, first, rest⟩ := List.map_eq_cons_iff.mp same.symm
      obtain ⟨statement, expected?⟩ := item
      obtain ⟨statement', expected'?⟩ := item'
      obtain ⟨unplaced, rfl⟩ := Prod.mk.inj first
      have stepped : Alike (progress.step set pass expected'? statement)
          (twin.step set pass expected'? statement') := step_alike state unplaced.symm
      rw [Progress.walk, Progress.walk]
      rcases stepped.cases with
        ⟨next, next', fault, fault', left, right, states, cause⟩
        | ⟨next, next', left, right, states⟩
      · rw [left, right]
        exact ⟨states, by simp [cause]⟩
      · rw [left, right]
        exact ih rest.symm states

-----------------------------------------------------------------------------------------
-- Runs do not depend on places
-----------------------------------------------------------------------------------------

theorem prescan_alike {items others : List Statement}
    (same : items.map Statement.unplaced = others.map Statement.unplaced)
    (state : progress.unplaced = twin.unplaced)
    : Alike (progress.prescan set items) (twin.prescan set others) := by
  refine walk_alike ?_ state
  simpa [Function.comp_def] using congrArg (List.map fun statement => (statement, none)) same

theorem assemble_alike (set : InstructionSet) {items others : List Statement} (base : UInt16)
    (same : items.map Statement.unplaced = others.map Statement.unplaced)
    (state : progress.unplaced = twin.unplaced)
    : Alike (progress.assemble set items base) (twin.assemble set others base) := by
  have starts : progress.starts = twin.starts := congrArg (·.starts) state
  have counter : progress.counter = twin.counter := congrArg (·.counter) state
  have restart : (restarted progress base).unplaced = (restarted twin base).unplaced := by
    have symbols : progress.symbols.unplaced = twin.symbols.unplaced :=
      congrArg (·.symbols) state
    simp [restarted, Progress.unplaced, symbols]
  have items : (items.zip (progress.starts.toList.map some)).map
        (fun item => (item.1.unplaced, item.2))
      = (others.zip (twin.starts.toList.map some)).map fun item => (item.1.unplaced, item.2) := by
    have paired (statements : List Statement) (starts : List (Option Nat))
        : (statements.zip starts).map (fun item => (item.1.unplaced, item.2))
          = (statements.map Statement.unplaced).zip starts :=
      (List.zip_map_left).symm
    rw [paired, paired, same, starts]
  have walked : Alike
      (Progress.walk set .assemble _ (restarted progress base))
      (Progress.walk set .assemble _ (restarted twin base)) := walk_alike items restart
  unfold restarted at walked
  simp only [Progress.assemble]
  rcases walked.cases with
    ⟨done, done', fault, fault', left, right, states, cause⟩
    | ⟨done, done', left, right, states⟩
  · rw [left, right]
    exact ⟨states, by simp [cause]⟩
  · have reached : done.counter = done'.counter := congrArg (·.counter) states
    rw [left, right]
    dsimp only
    rw [counter, reached]
    split
    · exact ⟨states, rfl⟩
    · exact ⟨states, rfl⟩

theorem origin?_unplaced (tokens : List Token)
    : Source.origin? (tokens.map Token.unplaced) = Source.origin? tokens := by
  induction tokens with
  | nil => rfl
  | cons first rest ih =>
      cases rest with
      | nil => rfl
      | cons second rest =>
          rw [List.map_cons] at ih
          simp only [List.map_cons, Source.origin?, ih]
          rfl

theorem map_unplaced_eq {tokens others : List Token}
    (same : tokens.map Token.content = others.map Token.content)
    : tokens.map Token.unplaced = others.map Token.unplaced := by
  have rebuilt (tokens : List Token)
      : tokens.map Token.unplaced
        = (tokens.map Token.content).map fun content => ⟨content.1, content.2, default⟩ := by
    rw [List.map_map]
    rfl
  rw [rebuilt, rebuilt, same]

/-- Tokens of the same kinds and texts are assembled alike. -/
theorem twoPass_alike {tokens others : List Token} (base : UInt16) (log note : Log)
    (same : tokens.map Token.content = others.map Token.content)
    : unplacedResult (twoPass set tokens base log).2
      = unplacedResult (twoPass set others base note).2 := by
  have unplaced := map_unplaced_eq same
  have grouped : (statements set tokens).map Statement.unplaced
      = (statements set others).map Statement.unplaced := by
    rw [← statements_unplaced, ← statements_unplaced, unplaced]
  have origin : Source.origin? tokens = Source.origin? others := by
    rw [← origin?_unplaced, ← origin?_unplaced others, unplaced]
  have measured : Alike
      (Progress.prescan { counter := base.toNat, log } set (statements set tokens))
      (Progress.prescan { counter := base.toNat, log := note } set (statements set others)) :=
    prescan_alike grouped rfl
  simp only [twoPass]
  rcases measured.cases with
    ⟨stopped, stopped', fault, fault', left, right, -, cause⟩
    | ⟨first, first', left, right, states⟩
  · rw [left, right]
    exact congrArg Except.error cause
  · rw [left, right]
    dsimp only
    generalize first.log.push _ = noted
    generalize first'.log.push _ = noted'
    have state : ({ first with log := noted } : Progress).unplaced
        = ({ first' with log := noted' } : Progress).unplaced := states
    have emitted := assemble_alike set base grouped state
    rcases emitted.cases with
      ⟨stopped, stopped', fault, fault', left, right, -, cause⟩
      | ⟨done, done', left, right, states⟩
    · rw [left, right]
      exact congrArg Except.error cause
    · have bytes : done.bytes = done'.bytes := congrArg (·.bytes) states
      have symbols : done.symbols.unplaced = done'.symbols.unplaced :=
        congrArg (·.symbols) states
      have listing : done.rows.toList.map Row.unplaced = done'.rows.toList.map Row.unplaced := by
        rw [← Array.toList_map, ← Array.toList_map]
        exact congrArg (fun state => state.rows.toList) states
      rw [left, right, origin]
      refine congrArg Except.ok ?_
      simp only [Output.unplaced, bytes, symbols, listing]

end Assembly

end Asm6510
