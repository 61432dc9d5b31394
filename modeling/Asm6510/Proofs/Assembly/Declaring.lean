import Asm6510.Proofs.Assembly.Accounting

/-! Names that are declared twice, and names that are never declared. A run stops at the first
declaration of a name that it knows, before anything is emitted, and its log points at the other
declaration. A name is refused as unknown only where no statement declares it, and a run that
succeeds has one declaration for each name that it looks up.
-/

namespace Asm6510.Assembly

open Machine (Instruction InstructionSet)
open Operand
open Progress (Change)
open Report (Log Message)
open Source (Position Token)

/-- The name that a statement declares. -/
def Statement.declared? : Statement → Option String
  | label _ name | assign _ name _ => some name
  | origin _ _ | data _ _ _ | string _ _ | implied _ _ _ | operate _ _ _ | stray _ => none

/-- The names that statements declare, in their order. -/
def declaredNames (statements : List Statement) : List String :=
  statements.filterMap Statement.declared?

/-- Statements in which `again` is the first that declares a name declared before it: the statements
in front of it declare every name once, and `first` is the one among them that declares the name.
-/
def Redeclared (statements : List Statement) (name : String) (first again : Statement) : Prop :=
  ∃ front between back,
    statements = front ++ first :: (between ++ again :: back)
    ∧ (declaredNames (front ++ first :: between)).Nodup
    ∧ first.declared? = some name
    ∧ again.declared? = some name

/-- The message that points at the first declaration of a name. -/
def firstDeclared (name : String) (pos : Position) : Message :=
  ⟨.error, "`" ++ name ++ "` first declared here", some pos⟩

variable {set : InstructionSet} {pass : Pass} {symbols table known : Symbols} {here : UInt16}
  {counter measured emitted : Nat} {statement : Statement} {statements : List Statement}
  {change : Change} {changes firsts seconds : List Change} {name : String} {cause : Cause}
  {expected? : Option Nat} {before after : Progress} {fault : Fault}

-----------------------------------------------------------------------------------------
-- What the first pass declares
-----------------------------------------------------------------------------------------

/-- The first pass declares the name of a statement at the place of the statement. -/
theorem Carried.naming_prescan (carried : Carried set .prescan symbols counter statement change)
    : change.declaration?.map (fun declaration => (declaration.name, declaration.pos))
      = statement.declared?.map (·, statement.pos) := by
  cases carried with
  | move | label | assign | stray => rfl
  | emit inside made fits =>
      have silent := Statement.declares_of_emits (address_of_effect made).1
      cases statement with
      | label | assign => cases silent
      | origin | data | string | implied | operate | stray => rfl

theorem Trace.namings_prescan (trace : Trace set .prescan symbols counter statements changes)
    : (declarations changes).map (fun declaration => (declaration.name, declaration.pos))
      = statements.filterMap fun statement => statement.declared?.map (·, statement.pos) := by
  generalize first : Pass.prescan = pass at trace
  induction trace with
  | nil => rfl
  | @cons symbols counter statement statements change changes carried rest ih =>
      subst first
      have named := carried.naming_prescan
      cases found : change.declaration? with
      | none =>
          rw [found] at named
          simpa [declarations, found, ← named] using ih
      | some declaration =>
          rw [found] at named
          simpa [declarations, found, ← named] using ih

/-- The names known after a first pass are those that its statements declare. -/
theorem Trace.declaredNames_prescan (trace : Trace set .prescan symbols counter statements changes)
    : (declarations changes).map (·.name) = declaredNames statements := by
  have named := congrArg (List.map Prod.fst) trace.namings_prescan
  simpa [declaredNames, List.map_filterMap, Function.comp_def] using named

/-- A name is unknown after a first pass exactly when no statement declares it. -/
theorem Trace.get?_prescan (trace : Trace set .prescan symbols counter statements changes)
    : Symbols.get? ⟨declarations changes⟩ name = none ↔ name ∉ declaredNames statements := by
  rw [get?_eq_none_iff, ← trace.declaredNames_prescan, Symbols.meanings, List.map_map]
  rfl

/-- A first pass declares no name twice. -/
theorem Trace.nodup_prescan
    (trace : Trace set .prescan Symbols.empty counter statements changes)
    : (declaredNames statements).Nodup := by
  have distinct := trace.distinct_prescan List.nodup_nil
  rw [← trace.declaredNames_prescan]
  simpa [Distinct, Symbols.meanings, Symbols.empty, Declaration.meaning, Function.comp_def]
    using distinct

/-- A name with a place was declared there by one of the statements. -/
theorem Trace.exists_of_pos? {pos : Position}
    (trace : Trace set .prescan symbols counter statements changes)
    (placed : Symbols.pos? ⟨declarations changes⟩ name = some pos)
    : ∃ first ∈ statements, first.declared? = some name ∧ first.pos = pos := by
  obtain ⟨declaration, found, rfl⟩ := Option.map_eq_some_iff.mp placed
  have same : declaration.name = name := by simpa using List.find?_some found
  have member : (name, declaration.pos)
      ∈ (declarations changes).map fun declaration => (declaration.name, declaration.pos) :=
    List.mem_map.mpr ⟨declaration, List.mem_of_find?_eq_some found, by rw [same]⟩
  rw [trace.namings_prescan] at member
  obtain ⟨first, listed, naming⟩ := List.mem_filterMap.mp member
  obtain ⟨other, declared, same⟩ := Option.map_eq_some_iff.mp naming
  obtain ⟨rfl, there⟩ := Prod.mk.inj same
  exact ⟨first, listed, declared, there⟩

-----------------------------------------------------------------------------------------
-- Statements that fail for a name
-----------------------------------------------------------------------------------------

/-- The effect of a statement never fails for a name that is taken. -/
theorem effect_ne_duplicate
    (failed : (statement.effect set pass symbols here).outcome = .error cause)
    : cause ≠ .duplicateSymbol name := by
  rintro rfl
  rcases effect_eq_error failed with
    ⟨other, -⟩ | ⟨_, _, -, -, other⟩ | ⟨_, _, -, other⟩ | ⟨_, _, _, -, failed⟩
  · cases other
  · cases other
  · cases other
  · rcases operate_eq_error failed with ⟨other, -⟩ | ⟨other, -⟩ | other | ⟨_, other⟩ | ⟨_, other⟩
    all_goals cases other

theorem Failed.pass_of_duplicate
    (failed : Failed set pass symbols counter expected? statement (.duplicateSymbol name))
    : pass = .prescan := by
  cases failed with
  | effect placed failed => exact absurd rfl (effect_ne_duplicate failed)
  | taken first made known => exact first

/-- A name is refused as unknown in the second pass, where it has no meaning. -/
theorem Failed.of_unresolved
    (failed : Failed set pass symbols counter expected? statement (.unresolvedReference name))
    : pass = .assemble ∧ symbols.get? name = none := by
  cases failed with
  | effect placed failed =>
      rcases effect_eq_error failed with
        ⟨other, -⟩ | ⟨_, _, -, -, other⟩ | ⟨_, _, -, other⟩ | ⟨_, _, _, -, failed⟩
      · cases other
      · cases other
      · cases other
      · rcases operate_eq_error failed with
          ⟨other, -⟩ | ⟨same, second, unknown⟩ | other | ⟨_, other⟩ | ⟨_, other⟩
        · cases other
        · cases same
          exact ⟨second, unknown⟩
        all_goals cases other

/-- A second pass is interrupted by a statement that fails with the whole table known. -/
theorem Interrupted.failed
    (interrupted : Interrupted set table cause known measured emitted statements firsts seconds)
    : ∃ statement expected counter,
        Failed set .assemble table counter (some expected) statement cause := by
  induction interrupted with
  | here prescan others failed => exact ⟨_, _, _, failed⟩
  | later prescan assemble aligned rest ih => exact ih

/-- A second pass never fails for a name that is taken. -/
theorem Ending.ne_duplicate {base : UInt16}
    (ending : Ending set base statements firsts seconds (some fault))
    : fault.cause ≠ .duplicateSymbol name := by
  intro taken
  cases ending with
  | stops interrupted =>
      obtain ⟨_, _, _, failed⟩ := interrupted.failed
      rw [taken] at failed
      cases failed.pass_of_duplicate
  | misses passes differs drift => cases taken.symm.trans drift

/-- A second pass fails for an unknown name only where no statement declares it. -/
theorem Ending.undeclared {base : UInt16}
    (ending : Ending set base statements firsts seconds (some fault))
    (unknown : fault.cause = .unresolvedReference name)
    : name ∉ declaredNames statements := by
  cases ending with
  | stops interrupted =>
      obtain ⟨_, _, _, failed⟩ := interrupted.failed
      rw [unknown] at failed
      exact interrupted.prescan.get?_prescan.mp failed.of_unresolved.2
  | misses passes differs drift => cases unknown.symm.trans drift

/-- A name that a second pass looks up is in its table. -/
theorem Trace.known_of_sought {token operand : Token} {instruction : Instruction}
    (trace : Trace set .assemble table counter statements changes)
    (member : .operate token instruction (some operand) ∈ statements)
    (sought : isLookedUp instruction operand = true)
    : ∃ symbol, table.get? (referent operand.text) = some symbol := by
  obtain ⟨front, back, rfl⟩ := List.append_of_mem member
  obtain ⟨_, row, -, -, made⟩ := trace.row_of_emits rfl
  obtain ⟨_, _, same, made, -⟩ := effect_operate_eq_ok_iff.mp made
  obtain rfl := Option.some.inj same
  obtain ⟨_, _, _, _, resolved, -⟩ := operate_eq_ok_iff.mp made
  rcases resolve_cases resolved with ⟨literal, -⟩ | ⟨-, -, ⟨symbol, known, -⟩ | ⟨-, other, -⟩⟩
  · cases sought.symm.trans literal
  · exact ⟨symbol, known⟩
  · cases other

/-- A statement that has an effect changes and tells what the effect does. -/
theorem attempt_of_effect {effect : Effect}
    (started : before.checkStart expected? statement = .ok ())
    (made : (statement.effect set pass before.symbols (UInt16.ofNat before.counter)).outcome
      = .ok effect)
    : before.attempt set pass expected? statement
      = ⟨(statement.effect set pass before.symbols (UInt16.ofNat before.counter)).messages
            ++ (before.change pass statement effect).messages,
          (before.change pass statement effect).result⟩ := by
  have result := Logged.outcome_eq_ok.mp made
  simp only [Progress.attempt, started, Logged.ofExcept, bind, result]
  rfl

/-- A statement fails for a name that is taken where it declares the name again, and the only error
that it tells points at the place of the name.
-/
theorem taken_of_attempt
    (failing : (before.attempt set pass expected? statement).outcome
      = .error (.duplicateSymbol name))
    : pass = .prescan
      ∧ statement.declared? = some name
      ∧ ∃ first,
          before.symbols.pos? name = some first
          ∧ ofLevel .error (before.attempt set pass expected? statement).messages
            = [firstDeclared name first]
          ∧ (before.attempt set pass expected? statement).result
            = .error ⟨.duplicateSymbol name, []⟩ := by
  rw [Progress.attempt_outcome] at failing
  rcases bind_eq_error.mp failing with start | ⟨⟨⟩, started, failing⟩
  · obtain ⟨-, ⟨-, other⟩ | ⟨_, -, -, other⟩⟩ := Progress.checkStart_eq_error start
    · cases other
    · cases other
  · rcases bind_eq_error.mp failing with failed | ⟨effect, made, failed⟩
    · exact absurd rfl (effect_ne_duplicate failed)
    · obtain ⟨other, symbol, rfl, rfl, known, same⟩ | ⟨_, -, -, other⟩ :=
        Progress.change_eq_error failed
      · obtain rfl := Cause.duplicateSymbol.inj same
        have declared : statement.declared? = some name := by
          rcases effect_cases made with
            ⟨_, other, -⟩ | ⟨_, _, _, -, -, other⟩ | ⟨_, _, rfl, same⟩ | ⟨_, _, _, rfl, same⟩
            | ⟨_, -, other⟩
          · cases other
          · cases other
          · cases same; rfl
          · cases same; rfl
          · cases other
        obtain ⟨first, placed⟩ : ∃ first, before.symbols.pos? name = some first := by
          rw [← Option.isSome_iff_exists, Option.isSome_iff_ne_none, ne_eq,
            Progress.pos?_eq_none_iff, ← ne_eq, ← Option.isSome_iff_ne_none]
          exact known
        have changed : before.change .prescan statement (.declare name symbol)
            = ⟨[firstDeclared name first], .error ⟨.duplicateSymbol name, []⟩⟩ := by
          simp only [Progress.change, Progress.declare, placed]
          rfl
        refine ⟨rfl, declared, first, placed, ?_, ?_⟩
        · rw [attempt_of_effect started made, changed, ofLevel_append,
            quiet_effect (by decide) statement]
          rfl
        · rw [attempt_of_effect started made, changed]
      · cases other

/-- A statement that succeeds tells no error. -/
theorem quiet_of_attempt {messages : List Message}
    (attempted : before.attempt set pass expected? statement = ⟨messages, .ok change⟩)
    : ofLevel .error messages = [] := by
  have succeeded : (before.attempt set pass expected? statement).outcome = .ok change := by
    rw [attempted]
    rfl
  rw [Progress.attempt_outcome] at succeeded
  obtain ⟨⟨⟩, started, succeeded⟩ := bind_eq_ok.mp succeeded
  obtain ⟨effect, made, changed⟩ := bind_eq_ok.mp succeeded
  have told : messages = _ ++ (before.change pass statement effect).messages :=
    congrArg Logged.messages (attempted.symm.trans (attempt_of_effect started made))
  have quiet : (before.change pass statement effect).Quiet .error := by
    refine quiet_change (by decide) (fun _ => by decide) ?_
    rintro name symbol rfl first
    exact .inl (Progress.pos?_eq_none_iff.mpr
      ((Progress.change_declare_eq_ok_iff.mp changed).1 first))
  rw [told, ofLevel_append, quiet, quiet_effect (by decide) statement]
  rfl

-----------------------------------------------------------------------------------------
-- Runs that fail for a name
-----------------------------------------------------------------------------------------

/-- The errors of a log are its messages at the level of errors, since no level is above it. -/
theorem filter_error (log : Log)
    : log.filter .error = ofLevel .error log.messages.toList := by
  unfold Log.filter ofLevel
  congr 1
  funext message
  cases message.level <;> rfl

/-- A pass that succeeds tells no error. -/
theorem errors_walk {items : List (Statement × Option Nat)}
    (walked : Progress.walk set pass items before = (after, none))
    : after.log.filter .error = before.log.filter .error := by
  have told := ofLevel_walk (fun _ => []) (fun _ _ _ _ _ => quiet_of_attempt) walked
  rw [filter_error, filter_error, told, List.flatMap_eq_nil_iff.mpr (by simp), List.append_nil]

/-- A statement that declares a name again is where the fault is placed. -/
theorem taken_of_step (stepped : before.step set pass expected? statement = (after, some fault))
    (taken : fault.cause = .duplicateSymbol name)
    : statement.declared? = some name
      ∧ fault.trail = [statement.pos]
      ∧ ∃ first,
          before.symbols.pos? name = some first
          ∧ after.log.filter .error = before.log.filter .error ++ [firstDeclared name first] := by
  unfold Progress.step at stepped
  split at stepped
  · cases stepped
  · rename_i messages found attempted
    obtain ⟨rfl, same⟩ := Prod.mk.inj stepped
    obtain rfl := Option.some.inj same
    rw [Fault.cause_located] at taken
    have failing : (before.attempt set pass expected? statement).outcome
        = .error (.duplicateSymbol name) := by
      rw [attempted, ← taken]
      rfl
    obtain ⟨-, declared, first, placed, told, failed⟩ := taken_of_attempt failing
    rw [attempted] at told failed
    obtain rfl := Except.error.inj failed
    refine ⟨declared, rfl, first, placed, ?_⟩
    rw [filter_error, filter_error, ← told, ← ofLevel_append]
    simp [Progress.noting, Log.append]

/-- A first pass that stops for a name that is taken stops at the first statement that declares a
name again. It has emitted nothing, and the only error that it tells points at the statement that
declares the name first.
-/
theorem redeclared_of_prescan {base : UInt16} {log : Log}
    (measuring : Progress.prescan { counter := base.toNat, log } set statements
      = (after, some fault))
    (taken : fault.cause = .duplicateSymbol name)
    : ∃ first again,
        Redeclared statements name first again
        ∧ fault.trail = [again.pos]
        ∧ after.log.filter .error = log.filter .error ++ [firstDeclared name first.pos] := by
  obtain ⟨items, again, expected?, back, middle, split, walked, stepped⟩ := walk_eq_some measuring
  obtain ⟨declared, trail, pos, placed, told⟩ := taken_of_step stepped taken
  obtain ⟨front, rest, rfl, rfl, remaining⟩ := List.map_eq_append_iff.mp split
  obtain ⟨other, back, rfl, same, rfl⟩ := List.map_eq_cons_iff.mp remaining
  obtain ⟨rfl, rfl⟩ := Prod.mk.inj same
  obtain ⟨firsts, trace, -, reached⟩ := trace_of_walk walked
  have unmeasured : (front.map fun statement => (statement, (none : Option Nat))).map (·.1)
      = front := by
    simp [Function.comp_def]
  rw [unmeasured] at trace
  have symbols : middle.symbols = ⟨declarations firsts⟩ := congrArg Symbols.mk reached.symbols
  rw [symbols] at placed
  obtain ⟨first, member, naming, rfl⟩ := trace.exists_of_pos? placed
  obtain ⟨earlier, between, rfl⟩ := List.append_of_mem member
  refine ⟨first, other, ⟨earlier, between, back, by simp, trace.nodup_prescan, naming, declared⟩,
    trail, ?_⟩
  rw [told, errors_walk walked]

/-- Exactness of the errors about declarations. A run that fails for a name that is declared twice
does so in its first pass, with nothing emitted, at the first statement that declares a name again,
and the one error in its log points at the first declaration of that name. A run that fails for an
unknown name has no statement that declares the name. A run that succeeds declares no name twice,
and declares every name that an operand refers to.
-/
theorem twoPass_declares (set : InstructionSet) (tokens : List Token) (base : UInt16) (log : Log)
    : (∀ fault name,
        (twoPass set tokens base log).2 = .error fault
        → fault.cause = .duplicateSymbol name
        → ∃ first again stopped,
            Redeclared (Assembly.statements set tokens) name first again
            ∧ fault.trail = [again.pos]
            ∧ (twoPass set tokens base log).1.filter .error
              = log.filter .error ++ [firstDeclared name first.pos]
            ∧ Progress.prescan { counter := base.toNat, log } set (Assembly.statements set tokens)
              = (stopped, some fault)
            ∧ stopped.bytes = #[]
            ∧ stopped.rows = #[])
      ∧ (∀ fault name,
          (twoPass set tokens base log).2 = .error fault
          → fault.cause = .unresolvedReference name
          → name ∉ declaredNames (Assembly.statements set tokens))
      ∧ ∀ output,
          (twoPass set tokens base log).2 = .ok output
          → (declaredNames (Assembly.statements set tokens)).Nodup
            ∧ ∀ token instruction operand,
                .operate token instruction (some operand) ∈ Assembly.statements set tokens
                → isLookedUp instruction operand = true
                → referent operand.text ∈ declaredNames (Assembly.statements set tokens) := by
  refine ⟨fun fault name failed taken => ?_, fun fault name failed unknown => ?_,
    fun output succeeded => ?_⟩
  · obtain ⟨stopped, measuring, told⟩ | ⟨firsts, seconds, ending⟩ := twoPass_eq_error failed
    · obtain ⟨first, again, redeclared, trail, errors⟩ := redeclared_of_prescan measuring taken
      obtain ⟨_, _, _, firsts, -, trace, reached, -⟩ := prescan_eq_some measuring
      have bytes : stopped.bytes.toList = [] := by simpa [trace.rows_prescan] using reached.bytes
      have rows : stopped.rows.toList = [] := by simpa [trace.rows_prescan] using reached.rows
      exact ⟨first, again, stopped, redeclared, trail, told ▸ errors, measuring,
        Array.toList_eq_nil_iff.mp bytes, Array.toList_eq_nil_iff.mp rows⟩
    · exact absurd taken ending.ne_duplicate
  · obtain ⟨stopped, measuring, -⟩ | ⟨firsts, seconds, ending⟩ := twoPass_eq_error failed
    · obtain ⟨_, _, _, _, -, -, -, failed⟩ := prescan_eq_some measuring
      rw [unknown] at failed
      cases failed.of_unresolved.1
    · exact ending.undeclared unknown
  · obtain ⟨firsts, seconds, passes, -, -⟩ := twoPass_eq_ok_iff.mp succeeded
    refine ⟨passes.prescan.nodup_prescan, fun token instruction operand member sought => ?_⟩
    obtain ⟨symbol, known⟩ := passes.assemble.known_of_sought member sought
    by_contra undeclared
    cases known.symm.trans (passes.prescan.get?_prescan.mpr undeclared)

/-- The tokens of a program that gives two names a second meaning, and first the name `a`. -/
def twiceTokens : List Token :=
  Source.tokens "t" "a: b = $10 a = $20 b:"

/-- The tokens of a program that jumps to a name without a meaning. -/
def lostTokens : List Token :=
  Source.tokens "t" "here: JMP lost"

theorem twoPass_declares_twice
    : (∃ first again,
        (twoPass smallSet twiceTokens 0xC000 Log.empty).2
          = .error (Fault.placed (.duplicateSymbol "a") ⟨"t", 0, 11⟩)
        ∧ Redeclared (Assembly.statements smallSet twiceTokens) "a" first again
        ∧ again.pos = ⟨"t", 0, 11⟩
        ∧ (twoPass smallSet twiceTokens 0xC000 Log.empty).1.filter .error
          = [firstDeclared "a" first.pos])
      ∧ (twoPass smallSet lostTokens 0xC000 Log.empty).2
        = .error (Fault.placed (.unresolvedReference "lost") ⟨"t", 0, 10⟩)
      ∧ "lost" ∉ declaredNames (Assembly.statements smallSet lostTokens)
      ∧ ∃ output,
          (twoPass smallSet loopTokens 0xC000 Log.empty).2 = .ok output
          ∧ (declaredNames (Assembly.statements smallSet loopTokens)).Nodup := by
  have twice : (twoPass smallSet twiceTokens 0xC000 Log.empty).2
      = .error (Fault.placed (.duplicateSymbol "a") ⟨"t", 0, 11⟩) := by
    decide +kernel
  have lost : (twoPass smallSet lostTokens 0xC000 Log.empty).2
      = .error (Fault.placed (.unresolvedReference "lost") ⟨"t", 0, 10⟩) := by
    decide +kernel
  have loops : (twoPass smallSet loopTokens 0xC000 Log.empty).2.toOption.isSome = true := by
    decide +kernel
  obtain ⟨output, found⟩ := Option.isSome_iff_exists.mp loops
  have succeeded := eq_ok_of_toOption found
  obtain ⟨first, again, _, redeclared, trail, told, -⟩ :=
    (twoPass_declares smallSet twiceTokens 0xC000 Log.empty).1 _ "a" twice rfl
  obtain ⟨undeclared, -⟩ := (twoPass_declares smallSet lostTokens 0xC000 Log.empty).2
  obtain ⟨-, declared⟩ := (twoPass_declares smallSet loopTokens 0xC000 Log.empty).2
  exact ⟨⟨first, again, twice, redeclared, (List.cons.inj trail).1.symm, told⟩, lost,
    undeclared _ "lost" lost rfl, output, succeeded, (declared output succeeded).1⟩

end Asm6510.Assembly
