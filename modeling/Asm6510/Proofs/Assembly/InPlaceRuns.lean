import Asm6510.Proofs.Assembly.InPlace

/-! Passes in place. The statements of a pass in place lead where its steps lead, and the second
pass expects each statement where the first has found it, although it looks labels up among the
symbols and all else among the starts put down. So both passes in place are the two passes.
-/

namespace Asm6510.Assembly

open Machine (InstructionSet)
open Progress (Change)
open Report (Log)
open Source (Token)

namespace Desk

/-- The desk with a state of a pass on it. -/
def taking (desk : Desk) (progress : Progress) : Desk :=
  { desk with
    counter := progress.counter, symbols := progress.symbols, bytes := progress.bytes,
    rows := progress.rows, log := progress.log }

/-- What an action comes to that takes a pass to a state, where a fault may stop it. -/
def reaching {α : Type} (desk : Desk) (value : α)
    : Progress × Option Fault → EStateM.Result Fault Desk α
  | (next, none) => .ok value (desk.taking next)
  | (next, some fault) => .error fault (desk.taking next)

end Desk

/-- The starts of statements that emit are put down. -/
def Held (starts : Nat → Option UInt16) : Nat → List Statement → List Nat → Prop
  | index, statement :: statements, start :: measured =>
      (statement.emits = true → starts index = some (UInt16.ofNat start))
      ∧ Held starts (index + 1 + statement.tail.length) statements measured
  | _, _, _ => True

/-- Statements that stand for an address are expected where they were measured. -/
def Recalled (expected? : Nat → Statement → Option Nat) : Nat → List Statement → List Nat → Prop
  | index, statement :: statements, start :: measured =>
      (statement.isAnchored = true → expected? index statement = some start)
      ∧ Recalled expected? (index + 1 + statement.tail.length) statements measured
  | _, [], [] => True
  | _, _, _ => False

/-- The log that a run in place leaves behind, and what it comes to. -/
def outcomeOf {α : Type} : EStateM.Result Fault Desk α → Log × Except Fault α
  | .ok value desk => (desk.log, .ok value)
  | .error fault desk => (desk.log, .error fault)

variable {set : InstructionSet} {desk : Desk} {index : Nat} {tokens : List Token}
  {progress : Progress} {statements : List Statement}

-----------------------------------------------------------------------------------------
-- One statement
-----------------------------------------------------------------------------------------

/-- The start of a statement that stands for no address is not checked. -/
theorem attempt_of_unanchored {statement : Statement} (free : statement.isAnchored = false)
    (set : InstructionSet) (pass : Pass) (first second : Option Nat)
    : progress.attempt set pass first statement = progress.attempt set pass second statement := by
  have unchecked (expected? : Option Nat) : progress.checkStart expected? statement = .ok () := by
    simp [Progress.checkStart, free]
  rw [attempt_of_started (unchecked first), attempt_of_started (unchecked second)]

/-- A statement in place is a step, its start apart. -/
theorem Action.run_located (set : InstructionSet) (index : Nat) (token : Token) (rest : List Token)
    (desk : Desk) (progress : Progress)
    : let started := Statement.starting set token rest
      let before := desk.taking progress
      ((statement set index token rest).adaptExcept (·.located token.pos)).run before
      = (before.marked index started).reaching started.tail.length
          (progress.step set desk.pass (before.expected? index started) started) := by
  intro started before
  have ran : (statement set index token rest).run before
      = (before.marked index started).settle started.tail.length
          (progress.attempt set desk.pass (before.expected? index started) started) :=
    run_statement set index token rest before
  have pos : started.pos = token.pos := congrArg Token.pos (head_starting token rest)
  obtain ⟨starts, marked⟩ := before.marked_eq index started
  rw [marked] at ran ⊢
  simp only [EStateM.run] at ran
  simp only [EStateM.run, EStateM.adaptExcept, ran, Progress.step, pos]
  cases progress.attempt set desk.pass (before.expected? index started) started with
  | mk messages result => cases result <;> rfl

/-- The state on a desk does not matter to one that takes another. -/
theorem Desk.reaching_taking {α : Type} (desk : Desk) (progress : Progress) (value : α)
    (reached : Progress × Option Fault)
    : (desk.taking progress).reaching value reached = desk.reaching value reached := by
  obtain ⟨next, fault?⟩ := reached
  cases fault? <;> rfl

/-- In the first pass a statement puts down its start, and is measured nowhere before. -/
theorem Action.run_located_prescan (token : Token) (rest : List Token)
    (first : desk.pass = .prescan)
    : let started := Statement.starting set token rest
      let starts := ((desk.taking progress).marked index started).starts
      ((statement set index token rest).adaptExcept (·.located token.pos)).run
        (desk.taking progress)
      = ({ desk with starts } : Desk).reaching started.tail.length
          (progress.step set .prescan none started) := by
  intro started starts
  have same : progress.step set desk.pass ((desk.taking progress).expected? index started) started
      = progress.step set .prescan none started := by
    simp only [Desk.expected?, Desk.taking, first]
  obtain ⟨marks, marked⟩ := (desk.taking progress).marked_eq index started
  have marking : starts = marks := congrArg Desk.starts marked
  rw [run_located set index token rest desk progress, same, marked, marking]
  exact Desk.reaching_taking { desk with starts := marks } progress _ _

/-- In the second pass a statement leaves the starts alone. Only one that stands for no address may
be expected elsewhere, since its start is not checked.
-/
theorem Action.run_located_assemble (token : Token) (rest : List Token) {start : Nat}
    (second : desk.pass = .assemble)
    (expects
      : (Statement.starting set token rest).isAnchored = true
        → (desk.taking progress).expected? index (Statement.starting set token rest) = some start)
    : let started := Statement.starting set token rest
      ((statement set index token rest).adaptExcept (·.located token.pos)).run
        (desk.taking progress)
      = desk.reaching started.tail.length
          (progress.step set .assemble (some start) started) := by
  intro started
  have unmarked : (desk.taking progress).marked index started = desk.taking progress :=
    Desk.marked_assemble second
  have same : progress.step set .assemble ((desk.taking progress).expected? index started) started
      = progress.step set .assemble (some start) started := by
    cases anchored : started.isAnchored with
    | true => rw [expects anchored]
    | false => rw [Progress.step, attempt_of_unanchored anchored, Progress.step]
  rw [run_located set index token rest desk progress, unmarked, Desk.reaching_taking, second, same]

-----------------------------------------------------------------------------------------
-- A pass
-----------------------------------------------------------------------------------------

/-- A statement that the first pass carries out is a step of it. -/
theorem Carried.step_prescan {statement : Statement} {change : Change}
    (carried : Carried set .prescan progress.symbols progress.counter statement change)
    : ∃ messages,
        progress.step set .prescan none statement
        = ((progress.advance change).noting messages, none) := by
  have unmeasured : statement.isAnchored = true → ∀ expected ∈ (none : Option Nat),
      expected = progress.counter := by
    simp
  have attempted := attempt_eq_ok_iff.mpr ⟨carried, unmeasured⟩
  exact ⟨(progress.attempt set .prescan none statement).messages,
    step_eq_none_iff.mpr ⟨change, _, carried, unmeasured,
      by rw [← Logged.outcome_eq_ok.mp attempted], rfl⟩⟩

/-- The first pass in place walks as the first pass does, and puts down the start of each statement
that emits.
-/
theorem Action.run_walk_prescan (desk : Desk) (index : Nat) (progress : Progress)
    (first : desk.pass = .prescan)
    : ∃ starts,
        (walk set index tokens).run (desk.taking progress)
          = ({ desk with starts } : Desk).reaching ()
              (Progress.walk set .prescan ((Assembly.statements set tokens).map (·, none)) progress)
        ∧ (∀ earlier < index, starts earlier = desk.starts earlier)
        ∧ ∀ changes,
            Trace set .prescan progress.symbols progress.counter (Assembly.statements set tokens)
              changes
            → Held starts index (Assembly.statements set tokens)
                (Assembly.starts progress.counter changes) := by
  induction tokens using statements.induct set generalizing desk index progress with
  | case1 =>
      refine ⟨desk.starts, ?_, fun _ _ => rfl, ?_⟩
      · rw [walk, Assembly.statements]
        rfl
      · intro changes trace
        rw [Assembly.statements]
        trivial
  | case2 token rest statement ih =>
      let marks := ((desk.taking progress).marked index statement).starts
      have earlier (other : Nat) (less : other < index) : marks other = desk.starts other :=
        Desk.starts_marked_of_ne (Nat.ne_of_lt less)
      rw [Assembly.statements, walk, EStateM.run_bind, run_located_prescan token rest first]
      cases stepped : progress.step set .prescan none statement with
      | mk next fault? =>
          cases fault? with
          | some fault =>
              refine ⟨marks, ?_, earlier, ?_⟩
              · rw [List.map_cons, Progress.walk, stepped]
                rfl
              · intro changes trace
                cases trace with
                | cons carried later =>
                    obtain ⟨messages, other⟩ := carried.step_prescan
                    rw [stepped] at other
                    cases other
          | none =>
              obtain ⟨starts, walked, kept, held⟩ := ih { desk with starts := marks }
                (index + 1 + statement.tail.length) next first
              refine ⟨starts, ?_, ?_, ?_⟩
              · rw [List.map_cons, Progress.walk, stepped]
                exact walked
              · intro other less
                rw [kept other (by omega)]
                exact earlier other less
              · intro changes trace
                cases trace with
                | cons carried later =>
                    obtain ⟨messages, other⟩ := carried.step_prescan
                    rw [stepped] at other
                    cases other
                    refine ⟨?_, held _ later⟩
                    intro emitting
                    rw [kept index (by omega)]
                    exact Desk.starts_marked first emitting
                      (carried.inside (Statement.isAnchored_of_emits emitting))

/-- The second pass in place walks as the second pass does, if it expects the statements where they
were measured.
-/
theorem Action.run_walk_assemble (desk : Desk) (index : Nat) (progress : Progress)
    (measured : List Nat) (second : desk.pass = .assemble)
    (recalled
      : Recalled (desk.taking progress).expected? index (Assembly.statements set tokens) measured)
    : (walk set index tokens).run (desk.taking progress)
      = desk.reaching ()
          (Progress.walk set .assemble
            ((Assembly.statements set tokens).zip (measured.map some)) progress) := by
  induction tokens using statements.induct set generalizing index progress measured with
  | case1 =>
      rw [walk, Assembly.statements]
      rfl
  | case2 token rest statement ih =>
      rw [Assembly.statements] at recalled ⊢
      cases measured with
      | nil => exact recalled.elim
      | cons start measured =>
          obtain ⟨expects, later⟩ := recalled
          rw [walk, EStateM.run_bind, run_located_assemble token rest second expects, List.map_cons,
            List.zip_cons_cons, Progress.walk]
          cases stepped : progress.step set .assemble (some start) statement with
          | mk next fault? =>
              cases fault? with
              | some fault => rfl
              | none =>
                  obtain ⟨change, messages, carried, -, -, rfl⟩ := step_eq_none_iff.mp stepped
                  have still : ((progress.advance change).noting messages).symbols
                      = progress.symbols := carried.grow_assemble
                  have table : (desk.taking ((progress.advance change).noting messages)).expected?
                      = (desk.taking progress).expected? := by
                    unfold Desk.expected? Desk.taking
                    rw [still]
                  exact ih _ _ measured (table ▸ later)

/-- A statement that stands for an address emits or names it. -/
theorem Statement.emits_or_label {statement : Statement} (anchored : statement.isAnchored = true)
    : statement.emits = true ∨ ∃ token name, statement = .label token name := by
  cases statement with
  | data | string | implied | operate => exact .inl rfl
  | label token name => exact .inr ⟨token, name, rfl⟩
  | origin | assign | stray => cases anchored

/-- What the first pass declares and puts down is what the second needs to expect each statement
where it was measured.
-/
theorem Trace.recalled {symbols : Symbols} {counter : Nat} {changes : List Change}
    (trace : Trace set .prescan symbols counter statements changes)
    (second : desk.pass = .assemble)
    (held : Held desk.starts index statements (starts counter changes))
    (known
      : ∀ name symbol, (name, symbol) ∈ bindings statements (starts counter changes)
        → desk.symbols.get? name = some symbol)
    : Recalled desk.expected? index statements (starts counter changes) := by
  generalize first : Pass.prescan = pass at trace
  induction trace generalizing index with
  | nil => trivial
  | @cons symbols counter statement statements change changes carried rest ih =>
      obtain ⟨here, later⟩ := held
      refine ⟨?_, ih later fun name symbol member => known name symbol
        (List.mem_append_right _ member)⟩
      intro anchored
      have address : (UInt16.ofNat counter).toNat = counter :=
        UInt16.toNat_ofNat_of_lt (carried.inside anchored)
      rcases Statement.emits_or_label anchored with emitting | ⟨token, name, rfl⟩
      · rw [Desk.expected?_of_emits second emitting, here emitting, Option.map_some, address]
      · have declared := known name (.label (UInt16.ofNat counter))
          (List.mem_append_left _ (by simp [Statement.binding?]))
        simp only [Desk.expected?, second, declared, address]

-----------------------------------------------------------------------------------------
-- Both passes
-----------------------------------------------------------------------------------------

/-- The first pass in place is the first pass, on a desk without names and rows. -/
theorem Action.run_pass_prescan (set : InstructionSet) (tokens : List Token) (base : UInt16)
    (unnamed : desk.symbols = {}) (unlisted : desk.rows = #[])
    : ∃ starts,
        (pass set .prescan tokens base).run desk
          = (match Progress.prescan { counter := base.toNat, log := desk.log } set
                (Assembly.statements set tokens) with
            | (measured, none) =>
                .ok () (({ desk with pass := .prescan, finish := measured.counter, starts } :
                  Desk).taking measured)
            | (stopped, some fault) =>
                .error fault (({ desk with pass := .prescan, starts } : Desk).taking stopped))
        ∧ ∀ changes,
            Trace set .prescan {} base.toNat (Assembly.statements set tokens) changes
            → Held starts 0 (Assembly.statements set tokens)
                (Assembly.starts base.toNat changes) := by
  let fresh : Progress := { counter := base.toNat, log := desk.log }
  let cleared : Desk := { desk with pass := .prescan, counter := base.toNat, bytes := #[] }
  have placed : cleared = cleared.taking fresh := by
    simp [cleared, fresh, Desk.taking, unnamed, unlisted]
  obtain ⟨starts, walked, -, held⟩ := run_walk_prescan cleared 0 fresh rfl
  refine ⟨starts, ?_, held⟩
  rw [← placed] at walked
  unfold cleared at walked
  simp only [pass, EStateM.run_bind, EStateM.run_modify, walked]
  unfold Progress.prescan
  cases Progress.walk set .prescan ((Assembly.statements set tokens).map (·, none)) fresh with
  | mk next fault? => cases fault? <;> rfl

/-- The second pass in place is the second pass, if it expects the statements where the first has
found them and ends against the end of the first.
-/
theorem Action.run_pass_assemble (set : InstructionSet) (tokens : List Token) (base : UInt16)
    {measured : Progress} (unlisted : measured.rows = #[]) (ended : desk.finish = measured.counter)
    (recalled
      : Recalled (({ desk with pass := .assemble } : Desk).taking measured).expected? 0
          (Assembly.statements set tokens) measured.starts.toList)
    : (pass set .assemble tokens base).run (desk.taking measured)
      = ({ desk with pass := .assemble } : Desk).reaching ()
          (Progress.assemble measured set (Assembly.statements set tokens) base) := by
  let cleared : Desk := { desk with pass := .assemble }
  have placed
      : ({ desk.taking measured with
          pass := .assemble, counter := base.toNat, bytes := #[] } : Desk)
        = cleared.taking (restarted measured base) := by
    simp [cleared, restarted, Desk.taking, unlisted]
  have walked := run_walk_assemble cleared 0 (restarted measured base) measured.starts.toList rfl
    recalled
  simp only [pass, EStateM.run_bind, EStateM.run_modify]
  have start
      : ({ measured with counter := base.toNat, bytes := #[], rows := #[], starts := #[] } :
          Progress)
        = restarted measured base := rfl
  simp only [Progress.assemble, start]
  rw [placed, walked]
  cases Progress.walk set .assemble ((Assembly.statements set tokens).zip
      (measured.starts.toList.map some)) (restarted measured base) with
  | mk done fault? =>
      cases fault? with
      | some fault => rfl
      | none =>
          have finish : (cleared.taking done).finish = measured.counter := ended
          have counter : (cleared.taking done).counter = done.counter := rfl
          simp only [Desk.reaching, EStateM.run_get, finish, counter]
          split <;> rfl

/-- The second pass expects the statements where a first pass that has succeeded leaves them. -/
theorem Reaches.recalled {base : UInt16} {log : Log} {changes : List Change} {left : Progress}
    (reached : Reaches { counter := base.toNat, log } changes left)
    (trace : Trace set .prescan {} base.toNat statements changes)
    (second : desk.pass = .assemble)
    (held : Held desk.starts 0 statements (Assembly.starts base.toNat changes))
    : Recalled (desk.taking left).expected? 0 statements left.starts.toList := by
  have table : left.symbols = ⟨declarations changes⟩ := congrArg Symbols.mk reached.symbols
  have started : left.starts.toList = Assembly.starts base.toNat changes := reached.starts
  have distinct : Distinct left.symbols.meanings := by
    rw [table]
    exact trace.distinct_prescan List.nodup_nil
  rw [started]
  refine trace.recalled second held ?_
  intro name symbol member
  refine (get?_eq_some_iff distinct).mpr ?_
  rw [table, trace.bindings_prescan]
  exact member

/-- What is left of a run in place once the first pass is over. -/
theorem outcomeOf_assemble {base : UInt16} {left : Progress}
    (second
      : (Action.pass set .assemble tokens base).run (desk.taking left)
        = ({ desk with pass := .assemble } : Desk).reaching ()
            (Progress.assemble left set (Assembly.statements set tokens) base))
    : outcomeOf ((do
        Action.pass set .assemble tokens base
        Action.note (.info (Text.decimal (← get).bytes.size ++ " bytes"))
        let desk ← get
        return {
          origin := (Source.origin? tokens).getD base
          bytes := desk.bytes.toList
          symbols := desk.symbols
          rows := desk.rows.toList
        } : Action Output).run (desk.taking left))
      = match Progress.assemble left set (Assembly.statements set tokens) base with
        | (stopped, some fault) => (stopped.log, .error fault)
        | (done, none) =>
            (done.log.push (.info (Text.decimal done.bytes.size ++ " bytes")),
              .ok {
                origin := (Source.origin? tokens).getD base
                bytes := done.bytes.toList
                symbols := done.symbols
                rows := done.rows.toList
              }) := by
  rw [EStateM.run_bind, second]
  cases Progress.assemble left set (Assembly.statements set tokens) base with
  | mk done fault? => cases fault? <;> rfl

/-- Both passes in place are the two passes, on a desk without names and rows. The starts that an
earlier run has put down make no difference.
-/
theorem outcomeOf_passes (set : InstructionSet) (tokens : List Token) (base : UInt16) (desk : Desk)
    (unnamed : desk.symbols = {}) (unlisted : desk.rows = #[])
    : outcomeOf ((Action.passes set tokens base).run desk) = twoPass set tokens base desk.log := by
  obtain ⟨starts, first, held⟩ := Action.run_pass_prescan set tokens base unnamed unlisted
  rw [Action.passes, EStateM.run_bind, first]
  unfold twoPass
  dsimp only
  cases measuring : Progress.prescan { counter := base.toNat, log := desk.log } set
      (Assembly.statements set tokens) with
  | mk measured fault? =>
      cases fault? with
      | some fault => rfl
      | none =>
          obtain ⟨changes, trace, reached⟩ := prescan_eq_none measuring
          let left : Progress := { measured with
            log := measured.log.push (.info (Text.decimal measured.symbols.size ++ " symbols")) }
          let laid : Desk := { desk with pass := .prescan, finish := measured.counter, starts }
          have bare : left.rows = #[] := by
            apply Array.toList_inj.mp
            rw [show left.rows.toList = [] ++ rows changes from reached.rows, trace.rows_prescan]
            rfl
          have same : Reaches { counter := base.toNat, log := desk.log } changes left :=
            ⟨reached.counter, reached.symbols, reached.bytes, reached.rows, reached.starts⟩
          have second : (Action.pass set .assemble tokens base).run (laid.taking left) = _ :=
            Action.run_pass_assemble set tokens base bare rfl
              (same.recalled trace rfl (held changes trace))
          exact outcomeOf_assemble second

end Asm6510.Assembly
