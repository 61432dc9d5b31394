import Asm6510.Proofs.Assembly.Passes

/-! Passes that stop. The ways in which a statement can fail are the cases of one relation, beside
the ways to succeed, and a pass that stops has carried out the statements before the one that fails.
-/

namespace Asm6510.Assembly

open Machine (Instruction InstructionSet)
open Operand
open Progress (Change)
open Report (Log)
open Source (Token)

/-- The causes that a statement can fail for at a counter, with these symbols known and where it
was measured at `expected?`.
-/
inductive Failed (set : InstructionSet) (pass : Pass) (symbols : Symbols) (counter : Nat)
    (expected? : Option Nat) : Statement → Cause → Prop
  | outside {statement : Statement} (anchored : statement.isAnchored = true)
    (outside : addressSpace ≤ counter)
    : Failed set pass symbols counter expected? statement .addressOverflow
  | drifted {statement : Statement} {expected : Nat} (anchored : statement.isAnchored = true)
    (measured : expected? = some expected) (differs : expected ≠ counter)
    : Failed set pass symbols counter expected? statement (.addressDrift expected counter)
  | effect {statement : Statement} {cause : Cause}
    (placed : statement.isAnchored = true → ∀ expected ∈ expected?, expected = counter)
    (failed : (statement.effect set pass symbols (UInt16.ofNat counter)).outcome = .error cause)
    : Failed set pass symbols counter expected? statement cause
  | taken {statement : Statement} {name : String} {symbol : Symbol} (first : pass = .prescan)
    (made : (statement.effect set pass symbols (UInt16.ofNat counter)).outcome
      = .ok (.declare name symbol))
    (known : (symbols.get? name).isSome = true)
    : Failed set pass symbols counter expected? statement (.duplicateSymbol name)
  | overflow {statement : Statement} {row : Row}
    (placed : statement.isAnchored = true → ∀ expected ∈ expected?, expected = counter)
    (made : (statement.effect set pass symbols (UInt16.ofNat counter)).outcome = .ok (.emit row))
    (past : addressSpace < counter + row.bytes.length)
    : Failed set pass symbols counter expected? statement .addressOverflow

/-- Statements that the first pass carries out, and the second up to one that fails. The first
knows `known` and stands at `measured`, the second knows `table` and stands at `emitted`.
-/
inductive Interrupted (set : InstructionSet) (table : Symbols) (cause : Cause)
    : Symbols → Nat → Nat → List Statement → List Change → List Change → Prop
  | here {known : Symbols} {measured emitted : Nat} {statement : Statement}
    {statements : List Statement} {first : Change} {firsts : List Change}
    (prescan : Carried set .prescan known measured statement first)
    (others : Trace set .prescan (known.grow first) first.counter statements firsts)
    (failed : Failed set .assemble table emitted (some measured) statement cause)
    : Interrupted set table cause known measured emitted (statement :: statements)
        (first :: firsts) []
  | later {known : Symbols} {measured emitted : Nat} {statement : Statement}
    {statements : List Statement} {first second : Change} {firsts seconds : List Change}
    (prescan : Carried set .prescan known measured statement first)
    (assemble : Carried set .assemble table emitted statement second)
    (aligned : statement.isAnchored = true → measured = emitted)
    (rest : Interrupted set table cause (known.grow first) first.counter second.counter statements
      firsts seconds)
    : Interrupted set table cause known measured emitted (statement :: statements)
        (first :: firsts) (second :: seconds)

/-- How a second pass from `base` ends behind a first with the changes `firsts`: it succeeds, is
interrupted, or misses the counter at which the first has ended.
-/
inductive Ending (set : InstructionSet) (base : UInt16) (statements : List Statement)
    (firsts seconds : List Change) : Option Fault → Prop
  | succeeds
    (passes : Passes set ⟨declarations firsts⟩ Symbols.empty base.toNat base.toNat statements
      firsts seconds)
    : Ending set base statements firsts seconds none
  | stops {fault : Fault}
    (interrupted : Interrupted set ⟨declarations firsts⟩ fault.cause Symbols.empty base.toNat
      base.toNat statements firsts seconds)
    : Ending set base statements firsts seconds (some fault)
  | misses {fault : Fault}
    (passes : Passes set ⟨declarations firsts⟩ Symbols.empty base.toNat base.toNat statements
      firsts seconds)
    (differs : finish base.toNat seconds ≠ finish base.toNat firsts)
    (drift : fault.cause = .addressDrift (finish base.toNat firsts) (finish base.toNat seconds))
    : Ending set base statements firsts seconds (some fault)

variable {set : InstructionSet} {pass : Pass} {symbols table known : Symbols}
  {counter measured emitted : Nat} {expected? : Option Nat} {statement : Statement}
  {statements : List Statement} {items : List (Statement × Option Nat)} {cause : Cause}
  {fault : Fault} {firsts seconds : List Change} {progress before after : Progress}

-----------------------------------------------------------------------------------------
-- One statement that fails
-----------------------------------------------------------------------------------------

/-- A sequence fails in its first part or in its second. -/
theorem bind_eq_error {ε α β : Type} {x : Except ε α} {f : α → Except ε β} {e : ε}
    : (x >>= f) = .error e ↔ x = .error e ∨ ∃ a, x = .ok a ∧ f a = .error e := by
  cases x <;> simp

/-- A reference fails to resolve where a mnemonic stands in its place, where its name has no meaning
when it is emitted, or where its mark takes a byte of what is no word.
-/
theorem resolve_eq_error {operand : Token} {instruction : Instruction} {here : UInt16}
    (failed : (resolve set pass symbols here instruction operand).outcome = .error cause)
    : (cause = .missingOperand instruction.mnemonic
        ∧ isLookedUp instruction operand = true
        ∧ set.isInstruction operand.text = true)
      ∨ (cause = .unresolvedReference (referent operand.text)
        ∧ pass = .assemble
        ∧ symbols.get? (referent operand.text) = none)
      ∨ cause = .invalidByteExtract operand.text := by
  cases sought : isLookedUp instruction operand with
  | false => simp [resolve_of_literal sought] at failed
  | true =>
      cases name : set.isInstruction operand.text with
      | true =>
          simp only [resolve, sought, name] at failed
          exact .inl ⟨(Except.error.inj failed).symm, rfl, rfl⟩
      | false =>
          cases known : symbols.get? (referent operand.text) with
          | some symbol =>
              rw [resolve_of_known sought name known, substitute] at failed
              split at failed
              · cases failed
              · split at failed
                · cases failed
                · exact .inr (.inr (Except.error.inj failed).symm)
          | none =>
              cases pass with
              | prescan => simp [resolve_of_unknown sought name known] at failed
              | assemble =>
                  simp only [resolve, sought, name, known] at failed
                  exact .inr (.inl ⟨(Except.error.inj failed).symm, rfl, rfl⟩)

/-- A text is converted unless it is a target that the branch does not reach. -/
theorem converted_eq_error {instruction : Instruction} {here : UInt16} {plain : String}
    (failed : converted pass here instruction plain = .error cause)
    : ∃ offset, cause = .relativeOffsetOutOfRange offset := by
  unfold converted branchOperand displacement at failed
  split at failed
  · split at failed
    · dsimp only at failed
      split at failed
      · cases failed
      · exact ⟨_, (Except.error.inj failed).symm⟩
    · split at failed
      · cases failed
      · cases pass <;> cases failed
  · cases failed

/-- An instruction fails for its operand: a mnemonic stands in its place, the name has no meaning
or none that has bytes, a branch does not reach its target, or no mode accepts it.
-/
theorem operate_eq_error {token operand : Token} {instruction : Instruction} {here : UInt16}
    (failed : (operate set pass symbols here token instruction operand).outcome = .error cause)
    : (cause = .missingOperand instruction.mnemonic
        ∧ isLookedUp instruction operand = true
        ∧ set.isInstruction operand.text = true)
      ∨ (cause = .unresolvedReference (referent operand.text)
        ∧ pass = .assemble
        ∧ symbols.get? (referent operand.text) = none)
      ∨ cause = .invalidByteExtract operand.text
      ∨ (∃ offset, cause = .relativeOffsetOutOfRange offset)
      ∨ ∃ text, cause = .invalidAddressingMode instruction.mnemonic text := by
  rw [operate_outcome] at failed
  rcases bind_eq_error.mp failed with unresolved | ⟨plain, -, failed⟩
  · rcases resolve_eq_error unresolved with mnemonic | unknown | extract
    · exact .inl mnemonic
    · exact .inr (.inl unknown)
    · exact .inr (.inr (.inl extract))
  · rcases bind_eq_error.mp failed with unreached | ⟨text, -, failed⟩
    · exact .inr (.inr (.inr (.inl (converted_eq_error unreached))))
    · split at failed
      · exact .inr (.inr (.inr (.inr ⟨text, (Except.error.inj failed).symm⟩)))
      · cases failed

/-- A statement fails for an operand that is missing, or for one that it cannot use. -/
theorem effect_eq_error {here : UInt16}
    (failed : (statement.effect set pass symbols here).outcome = .error cause)
    : (cause = .missingOperand statement.head.text ∧ statement.tail = [])
      ∨ (∃ directive operand,
          statement = .origin directive (some operand)
          ∧ wordValue? operand.text = none
          ∧ cause = .invalidOrgOperand operand.text)
      ∨ (∃ directive operand,
          statement = .string directive (some operand) ∧ cause = .invalidString directive.text)
      ∨ ∃ token instruction operand,
          statement = .operate token instruction (some operand)
          ∧ (operate set pass symbols here token instruction operand).outcome = .error cause := by
  cases statement with
  | data | label | implied | stray => cases failed
  | origin directive operand? =>
      cases operand? with
      | none => exact .inl ⟨(Except.error.inj failed).symm, rfl⟩
      | some operand =>
          refine .inr (.inl ⟨directive, operand, rfl, ?_⟩)
          cases word : wordValue? operand.text with
          | some address => simp [Statement.effect, required, word] at failed
          | none => simpa [Statement.effect, required, word, eq_comm] using failed
  | string directive operand? =>
      cases operand? with
      | none => exact .inl ⟨(Except.error.inj failed).symm, rfl⟩
      | some operand =>
          refine .inr (.inr (.inl ⟨directive, operand, rfl, ?_⟩))
          cases kind : operand.kind <;>
            simp_all [Statement.effect, required, Fault.placed, eq_comm]
  | assign token name value? =>
      cases value? with
      | none => exact .inl ⟨(Except.error.inj failed).symm, rfl⟩
      | some value => cases failed
  | operate token instruction operand? =>
      cases operand? with
      | none => exact .inl ⟨(Except.error.inj failed).symm, rfl⟩
      | some operand =>
          refine .inr (.inr (.inr ⟨token, instruction, operand, rfl, ?_⟩))
          simp only [Statement.effect, required, Logged.outcome_bind, Logged.outcome_pure, ok_bind]
            at failed
          rcases bind_eq_error.mp failed with failed | ⟨row, -, impossible⟩
          · exact failed
          · cases impossible

/-- A statement that stands where it was measured does not fail for a drift. -/
theorem Failed.ne_drift
    (failed : Failed set pass symbols counter (some counter) statement cause)
    (expected found : Nat)
    : cause ≠ .addressDrift expected found := by
  rintro rfl
  cases failed with
  | drifted anchored measured differs => exact differs (Option.some.inj measured).symm
  | effect placed failed =>
      rcases effect_eq_error failed with
        ⟨other, -⟩ | ⟨_, _, -, -, other⟩ | ⟨_, _, -, other⟩ | ⟨_, _, _, -, failed⟩
      · cases other
      · cases other
      · cases other
      · rcases operate_eq_error failed with
          ⟨other, -⟩ | ⟨other, -⟩ | other | ⟨_, other⟩ | ⟨_, other⟩
        all_goals cases other

namespace Progress

/-- The start of a statement is wrong when it is no address, or not the one measured before. -/
theorem checkStart_eq_error (failed : progress.checkStart expected? statement = .error cause)
    : statement.isAnchored = true
      ∧ (addressSpace ≤ progress.counter ∧ cause = .addressOverflow
        ∨ ∃ expected,
            expected? = some expected
            ∧ expected ≠ progress.counter
            ∧ cause = .addressDrift expected progress.counter) := by
  unfold checkStart at failed
  split at failed
  · rename_i anchored
    refine ⟨anchored, ?_⟩
    split at failed
    · rename_i outside
      exact Or.inl ⟨outside, (Except.error.inj failed).symm⟩
    · split at failed
      · rename_i expected
        split at failed
        · cases failed
        · rename_i differs
          exact Or.inr ⟨expected, rfl, differs, (Except.error.inj failed).symm⟩
      · cases failed
  · cases failed

/-- A change fails for a name that is taken, which only the first pass finds, or for a row that
does not fit.
-/
theorem change_eq_error {effect : Effect}
    (failed : (progress.change pass statement effect).outcome = .error cause)
    : (∃ name symbol,
        effect = .declare name symbol
        ∧ pass = .prescan
        ∧ (progress.symbols.get? name).isSome = true
        ∧ cause = .duplicateSymbol name)
      ∨ ∃ row,
          effect = .emit row
          ∧ addressSpace < progress.counter + row.bytes.length
          ∧ cause = .addressOverflow := by
  cases effect with
  | moveTo address => cases failed
  | ignore => cases pass <;> cases failed
  | declare name symbol =>
      cases pass with
      | assemble => cases failed
      | prescan =>
          simp only [change, declare] at failed
          split at failed
          · rename_i place found
            have known : (progress.symbols.get? name).isSome = true := by
              rw [Option.isSome_iff_ne_none, ne_eq, ← pos?_eq_none_iff, found]
              simp
            exact Or.inl ⟨name, symbol, rfl, rfl, known, (Except.error.inj failed).symm⟩
          · cases failed
  | emit row =>
      simp only [change, emit, Logged.outcome_ofExcept] at failed
      split at failed
      · rename_i past
        exact Or.inr ⟨row, rfl, past, (Except.error.inj failed).symm⟩
      · cases pass <;> cases failed

/-- Carrying out a statement fails only in the cases of `Failed`. -/
theorem failed_of_attempt
    (failing : (progress.attempt set pass expected? statement).outcome = .error cause)
    : Failed set pass progress.symbols progress.counter expected? statement cause := by
  rw [attempt_outcome] at failing
  rcases bind_eq_error.mp failing with start | ⟨⟨⟩, started, failing⟩
  · obtain ⟨anchored, ⟨outside, rfl⟩ | ⟨expected, measured, differs, rfl⟩⟩ :=
      checkStart_eq_error start
    · exact .outside anchored outside
    · exact .drifted anchored measured differs
  · have placed := fun anchored => (checkStart_eq_ok_iff.mp started anchored).2
    rcases bind_eq_error.mp failing with failed | ⟨effect, made, failed⟩
    · exact .effect placed failed
    · rcases change_eq_error failed with
        ⟨name, symbol, rfl, first, known, rfl⟩ | ⟨row, rfl, past, rfl⟩
      · exact .taken first made known
      · exact .overflow placed made past

end Progress

/-- A statement that fails leaves the state as it was, its log apart. -/
theorem step_eq_some (stepped : before.step set pass expected? statement = (after, some fault))
    : Failed set pass before.symbols before.counter expected? statement fault.cause
      ∧ Reaches before [] after := by
  unfold Progress.step at stepped
  split at stepped
  · cases stepped
  · rename_i messages found attempted
    obtain ⟨rfl, same⟩ := Prod.mk.inj stepped
    obtain rfl := Option.some.inj same
    refine ⟨Progress.failed_of_attempt ?_, ?_⟩
    · rw [Logged.outcome, attempted, Fault.cause_located]
      rfl
    · exact ⟨rfl, by simp [Progress.noting, declarations], by simp [Progress.noting, rows],
        by simp [Progress.noting, rows], by simp [Progress.noting, starts]⟩

-----------------------------------------------------------------------------------------
-- A pass that stops
-----------------------------------------------------------------------------------------

/-- What was reached stays reached when no change is made. -/
theorem Reaches.still {middle : Progress} (reached : Reaches before firsts middle)
    (still : Reaches middle [] after)
    : Reaches before firsts after where
  counter := still.counter.trans reached.counter
  symbols := by simpa [declarations, reached.symbols] using still.symbols
  bytes := by simpa [Assembly.rows, reached.bytes] using still.bytes
  rows := by simpa [Assembly.rows, reached.rows] using still.rows
  starts := by simpa [Assembly.starts, reached.starts] using still.starts

/-- A walk that stops has walked the statements before the one that fails. -/
theorem walk_eq_some (walked : Progress.walk set pass items before = (after, some fault))
    : ∃ front statement expected? back middle,
        items = front ++ (statement, expected?) :: back
        ∧ Progress.walk set pass front before = (middle, none)
        ∧ middle.step set pass expected? statement = (after, some fault) := by
  induction items generalizing before with
  | nil => cases walked
  | cons item items ih =>
      obtain ⟨statement, expected?⟩ := item
      rw [Progress.walk] at walked
      split at walked
      · rename_i next stepped
        obtain ⟨front, other, found, back, middle, rfl, walked, failed⟩ := ih walked
        refine ⟨(statement, expected?) :: front, other, found, back, middle, rfl, ?_, failed⟩
        rw [Progress.walk, stepped]
        exact walked
      · rename_i next found stepped
        exact ⟨[], statement, expected?, items, before, rfl, rfl, stepped.trans walked⟩

/-- A walk that stops has a trace of the statements before the one that fails. -/
theorem stopped_of_walk (walked : Progress.walk set pass items before = (after, some fault))
    : ∃ front statement expected? back changes,
        items = front ++ (statement, expected?) :: back
        ∧ Trace set pass before.symbols before.counter (front.map (·.1)) changes
        ∧ Reaches before changes after
        ∧ Failed set pass after.symbols after.counter expected? statement fault.cause := by
  obtain ⟨front, statement, expected?, back, middle, rfl, walked, stepped⟩ := walk_eq_some walked
  obtain ⟨changes, trace, -, reached⟩ := trace_of_walk walked
  obtain ⟨failed, still⟩ := step_eq_some stepped
  have symbols : middle.symbols = after.symbols :=
    congrArg Symbols.mk (by simpa [declarations] using still.symbols.symm)
  have counter : middle.counter = after.counter := still.counter.symm
  rw [symbols, counter] at failed
  exact ⟨front, statement, expected?, back, changes, rfl, trace, reached.still still, failed⟩

/-- A first pass that stops does so at a statement that was never measured before. -/
theorem prescan_eq_some
    (measuring : Progress.prescan before set statements = (after, some fault))
    : ∃ front statement back firsts,
        statements = front ++ statement :: back
        ∧ Trace set .prescan before.symbols before.counter front firsts
        ∧ Reaches before firsts after
        ∧ Failed set .prescan after.symbols after.counter none statement fault.cause := by
  obtain ⟨front, statement, expected?, back, firsts, split, trace, reached, failed⟩ :=
    stopped_of_walk measuring
  obtain ⟨front', rest, rfl, rfl, remaining⟩ := List.map_eq_append_iff.mp split
  obtain ⟨first, back', rfl, same, rfl⟩ := List.map_eq_cons_iff.mp remaining
  obtain ⟨rfl, rfl⟩ := Prod.mk.inj same
  exact ⟨front', first, back', firsts, rfl, by simpa [Function.comp_def] using trace, reached,
    failed⟩

/-- A second pass that stops is interrupted behind statements that it has carried out.
Witness: induction on the trace of the first pass, whose starts the second is held to.
-/
theorem Trace.interrupted (prescan : Trace set .prescan known measured statements firsts)
    (walked : Progress.walk set .assemble (statements.zip ((starts measured firsts).map some))
      before = (after, some fault))
    : ∃ seconds,
        Interrupted set before.symbols fault.cause known measured before.counter statements firsts
          seconds
        ∧ Reaches before seconds after := by
  generalize first : Pass.prescan = pass at prescan
  induction prescan generalizing before with
  | nil => cases walked
  | cons carried others ih =>
      subst first
      rw [starts, List.map_cons, List.zip_cons_cons, Progress.walk] at walked
      split at walked
      · rename_i next stepped
        obtain ⟨second, messages, assembled, placed, -, rfl⟩ := step_eq_none_iff.mp stepped
        obtain ⟨seconds, rest, reached⟩ := ih walked
        have symbols : ((before.advance second).noting messages).symbols = before.symbols :=
          assembled.grow_assemble
        rw [symbols] at rest
        exact ⟨second :: seconds,
          .later carried assembled (fun anchored => placed anchored _ rfl) rest, reached.advance⟩
      · rename_i next found stepped
        obtain ⟨rfl, same⟩ := Prod.mk.inj walked
        obtain rfl := Option.some.inj same
        obtain ⟨failed, reached⟩ := step_eq_some stepped
        exact ⟨[], .here carried others failed, reached⟩

/-- A second pass fails at a statement, or at its end for a counter that is not the measured one.
-/
theorem Trace.assemble_eq_some {base : UInt16}
    (prescan : Trace set .prescan known measured statements firsts)
    (started : before.starts.toList = starts measured firsts)
    (emitting : Progress.assemble before set statements base = (after, some fault))
    : (∃ seconds,
        Interrupted set before.symbols fault.cause known measured base.toNat statements firsts
          seconds
        ∧ Reaches (restarted before base) seconds after)
      ∨ ∃ seconds,
          Passes set before.symbols known measured base.toNat statements firsts seconds
          ∧ Reaches (restarted before base) seconds after
          ∧ finish base.toNat seconds ≠ before.counter
          ∧ fault.cause = .addressDrift before.counter (finish base.toNat seconds) := by
  rw [Progress.assemble, started] at emitting
  split at emitting
  · rename_i done stopped walked
    obtain ⟨rfl, same⟩ := Prod.mk.inj emitting
    obtain rfl := Option.some.inj same
    exact Or.inl (prescan.interrupted walked)
  · rename_i done walked
    split at emitting
    · cases emitting
    · rename_i differs
      obtain ⟨rfl, same⟩ := Prod.mk.inj emitting
      obtain rfl := Option.some.inj same
      obtain ⟨seconds, assemble, met, reached⟩ := trace_of_walk walked
      have counted : ((starts measured firsts).map some).length = statements.length := by
        rw [List.length_map, length_starts, prescan.length_eq]
      rw [List.map_fst_zip (by omega)] at assemble
      have ended : done.counter = finish base.toNat seconds := reached.counter
      rw [ended] at differs ⊢
      exact Or.inr ⟨seconds, prescan.passes assemble met, reached, differs, rfl⟩

/-- A second pass ends in one of these ways behind a first pass that succeeds. -/
theorem ending_of_assemble {base : UInt16} {log note : Log} {measured done : Progress}
    {fault? : Option Fault}
    (measuring : Progress.prescan { counter := base.toNat, log } set statements = (measured, none))
    (emitting : Progress.assemble { measured with log := note } set statements base
      = (done, fault?))
    : ∃ firsts seconds,
        Reaches { counter := base.toNat, log } firsts measured
        ∧ Reaches (restarted { measured with log := note } base) seconds done
        ∧ Ending set base statements firsts seconds fault? := by
  obtain ⟨firsts, prescan, reached⟩ := prescan_eq_none measuring
  obtain ⟨known, started, ended⟩ := @Reaches.handedOver firsts base log note measured reached
  cases fault? with
  | none =>
      obtain ⟨seconds, assemble, met, -, emitted⟩ :=
        assemble_eq_none (prescan.size_starts started) emitting
      rw [known] at assemble
      rw [started] at met
      exact ⟨firsts, seconds, reached, emitted, .succeeds (prescan.passes assemble met)⟩
  | some fault =>
      rcases prescan.assemble_eq_some started emitting with
        ⟨seconds, interrupted, emitted⟩ | ⟨seconds, passes, emitted, differs, drift⟩
      · rw [known] at interrupted
        exact ⟨firsts, seconds, reached, emitted, .stops interrupted⟩
      · rw [known] at passes
        rw [ended] at differs drift
        exact ⟨firsts, seconds, reached, emitted, .misses passes differs drift⟩

/-- A run fails in its first pass, or ends in one of the ways in which a second pass fails. -/
theorem twoPass_eq_error {tokens : List Token} {base : UInt16} {log : Log}
    (failed : (twoPass set tokens base log).2 = .error fault)
    : (∃ stopped,
        Progress.prescan { counter := base.toNat, log } set (Assembly.statements set tokens)
          = (stopped, some fault)
        ∧ (twoPass set tokens base log).1 = stopped.log)
      ∨ ∃ firsts seconds,
          Ending set base (Assembly.statements set tokens) firsts seconds (some fault) := by
  unfold twoPass at failed ⊢
  dsimp only at failed ⊢
  split at failed
  · rename_i stopped found measuring
    obtain rfl := Except.error.inj failed
    exact .inl ⟨stopped, measuring, rfl⟩
  · rename_i measured measuring
    split at failed
    · rename_i done found emitting
      obtain rfl := Except.error.inj failed
      obtain ⟨firsts, seconds, -, -, ending⟩ := ending_of_assemble measuring emitting
      exact .inr ⟨firsts, seconds, ending⟩
    · cases failed

/-- A pass that ends in a cause has stopped with a fault. -/
theorem exists_fault_of_cause {outcome : Progress × Option Fault}
    (stopped : outcome.2.map (·.cause) = some cause)
    : ∃ fault, outcome = (outcome.1, some fault) ∧ fault.cause = cause := by
  obtain ⟨fault, found, same⟩ := Option.map_eq_some_iff.mp stopped
  exact ⟨fault, Prod.ext rfl found, same⟩

/-- The first pass is not interrupted. -/
theorem Interrupted.prescan
    (interrupted : Interrupted set table cause known measured emitted statements firsts seconds)
    : Trace set .prescan known measured statements firsts := by
  induction interrupted with
  | here prescan others failed => exact .cons prescan others
  | later prescan assemble aligned rest ih => exact .cons prescan ih

end Asm6510.Assembly
