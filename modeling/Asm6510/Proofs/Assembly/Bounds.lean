import Asm6510.Proofs.Assembly.Failures
import Asm6510.Proofs.Assembly.InPlaceRuns

/-! The bounds of the address space. No state of a pass stands beyond the end or lists a row that
reaches beyond it, a row is refused exactly when it would, and a statement that fails in place has
changed nothing by then.
-/

namespace Asm6510.Assembly

open Machine (InstructionSet)
open Progress (Change)
open Report (Log)
open Source (Token)

/-- A row ends inside the address space, or right at its end. -/
def Row.Fits (row : Row) : Prop :=
  row.address.toNat + row.bytes.length ≤ addressSpace

namespace Progress

/-- A state inside the address space, with its rows. -/
structure Bounded (progress : Progress) : Prop where
  counter : progress.counter ≤ addressSpace
  rows : ∀ row ∈ progress.rows, row.Fits

end Progress

/-- Two desks that agree on what a pass works on and puts out. -/
structure Desk.Unchanged (before after : Desk) : Prop where
  counter : after.counter = before.counter
  bytes : after.bytes = before.bytes
  symbols : after.symbols = before.symbols
  rows : after.rows = before.rows

variable {set : InstructionSet} {pass : Pass} {symbols table : Symbols} {counter : Nat}
  {statement : Statement} {statements : List Statement} {items : List (Statement × Option Nat)}
  {change : Change} {changes : List Change} {row : Row} {expected? : Option Nat}
  {before after : Progress} {fault : Fault}

-----------------------------------------------------------------------------------------
-- One statement
-----------------------------------------------------------------------------------------

/-- A change leads to an address or to the end, whichever way it is made. -/
theorem Carried.counter_le (carried : Carried set pass symbols counter statement change)
    (inside : counter ≤ addressSpace)
    : change.counter ≤ addressSpace := by
  cases carried with
  | move word => exact Nat.le_of_lt (UInt16.toNat_lt _)
  | emit _ made fits => exact fits
  | label | assign | stray => exact inside

/-- A row that is listed fits. Witness: its address is the counter, which has not wrapped. -/
theorem Carried.fits (carried : Carried set pass symbols counter statement change)
    (listed : change.row? = some row)
    : row.Fits := by
  cases carried with
  | move | label | assign | stray => cases listed
  | emit inside made fits =>
      cases pass with
      | prescan => cases listed
      | assemble =>
          cases listed
          rw [Row.Fits, toNat_address_of_effect inside made]
          exact fits

/-- Every row of a pass ends inside the address space. -/
theorem Trace.fits (trace : Trace set pass symbols counter statements changes)
    (member : row ∈ rows changes)
    : row.Fits := by
  induction trace with
  | nil => cases member
  | cons first rest ih =>
      rw [rows, List.filterMap_cons] at member
      split at member
      · exact ih member
      · rename_i listed
        rcases List.mem_cons.mp member with rfl | later
        · exact first.fits listed
        · exact ih later

namespace Progress

theorem Bounded.noting (bounded : before.Bounded) (messages : List Report.Message)
    : (before.noting messages).Bounded :=
  ⟨bounded.counter, bounded.rows⟩

/-- A statement that is carried out leads from one bounded state to the next. -/
theorem Bounded.advance (bounded : before.Bounded)
    (carried : Carried set pass before.symbols before.counter statement change)
    : (before.advance change).Bounded where
  counter := carried.counter_le bounded.counter
  rows := by
    intro row member
    cases listed : change.row? with
    | none => exact bounded.rows row (by simpa [Progress.advance, listed] using member)
    | some last =>
        simp only [Progress.advance, listed, Array.mem_push] at member
        rcases member with earlier | rfl
        · exact bounded.rows row earlier
        · exact carried.fits listed

/-- A statement that fails is only logged. -/
theorem exists_noting_of_step
    (stepped : before.step set pass expected? statement = (after, some fault))
    : ∃ messages, after = before.noting messages := by
  unfold step at stepped
  split at stepped
  · cases stepped
  · rename_i messages found attempted
    exact ⟨messages, (congrArg Prod.fst stepped).symm⟩

/-- A statement leads from one bounded state to the next, whether it fails or not. -/
theorem Bounded.step (bounded : before.Bounded) (set : InstructionSet) (pass : Pass)
    (expected? : Option Nat) (statement : Statement)
    : (before.step set pass expected? statement).1.Bounded := by
  cases stepped : before.step set pass expected? statement with
  | mk after fault? =>
      cases fault? with
      | none =>
          obtain ⟨change, messages, carried, -, -, rfl⟩ := step_eq_none_iff.mp stepped
          exact (bounded.advance carried).noting messages
      | some fault =>
          obtain ⟨messages, rfl⟩ := exists_noting_of_step stepped
          exact bounded.noting messages

theorem step_of_attempt_ok
    (attempted : (before.attempt set pass expected? statement).outcome = .ok change)
    : (before.step set pass expected? statement).2 = none
      ∧ (before.step set pass expected? statement).1.counter = change.counter := by
  cases found : before.attempt set pass expected? statement with
  | mk messages result =>
      rw [found] at attempted
      obtain rfl := Logged.outcome_eq_ok.mp attempted
      simp [step, found, Progress.noting, Progress.advance]

theorem cause_of_attempt_error {cause : Cause}
    (attempted : (before.attempt set pass expected? statement).outcome = .error cause)
    : (before.step set pass expected? statement).2.map (·.cause) = some cause := by
  cases found : before.attempt set pass expected? statement with
  | mk messages result =>
      rw [found] at attempted
      cases result with
      | ok change => cases attempted
      | error fault =>
          obtain rfl := Except.error.inj attempted
          simp [step, found]

/-- A statement that emits is carried out exactly when its row starts and ends inside the address
space. Which row it is, and whether the statement stands where it was measured, matters only inside.
-/
theorem attempt_of_emits (emitting : statement.emits = true)
    (made : before.counter < addressSpace
      → (statement.effect set pass before.symbols (UInt16.ofNat before.counter)).outcome
          = .ok (.emit row)
        ∧ ∀ expected ∈ expected?, expected = before.counter)
    : (before.attempt set pass expected? statement).outcome
      = if 0xFFFF < before.counter ∨ 0x10000 < before.counter + row.bytes.length then
          .error .addressOverflow
        else
          .ok (pass.emitted before.counter row) := by
  have anchored := Statement.isAnchored_of_emits emitting
  have space : addressSpace = 0x10000 := rfl
  rw [attempt_outcome]
  by_cases inside : before.counter < addressSpace
  · obtain ⟨emitted, placed⟩ := made inside
    have started : before.checkStart expected? statement = .ok () :=
      checkStart_eq_ok_iff.mpr fun _ => ⟨inside, placed⟩
    rw [started, ok_bind, emitted, ok_bind]
    by_cases fits : before.counter + row.bytes.length ≤ addressSpace
    · rw [change_emit_eq_ok_iff.mpr ⟨fits, rfl⟩, if_neg (by omega)]
    · simp only [Progress.change, Logged.outcome_ofExcept, emit]
      rw [if_pos (by omega), if_pos (by omega)]
  · have outside : before.checkStart expected? statement = .error .addressOverflow := by
      unfold checkStart
      rw [if_pos anchored, if_pos (Nat.le_of_not_lt inside)]
    rw [outside, error_bind, if_pos (by omega)]

/-- A statement that emits fails for an overflow exactly when its row starts or ends beyond the
address space, and takes the counter past the row otherwise.
-/
theorem step_of_emits (emitting : statement.emits = true)
    (made : before.counter < addressSpace
      → (statement.effect set pass before.symbols (UInt16.ofNat before.counter)).outcome
          = .ok (.emit row)
        ∧ ∀ expected ∈ expected?, expected = before.counter)
    : ((before.step set pass expected? statement).2.map (·.cause) = some .addressOverflow
        ↔ 0xFFFF < before.counter ∨ 0x10000 < before.counter + row.bytes.length)
      ∧ (¬ (0xFFFF < before.counter ∨ 0x10000 < before.counter + row.bytes.length)
          → (before.step set pass expected? statement).2 = none
            ∧ (before.step set pass expected? statement).1.counter
              = before.counter + row.bytes.length) := by
  have attempted := attempt_of_emits emitting made
  split at attempted
  · rename_i beyond
    have failed := cause_of_attempt_error attempted
    exact ⟨iff_of_true failed beyond, fun inside => absurd beyond inside⟩
  · rename_i inside
    have stepped := step_of_attempt_ok attempted
    exact ⟨iff_of_false (by simp [stepped.1]) inside, fun _ => stepped⟩

end Progress

/-- A statement that fails in place has written messages and its start at most, whichever of its
checks has failed.
-/
theorem Action.unchanged_of_statement {index : Nat} {token : Token} {rest : List Token}
    {before after : Desk}
    (failed : (Action.statement set index token rest).run before = .error fault after)
    : before.Unchanged after := by
  rw [run_statement] at failed
  obtain ⟨starts, marked⟩ := before.marked_eq index (Statement.starting set token rest)
  rw [marked, Desk.settle] at failed
  split at failed
  · cases failed
  · cases failed
    exact ⟨rfl, rfl, rfl, rfl⟩

-----------------------------------------------------------------------------------------
-- A pass
-----------------------------------------------------------------------------------------

namespace Progress

/-- All states of a walk are bounded, by induction on the statements. -/
theorem Bounded.walk (bounded : before.Bounded) (set : InstructionSet) (pass : Pass)
    (items : List (Statement × Option Nat))
    : (walk set pass items before).1.Bounded := by
  induction items generalizing before with
  | nil => exact bounded
  | cons item items ih =>
      obtain ⟨statement, expected?⟩ := item
      have next := bounded.step set pass expected? statement
      rw [Progress.walk]
      split
      · rename_i after stepped
        rw [stepped] at next
        exact ih next
      · rename_i after fault stepped
        rw [stepped] at next
        exact next

end Progress

/-- The counter of a trace stays inside, by induction on the trace. -/
theorem Trace.finish_le (trace : Trace set pass symbols counter statements changes)
    (inside : counter ≤ addressSpace)
    : finish counter changes ≤ addressSpace := by
  induction trace with
  | nil => exact inside
  | cons first rest ih => exact ih (first.counter_le inside)

/-- Without an origin, the counter moves by what is emitted. -/
theorem Trace.finish_of_unmoved (trace : Trace set .assemble table counter statements changes)
    (unmoved : ∀ statement ∈ statements, statement.moves = false)
    : finish counter changes = counter + ((rows changes).flatMap (·.bytes)).length := by
  generalize second : Pass.assemble = pass at trace
  induction trace with
  | nil => rfl
  | @cons symbols counter statement statements change changes first rest ih =>
      subst second
      have fixed := unmoved statement (by simp)
      have rest := ih fun other member => unmoved other (by simp [member])
      have here : change.counter = counter + (change.row?.elim 0 (·.bytes.length)) := by
        cases first with
        | move word => cases fixed
        | emit | label | assign | stray => rfl
      rw [finish, rest, here]
      cases listed : change.row? with
      | none => simp [rows, listed]
      | some row => simp [rows, listed, Nat.add_assoc]

-----------------------------------------------------------------------------------------
-- A run
-----------------------------------------------------------------------------------------

/-- Nothing passes the end of the address space. After any number of statements either pass is in a
bounded state; a statement that emits fails for an overflow exactly when its row starts or ends
beyond the end; a statement that fails in place has changed nothing, where statements and passes in
place are the steps and the two passes; and a run without an origin that succeeds puts all its bytes
between its base and the end.
-/
theorem twoPass_bounded (set : InstructionSet) (tokens : List Token) (base : UInt16)
    : (∀ log count,
        (Progress.walk set .prescan
          (((Assembly.statements set tokens).map (·, none)).take count)
          { counter := base.toNat, log }).1.Bounded)
      ∧ (∀ measured count,
          (Progress.walk set .assemble
            (((Assembly.statements set tokens).zip (measured.starts.toList.map some)).take count)
            (restarted measured base)).1.Bounded)
      ∧ (∀ (pass : Pass) (before : Progress) (expected? : Option Nat) (statement : Statement)
          (row : Row),
          statement.emits = true
          → (before.counter < addressSpace
              → (statement.effect set pass before.symbols
                    (UInt16.ofNat before.counter)).outcome = .ok (.emit row)
                ∧ ∀ expected ∈ expected?, expected = before.counter)
          → ((before.step set pass expected? statement).2.map (·.cause) = some .addressOverflow
              ↔ 0xFFFF < before.counter ∨ 0x10000 < before.counter + row.bytes.length)
            ∧ (¬ (0xFFFF < before.counter ∨ 0x10000 < before.counter + row.bytes.length)
                → (before.step set pass expected? statement).2 = none
                  ∧ (before.step set pass expected? statement).1.counter
                    = before.counter + row.bytes.length))
      ∧ (∀ (index : Nat) (token : Token) (rest : List Token) (before after : Desk) (fault : Fault),
          (Action.statement set index token rest).run before = .error fault after
          → before.Unchanged after)
      ∧ (∀ (index : Nat) (token : Token) (rest : List Token) (desk : Desk) (progress : Progress),
          let statement := Statement.starting set token rest
          let before := desk.taking progress
          ((Action.statement set index token rest).adaptExcept (·.located token.pos)).run before
          = (before.marked index statement).reaching statement.tail.length
              (progress.step set desk.pass (before.expected? index statement) statement))
      ∧ (∀ desk : Desk,
          desk.symbols = {}
          → desk.rows = #[]
          → outcomeOf ((Action.passes set tokens base).run desk)
            = twoPass set tokens base desk.log)
      ∧ ∀ log output,
          (twoPass set tokens base log).2 = .ok output
          → (∀ statement ∈ Assembly.statements set tokens, statement.moves = false)
          → base.toNat + output.bytes.length ≤ 0x10000 := by
  have inside : base.toNat ≤ addressSpace := Nat.le_of_lt base.toNat_lt
  refine ⟨?_, ?_, ?_, ?_, ?_, ?_, ?_⟩
  · intro log count
    exact Progress.Bounded.walk ⟨inside, by simp⟩ _ _ _
  · intro measured count
    exact Progress.Bounded.walk ⟨inside, by simp [restarted]⟩ _ _ _
  · intro pass before expected? statement row emitting made
    exact Progress.step_of_emits emitting made
  · intro index token rest before after fault failed
    exact Action.unchanged_of_statement failed
  · intro index token rest desk progress
    exact Action.run_located set index token rest desk progress
  · intro desk unnamed unlisted
    exact outcomeOf_passes set tokens base desk unnamed unlisted
  · intro log output succeeded unmoved
    obtain ⟨firsts, seconds, passes, -, rfl⟩ := twoPass_eq_ok_iff.mp succeeded
    have ended := passes.assemble.finish_of_unmoved unmoved
    have bound := passes.assemble.finish_le inside
    rw [ended] at bound
    exact bound

/-- The tokens of a program with one byte. -/
def byteTokens : List Token :=
  [⟨.directive .byte, ".byte", ⟨"t", 0, 0⟩⟩, ⟨.operand .zeroPage, "$01", ⟨"t", 0, 6⟩⟩]

/-- A desk in the first pass, with nothing on it. -/
def freshDesk (counter : Nat) : Desk where
  pass := .prescan
  counter := counter
  finish := 0
  bytes := #[]
  symbols := {}
  rows := #[]
  log := {}
  starts := fun _ => none

/-- A byte fits at the last address, and behind it not even a statement without bytes. A text that
is missing is only missed after its start is put down, which changes nothing else.
-/
theorem twoPass_bounded_last
    : let byte := Statement.data .byte ⟨.directive .byte, ".byte", ⟨"t", 0, 0⟩⟩
        [⟨.operand .zeroPage, "$01", ⟨"t", 0, 6⟩⟩]
      let nothing := Statement.data .byte ⟨.directive .byte, ".byte", ⟨"t", 1, 0⟩⟩ []
      let text : Token := ⟨.directive .string, ".string", ⟨"t", 0, 0⟩⟩
      ∃ before after fault stopped output,
        Progress.walk smallSet .prescan [(byte, none)] { counter := 0xFFFF } = (before, none)
        ∧ before.counter = 0x10000
        ∧ before.Bounded
        ∧ before.step smallSet .prescan none nothing = (after, some fault)
        ∧ fault.cause = .addressOverflow
        ∧ (Action.statement smallSet 0 text []).run (freshDesk 0xC000)
          = .error ⟨.missingOperand ".string", []⟩ stopped
        ∧ stopped.starts 0 = some 0xC000
        ∧ (freshDesk 0xC000).Unchanged stopped
        ∧ outcomeOf ((Action.passes smallSet byteTokens 0xFFFF).run (freshDesk 0))
          = twoPass smallSet byteTokens 0xFFFF {}
        ∧ (twoPass smallSet byteTokens 0xFFFF {}).2 = .ok output
        ∧ output.bytes = [0x01]
        ∧ (0xFFFF : UInt16).toNat + output.bytes.length ≤ 0x10000 := by
  intro byte nothing text
  let before := (Progress.walk smallSet .prescan [(byte, none)] { counter := 0xFFFF }).1
  have evaluated : Assembly.statements smallSet byteTokens = [byte]
      ∧ (Progress.walk smallSet .prescan [(byte, none)] { counter := 0xFFFF }).2 = none
      ∧ before.counter = 0x10000
      ∧ (twoPass smallSet byteTokens 0xFFFF {}).2.toOption.map (·.bytes) = some [0x01] := by
    decide +kernel
  obtain ⟨split, walked, last, emitted⟩ := evaluated
  obtain ⟨measured, -, overflow, unchanged, -, inPlace, total⟩ :=
    twoPass_bounded smallSet byteTokens 0xFFFF
  obtain ⟨fault, stepped, cause⟩ := exists_fault_of_cause
    ((overflow .prescan before none nothing ⟨0, [], ".byte", none, nothing.pos⟩ rfl
      (fun _ => ⟨by rw [last]; rfl, by simp⟩)).1.mpr (.inl (by omega)))
  let stopped : Desk :=
    { freshDesk 0xC000 with starts := Function.update (fun _ => none) 0 (some 0xC000) }
  have missed : (Action.statement smallSet 0 text []).run (freshDesk 0xC000)
      = .error ⟨.missingOperand ".string", []⟩ stopped := rfl
  cases succeeded : (twoPass smallSet byteTokens 0xFFFF {}).2 with
  | error fault => simp [succeeded, Except.toOption] at emitted
  | ok output =>
      rw [succeeded] at emitted
      refine ⟨before, _, fault, stopped, output, Prod.ext rfl walked, last, ?_, stepped, cause,
        missed, rfl, unchanged _ _ _ _ _ _ missed, inPlace (freshDesk 0) rfl rfl, rfl,
        Option.some.inj emitted, ?_⟩
      · have state := measured {} 1
        rw [split] at state
        exact state
      · exact total {} output succeeded (by simp [split, byte, Statement.moves])

end Asm6510.Assembly
