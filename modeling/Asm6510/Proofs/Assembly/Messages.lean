import Asm6510.Proofs.Assembly.Trace

/-! The levels of messages. What a statement does at an address is told in details only, so that any
other message is about the change that the statement makes.
-/

namespace Asm6510.Assembly

open Machine (Instruction InstructionSet)
open Progress (Change)
open Report (Level Log Message)
open Source (Position Token)

/-- The messages of a level among some messages. -/
def ofLevel (level : Level) (messages : List Message) : List Message :=
  messages.filter (·.level == level)

variable {level : Level} {set : InstructionSet} {pass : Pass} {symbols : Symbols} {here : UInt16}
  {before after : Progress}

@[simp]
theorem ofLevel_append (messages others : List Message)
    : ofLevel level (messages ++ others) = ofLevel level messages ++ ofLevel level others :=
  List.filter_append ..

namespace Logged

variable {α β : Type}

/-- A computation without messages of a level, however it ends. -/
def Quiet (level : Level) (x : Logged α) : Prop :=
  ofLevel level x.messages = []

theorem quiet_pure (a : α)
    : (pure a : Logged α).Quiet level :=
  rfl

theorem quiet_stop (cause : Cause)
    : (stop cause : Logged α).Quiet level :=
  rfl

theorem quiet_fail (fault : Fault)
    : (fail fault : Logged α).Quiet level :=
  rfl

theorem quiet_ofExcept (result : Except Cause α)
    : (ofExcept result).Quiet level :=
  rfl

theorem quiet_note {message : Message} (other : message.level ≠ level)
    : (note message).Quiet level := by
  simpa [Quiet, ofLevel, note] using other

theorem Quiet.located {x : Logged α} (quiet : x.Quiet level) (pos : Position)
    : (x.located pos).Quiet level :=
  quiet

/-- What comes second matters only for the values that the first can have. -/
theorem Quiet.bind {x : Logged α} {f : α → Logged β} (quiet : x.Quiet level)
    (after : ∀ a, x.outcome = .ok a → (f a).Quiet level)
    : (x >>= f).Quiet level := by
  unfold Quiet at quiet after ⊢
  rw [messages_bind, ofLevel_append, quiet]
  cases found : x.result with
  | ok a => exact after a (outcome_eq_ok.mpr found)
  | error fault => rfl

end Logged

open Logged

-----------------------------------------------------------------------------------------
-- Effects are told in details
-----------------------------------------------------------------------------------------

theorem quiet_diag (higher : level ≠ .diag) (text : String) (pos : Position)
    : (note (.diag text pos)).Quiet level :=
  quiet_note higher.symm

theorem quiet_resolve (higher : level ≠ .diag) (instruction : Instruction) (operand : Token)
    : (resolve set pass symbols here instruction operand).Quiet level := by
  unfold resolve
  split
  · exact quiet_pure _
  · split
    · exact quiet_stop _
    · split
      · exact quiet_ofExcept _
      · exact quiet_stop _
      · exact (quiet_diag higher _ _).bind fun _ _ => quiet_pure _

theorem quiet_operate (higher : level ≠ .diag) (token operand : Token) (instruction : Instruction)
    : (operate set pass symbols here token instruction operand).Quiet level := by
  have text : (operandText set pass symbols here instruction operand).Quiet level := by
    refine (quiet_resolve higher instruction operand).bind fun text _ => ?_
    split
    · exact quiet_ofExcept _
    · exact quiet_pure _
  refine (text.located operand.pos).bind fun text _ => ?_
  split
  · exact quiet_fail _
  · exact (quiet_diag higher _ _).bind fun _ _ => quiet_pure _

theorem quiet_required (token : Token) (operand? : Option Token)
    : (required token operand?).Quiet level := by
  cases operand? with
  | none => exact quiet_stop _
  | some operand => exact quiet_pure _

/-- Nothing but details is told while the effect of a statement is found. -/
theorem quiet_effect (higher : level ≠ .diag) (statement : Statement)
    : (statement.effect set pass symbols here).Quiet level := by
  cases statement with
  | data | label | implied | stray => exact quiet_pure _
  | origin directive operand? =>
      refine (quiet_required directive operand?).bind fun operand _ => ?_
      split
      · exact (quiet_diag higher _ _).bind fun _ _ => quiet_pure _
      · exact quiet_stop _
  | string directive operand? =>
      refine (quiet_required directive operand?).bind fun operand _ => ?_
      split
      · exact quiet_pure _
      · exact quiet_fail _
  | assign token name value? => exact (quiet_required token value?).bind fun _ _ => quiet_pure _
  | operate token instruction operand? =>
      refine (quiet_required token operand?).bind fun operand _ => ?_
      exact (quiet_operate higher token operand instruction).bind fun _ _ => quiet_pure _

/-- A change is told in details, a token that is ignored and a name that is taken apart. -/
theorem quiet_change {effect : Effect} {statement : Statement} (higher : level ≠ .diag)
    (heeded : effect = .ignore → level ≠ .warn)
    (fresh : ∀ name symbol,
      effect = .declare name symbol
      → pass = .prescan
      → before.symbols.pos? name = none ∨ level ≠ .error)
    : (before.change pass statement effect).Quiet level := by
  cases effect with
  | moveTo address => exact quiet_pure _
  | emit row => exact quiet_ofExcept _
  | ignore =>
      cases pass with
      | assemble => exact quiet_pure _
      | prescan => exact (quiet_note (heeded rfl).symm).bind fun _ _ => quiet_pure _
  | declare name symbol =>
      cases pass with
      | assemble => exact quiet_pure _
      | prescan =>
          unfold Progress.change Progress.declare
          dsimp only
          split
          · rename_i first taken
            have lower : level ≠ .error :=
              (fresh name symbol rfl rfl).resolve_left (by simp [taken])
            exact (quiet_note lower.symm).bind fun _ _ => quiet_stop _
          · refine Quiet.bind ?_ fun _ _ => quiet_pure _
            cases symbol <;> exact quiet_diag higher _ _

-----------------------------------------------------------------------------------------
-- Passes
-----------------------------------------------------------------------------------------

/-- A pass that succeeds tells what its statements tell one by one, in their order.
Witness: induction on the statements.
-/
theorem ofLevel_walk (told : Statement → List Message)
    (each : ∀ (progress : Progress) expected? statement messages change,
      progress.attempt set pass expected? statement = ⟨messages, .ok change⟩
      → ofLevel level messages = told statement)
    {items : List (Statement × Option Nat)}
    (walked : Progress.walk set pass items before = (after, none))
    : ofLevel level after.log.messages.toList
      = ofLevel level before.log.messages.toList ++ (items.map (·.1)).flatMap told := by
  induction items generalizing before with
  | nil =>
      obtain rfl : before = after := congrArg Prod.fst walked
      simp
  | cons item items ih =>
      obtain ⟨statement, expected?⟩ := item
      rw [Progress.walk] at walked
      split at walked
      · rename_i next stepped
        obtain ⟨change, messages, -, -, attempted, rfl⟩ := step_eq_none_iff.mp stepped
        rw [ih walked, List.map_cons, List.flatMap_cons, ← each _ _ _ _ _ attempted]
        simp [Progress.noting, Progress.advance, Log.append]
      · cases walked

end Asm6510.Assembly
