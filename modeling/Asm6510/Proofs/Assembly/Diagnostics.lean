import Asm6510.Proofs.Assembly.Failures
import Asm6510.Proofs.Assembly.Statements
import Asm6510.Proofs.Source.Places

/-! Where diagnostics point. Every place in the log of a run, and the place of its fault, is that of
a token in the sources that the run has read. A fault has at most one place, and has none only where
both passes come to their ends and find them apart.
-/

namespace Asm6510

open Source (Position Token)

/-- A message that is about no place, or about one of which `holds` holds. -/
def Report.Message.Points (holds : Position → Prop) (message : Report.Message) : Prop :=
  ∀ pos ∈ message.pos?, holds pos

/-- A log of such messages. -/
def Report.Log.Points (holds : Position → Prop) (log : Report.Log) : Prop :=
  ∀ message ∈ log.messages.toList, message.Points holds

namespace Fault

variable {holds : Position → Prop} {fault : Fault} {pos : Position}

/-- A fault with no place yet, or with one of which `holds` holds. -/
def Points (holds : Position → Prop) (fault : Fault) : Prop :=
  fault.trail = [] ∨ fault.PlacedAt holds

/-- A fault that is given a place has one place, its own if it had one. -/
theorem Points.located (points : fault.Points holds) (held : holds pos)
    : (fault.located pos).PlacedAt holds := by
  rcases points with unplaced | ⟨place, placed, held'⟩
  · exact ⟨pos, by simp [Fault.located, unplaced], held⟩
  · exact ⟨place, by simp [Fault.located, placed], held'⟩

/-- A fault with one place shows that place. -/
theorem PlacedAt.pos? (placed : fault.PlacedAt holds)
    : fault.pos? ≠ none ∧ fault.trail.length ≤ 1 ∧ ∀ pos ∈ fault.pos?, holds pos := by
  obtain ⟨place, trail, held⟩ := placed
  simp [Fault.pos?, trail, held]

theorem points_placed (cause : Cause) (held : holds pos)
    : (placed cause pos).Points holds :=
  .inr ⟨pos, rfl, held⟩

end Fault

namespace Assembly

open Machine (Instruction InstructionSet)
open Operand
open Progress (Change)
open Report (Log Message)

namespace Logged

variable {holds : Position → Prop} {α β : Type}

/-- A computation whose messages and fault are about no place, or about one of which `holds` holds.
-/
structure Points (holds : Position → Prop) (x : Logged α) : Prop where
  messages : ∀ message ∈ x.messages, message.Points holds
  fault : ∀ fault, x.result = .error fault → fault.Points holds

theorem points_pure (a : α)
    : (pure a : Logged α).Points holds :=
  ⟨by simp, by simp⟩

theorem points_fail {fault : Fault} (points : fault.Points holds)
    : (fail fault : Logged α).Points holds :=
  ⟨by simp [fail], fun _ failed => Except.error.inj failed ▸ points⟩

theorem points_stop (cause : Cause)
    : (stop cause : Logged α).Points holds :=
  points_fail (.inl rfl)

theorem points_ofExcept (result : Except Cause α)
    : (ofExcept result).Points holds := by
  cases result with
  | ok a => exact points_pure a
  | error cause => exact points_stop cause

theorem points_note {message : Message} (points : message.Points holds)
    : (note message).Points holds :=
  ⟨by simpa [note] using points, by simp [note]⟩

theorem Points.located {x : Logged α} (points : x.Points holds) {pos : Position} (held : holds pos)
    : (x.located pos).Points holds := by
  refine ⟨points.messages, fun fault failed => ?_⟩
  cases found : x.result with
  | ok a => simp [Logged.located, found, Except.mapError] at failed
  | error inner =>
      have same : inner.located pos = fault := by
        simpa [Logged.located, found, Except.mapError] using failed
      rw [← same]
      exact .inr ((points.fault inner found).located held)

/-- What comes second matters only for the values that the first can have. -/
theorem Points.bind {x : Logged α} {f : α → Logged β} (points : x.Points holds)
    (after : ∀ a, x.result = .ok a → (f a).Points holds)
    : (x >>= f).Points holds := by
  cases found : x.result with
  | ok a =>
      have second := after a found
      refine ⟨fun message member => ?_, fun fault failed => second.fault fault ?_⟩
      · rw [messages_bind, found] at member
        rcases List.mem_append.mp member with early | late
        · exact points.messages message early
        · exact second.messages message late
      · rwa [result_bind, found] at failed
  | error fault =>
      have stopped : (x >>= f) = ⟨x.messages, .error fault⟩ := by simp [Bind.bind, found]
      rw [stopped]
      refine ⟨points.messages, fun other failed => ?_⟩
      obtain rfl := Except.error.inj failed
      exact points.fault fault found

end Logged

open Logged

variable {holds : Position → Prop} {set : InstructionSet} {pass : Pass} {symbols : Symbols}
  {here : UInt16} {statement : Statement} {statements : List Statement}
  {items : List (Statement × Option Nat)} {expected? : Option Nat} {change : Change}
  {before after : Progress} {fault? : Option Fault}

-----------------------------------------------------------------------------------------
-- Statements
-----------------------------------------------------------------------------------------

theorem points_diag (text : String) {pos : Position} (held : holds pos)
    : (note (.diag text pos)).Points holds :=
  points_note fun _ same => Option.mem_some_iff.mp same ▸ held

theorem points_resolve {operand : Token} (instruction : Instruction) (held : holds operand.pos)
    : (resolve set pass symbols here instruction operand).Points holds := by
  unfold resolve
  split
  · exact points_pure _
  · split
    · exact points_stop _
    · split
      · exact points_ofExcept _
      · exact points_stop _
      · exact (points_diag _ held).bind fun _ _ => points_pure _

theorem points_operate {token operand : Token} (instruction : Instruction) (first : holds token.pos)
    (second : holds operand.pos)
    : (operate set pass symbols here token instruction operand).Points holds := by
  have text : (operandText set pass symbols here instruction operand).Points holds := by
    refine (points_resolve instruction second).bind fun text _ => ?_
    split
    · exact points_ofExcept _
    · exact points_pure _
  refine (text.located second).bind fun text _ => ?_
  split
  · exact points_fail (Fault.points_placed _ second)
  · exact (points_diag _ first).bind fun _ _ => points_pure _

theorem points_required (token : Token) (operand? : Option Token)
    : (required token operand?).Points holds := by
  cases operand? with
  | none => exact points_stop _
  | some operand => exact points_pure operand

theorem mem_of_required {token operand : Token} {operand? : Option Token}
    (found : (required token operand?).result = .ok operand)
    : operand ∈ operand?.toList := by
  cases operand? with
  | none => cases found
  | some other => exact Except.ok.inj found ▸ List.mem_singleton_self other

/-- Finding the effect of a statement points at the tokens of the statement. -/
theorem points_effect (inside : ∀ token ∈ statement.tokens, holds token.pos)
    : (statement.effect set pass symbols here).Points holds := by
  have first : holds statement.head.pos := inside _ (.head _)
  cases statement with
  | data | label | implied | stray => exact points_pure _
  | origin directive operand? =>
      refine (points_required directive operand?).bind fun operand _ => ?_
      split
      · exact (points_diag _ first).bind fun _ _ => points_pure _
      · exact points_stop _
  | string directive operand? =>
      refine (points_required directive operand?).bind fun operand found => ?_
      have second : holds operand.pos := inside operand (.tail _ (mem_of_required found))
      split
      · exact points_pure _
      · exact points_fail (Fault.points_placed _ second)
  | assign token name value? =>
      exact (points_required token value?).bind fun _ _ => points_pure _
  | operate token instruction operand? =>
      refine (points_required token operand?).bind fun operand found => ?_
      have second : holds operand.pos := inside operand (.tail _ (mem_of_required found))
      exact (points_operate instruction first second).bind fun _ _ => points_pure _

-----------------------------------------------------------------------------------------
-- Passes
-----------------------------------------------------------------------------------------

/-- A state whose messages and declarations are at places of which `holds` holds. -/
structure Progress.Points (holds : Position → Prop) (progress : Progress) : Prop where
  log : progress.log.Points holds
  declarations : ∀ declaration ∈ progress.symbols.declarations, holds declaration.pos

/-- A change points at its statement, and at the declaration of a name that is taken. -/
theorem points_change (effect : Effect) (points : before.Points holds)
    (held : holds statement.pos)
    : (before.change pass statement effect).Points holds := by
  cases effect with
  | moveTo address => exact points_pure _
  | emit row => exact points_ofExcept _
  | ignore =>
      cases pass with
      | assemble => exact points_pure _
      | prescan =>
          refine (points_note fun pos same => ?_).bind fun _ _ => points_pure _
          exact Option.mem_some_iff.mp same ▸ held
  | declare name symbol =>
      cases pass with
      | assemble => exact points_pure _
      | prescan =>
          unfold Progress.change Progress.declare
          dsimp only
          split
          · rename_i first taken
            obtain ⟨declaration, found, rfl⟩ := Option.map_eq_some_iff.mp taken
            have declared := points.declarations _ (List.mem_of_find?_eq_some found)
            refine (points_note fun pos same => ?_).bind fun _ _ => points_stop _
            exact Option.mem_some_iff.mp same ▸ declared
          · refine Points.bind ?_ fun _ _ => points_pure _
            cases symbol <;> exact points_diag _ held

theorem points_attempt (points : before.Points holds)
    (inside : ∀ token ∈ statement.tokens, holds token.pos)
    : (before.attempt set pass expected? statement).Points holds := by
  refine (points_ofExcept _).bind fun _ _ => ?_
  refine (points_effect inside).bind fun effect _ => ?_
  exact points_change effect points (inside _ (.head _))

theorem Carried.pos_of_mem {counter : Nat}
    (carried : Carried set pass symbols counter statement change)
    : ∀ declaration ∈ change.declaration?, declaration.pos = statement.pos := by
  intro declaration declared
  cases carried with
  | move | emit | stray => cases declared
  | label | assign =>
      cases pass with
      | assemble => cases declared
      | prescan => exact Option.mem_some_iff.mp declared ▸ rfl

theorem Progress.Points.noting (points : before.Points holds) {messages : List Message}
    (noted : ∀ message ∈ messages, message.Points holds)
    : (before.noting messages).Points holds := by
  refine ⟨fun message member => ?_, points.declarations⟩
  simp only [Progress.noting, Log.append, Array.appendList_eq_append, Array.toList_appendList]
    at member
  rcases List.mem_append.mp member with early | late
  · exact points.log message early
  · exact noted message late

theorem Progress.Points.advance (points : before.Points holds)
    (declared : ∀ declaration ∈ change.declaration?, holds declaration.pos)
    : (before.advance change).Points holds := by
  refine ⟨points.log, ?_⟩
  cases found : change.declaration? with
  | none =>
      simp only [Progress.advance, found]
      exact points.declarations
  | some declaration =>
      simp only [Progress.advance, found, Symbols.push]
      intro other member
      rcases List.mem_append.mp member with early | late
      · exact points.declarations other early
      · rw [List.mem_singleton.mp late]
        exact declared declaration found

/-- Carrying out a statement points at its tokens, and a statement that fails has one place. -/
theorem points_step (points : before.Points holds)
    (inside : ∀ token ∈ statement.tokens, holds token.pos)
    (stepped : before.step set pass expected? statement = (after, fault?))
    : after.Points holds ∧ ∀ fault ∈ fault?, fault.PlacedAt holds := by
  have held : holds statement.pos := inside _ (.head _)
  have attempted : (before.attempt set pass expected? statement).Points holds :=
    points_attempt points inside
  cases fault? with
  | none =>
      obtain ⟨change, messages, carried, -, found, rfl⟩ := step_eq_none_iff.mp stepped
      rw [found] at attempted
      have declared : ∀ declaration ∈ change.declaration?, holds declaration.pos :=
        fun declaration member => carried.pos_of_mem declaration member ▸ held
      exact ⟨(points.advance declared).noting attempted.messages, by simp⟩
  | some fault =>
      unfold Progress.step at stepped
      split at stepped
      · cases stepped
      · rename_i messages found failed
        obtain ⟨rfl, same⟩ := Prod.mk.inj stepped
        rw [failed] at attempted
        refine ⟨points.noting attempted.messages, fun other member => ?_⟩
        obtain rfl := Option.mem_some_iff.mp (same ▸ member)
        exact (attempted.fault found rfl).located held

/-- A pass points at the tokens of its statements.
Witness: induction on the statements.
-/
theorem points_walk (points : before.Points holds)
    (inside : ∀ item ∈ items, ∀ token ∈ item.1.tokens, holds token.pos)
    (walked : Progress.walk set pass items before = (after, fault?))
    : after.Points holds ∧ ∀ fault ∈ fault?, fault.PlacedAt holds := by
  induction items generalizing before with
  | nil =>
      obtain ⟨rfl, rfl⟩ := Prod.mk.inj walked
      exact ⟨points, by simp⟩
  | cons item items ih =>
      obtain ⟨statement, expected?⟩ := item
      rw [Progress.walk] at walked
      split at walked
      · rename_i next stepped
        have reached := (points_step points (inside _ (.head _)) stepped).1
        exact ih reached (fun item member => inside item (.tail _ member)) walked
      · rename_i next fault stepped
        obtain ⟨rfl, rfl⟩ := Prod.mk.inj walked
        exact points_step points (inside _ (.head _)) stepped

-----------------------------------------------------------------------------------------
-- Ends that are apart
-----------------------------------------------------------------------------------------

/-- Both passes from `base` carry out all statements, and end at different counters. -/
def EndsApart (set : InstructionSet) (base : UInt16) (statements : List Statement)
    (expected found : Nat) : Prop :=
  ∃ firsts seconds,
    Passes set ⟨declarations firsts⟩ Symbols.empty base.toNat base.toNat statements firsts seconds
    ∧ finish base.toNat firsts = expected
    ∧ finish base.toNat seconds = found
    ∧ expected ≠ found

variable {tokens : List Token} {base : UInt16} {log note : Log} {expected found : Nat}
  {measured done : Progress}

/-- A second pass walks the statements as the first has measured them. Its fault is that of the
walk, or that of an end which is not the measured one.
-/
theorem assemble_cases
    (emitting : Progress.assemble measured set statements base = (done, fault?))
    : Progress.walk set .assemble (statements.zip (measured.starts.toList.map some))
          (restarted measured base) = (done, fault?)
      ∨ Progress.walk set .assemble (statements.zip (measured.starts.toList.map some))
            (restarted measured base) = (done, none)
        ∧ measured.counter ≠ done.counter
        ∧ fault? = some ⟨.addressDrift measured.counter done.counter, []⟩ := by
  rw [Progress.assemble] at emitting
  split at emitting
  · rename_i walked
    exact .inl (walked.trans emitting)
  · rename_i walked
    split at emitting
    · exact .inl (walked.trans emitting)
    · rename_i differs
      obtain ⟨rfl, rfl⟩ := Prod.mk.inj emitting
      exact .inr ⟨walked, Ne.symm differs, rfl⟩

/-- A walk to the end in each pass is one of both passes side by side. -/
theorem endsApart_of_walk
    (measuring : Progress.prescan { counter := base.toNat, log } set statements = (measured, none))
    (walked : Progress.walk set .assemble (statements.zip (measured.starts.toList.map some))
      (restarted { measured with log := note } base) = (done, none))
    (differs : measured.counter ≠ done.counter)
    : EndsApart set base statements measured.counter done.counter := by
  obtain ⟨firsts, prescan, reached⟩ := prescan_eq_none measuring
  obtain ⟨known, started, ended⟩ := @Reaches.handedOver firsts base log note measured reached
  obtain ⟨seconds, assemble, met, emitted⟩ := trace_of_walk walked
  rw [map_fst_zip_measured (prescan.size_starts started)] at assemble
  have table : (restarted { measured with log := note } base).symbols = ⟨declarations firsts⟩ :=
    known
  have listed : measured.starts.toList = starts base.toNat firsts := started
  rw [table] at assemble
  rw [listed] at met
  exact ⟨firsts, seconds, prescan.passes assemble met, ended.symm, emitted.counter.symm, differs⟩

/-- Where the ends are apart, the run stops with a fault that has no place. -/
theorem EndsApart.twoPass_eq
    (apart : EndsApart set base (Assembly.statements set tokens) expected found) (log : Log)
    : (twoPass set tokens base log).2 = .error ⟨.addressDrift expected found, []⟩ := by
  obtain ⟨firsts, seconds, passes, rfl, rfl, differs⟩ := apart
  have fresh : Trace set .prescan ({ counter := base.toNat, log } : Progress).symbols
      ({ counter := base.toNat, log } : Progress).counter _ firsts := passes.prescan
  obtain ⟨measured, measuring, reached⟩ := fresh.prescan
  let note := measured.log.push (.info (Text.decimal measured.symbols.size ++ " symbols"))
  obtain ⟨known, started, ended⟩ := @Reaches.handedOver firsts base log note measured reached
  have second : Trace set .assemble (restarted { measured with log := note } base).symbols
      base.toNat
      (((Assembly.statements set tokens).zip (measured.starts.toList.map some)).map (·.1))
      seconds := by
    rw [map_fst_zip_measured (fresh.size_starts started)]
    exact known.symm ▸ passes.assemble
  obtain ⟨done, walked, emitted⟩ := second.walk (started.symm ▸ passes.met)
  have ended' : done.counter = finish base.toNat seconds := emitted.counter
  have measured' : measured.counter = finish base.toNat firsts := ended
  unfold restarted at walked
  simp only [twoPass, measuring, Progress.assemble, note, walked, measured', ended']
  rw [if_neg (Ne.symm differs)]

-----------------------------------------------------------------------------------------
-- Runs
-----------------------------------------------------------------------------------------

/-- A remark on the whole run is about no place. -/
theorem points_push (points : log.Points holds) (text : String)
    : (log.push (.info text)).Points holds := by
  intro message member
  rw [Log.push, Array.toList_push] at member
  rcases List.mem_append.mp member with early | late
  · exact points message early
  · rw [List.mem_singleton.mp late]
    exact fun pos impossible => nomatch impossible

theorem points_prescan (start : before.Points holds)
    (inside : ∀ statement ∈ statements, ∀ token ∈ statement.tokens, holds token.pos)
    (measuring : Progress.prescan before set statements = (measured, fault?))
    : measured.Points holds ∧ ∀ fault ∈ fault?, fault.PlacedAt holds :=
  points_walk start (by simpa using inside) measuring

/-- A second pass points at the tokens of its statements. Its fault has one place, or has none at an
end that is not the measured one.
-/
theorem points_assemble (start : measured.Points holds)
    (inside : ∀ statement ∈ statements, ∀ token ∈ statement.tokens, holds token.pos)
    (emitting : Progress.assemble measured set statements base = (done, fault?))
    : done.Points holds
      ∧ ∀ fault ∈ fault?,
          fault.PlacedAt holds
          ∨ Progress.walk set .assemble (statements.zip (measured.starts.toList.map some))
                (restarted measured base) = (done, none)
            ∧ measured.counter ≠ done.counter
            ∧ fault = ⟨.addressDrift measured.counter done.counter, []⟩ := by
  have again : (restarted measured base).Points holds := ⟨start.log, start.declarations⟩
  have zipped : ∀ item ∈ statements.zip (measured.starts.toList.map some),
      ∀ token ∈ item.1.tokens, holds token.pos :=
    fun item member => inside item.1 (List.of_mem_zip member).1
  rcases assemble_cases emitting with walked | ⟨walked, differs, rfl⟩
  · obtain ⟨points, placed⟩ := points_walk again zipped walked
    exact ⟨points, fun fault member => .inl (placed fault member)⟩
  · obtain ⟨points, -⟩ := points_walk again zipped walked
    refine ⟨points, fun fault member => .inr ⟨walked, differs, ?_⟩⟩
    exact (Option.mem_some_iff.mp member).symm

/-- A run points at its tokens, and its fault has one place unless the ends of its passes are apart.
-/
theorem points_twoPass (set : InstructionSet) (base : UInt16)
    (inside : ∀ token ∈ tokens, holds token.pos)
    (noted : log.Points holds)
    : (twoPass set tokens base log).1.Points holds
      ∧ ∀ fault,
          (twoPass set tokens base log).2 = .error fault
          → fault.PlacedAt holds
            ∨ ∃ expected found,
                EndsApart set base (Assembly.statements set tokens) expected found
                ∧ fault = ⟨.addressDrift expected found, []⟩ := by
  have covered : ∀ statement ∈ Assembly.statements set tokens,
      ∀ token ∈ statement.tokens, holds token.pos :=
    fun statement member token found => inside token (mem_of_mem_statements member found)
  have start : ({ counter := base.toNat, log } : Progress).Points holds := ⟨noted, by simp⟩
  unfold twoPass
  dsimp only
  split
  · rename_i stopped fault measuring
    obtain ⟨points, placed⟩ := points_prescan start covered measuring
    refine ⟨points.log, fun other failed => ?_⟩
    obtain rfl := Except.error.inj failed
    exact .inl (placed _ rfl)
  · rename_i measured measuring
    obtain ⟨points, -⟩ := points_prescan start covered measuring
    have noting : ({ measured with
        log := measured.log.push (.info (Text.decimal measured.symbols.size ++ " symbols")) }
        : Progress).Points holds :=
      ⟨points_push points.log _, points.declarations⟩
    split
    · rename_i done fault emitting
      obtain ⟨points, placed⟩ := points_assemble noting covered emitting
      refine ⟨points.log, fun other failed => ?_⟩
      obtain rfl := Except.error.inj failed
      rcases placed _ rfl with placed | ⟨walked, differs, same⟩
      · exact .inl placed
      · exact .inr ⟨_, _, endsApart_of_walk measuring walked differs, same⟩
    · rename_i done emitting
      obtain ⟨points, -⟩ := points_assemble noting covered emitting
      exact ⟨points_push points.log _, by simp⟩

/-- Every diagnostic points at real source. The fault of a run has at most one place, and none
exactly where both passes come to their ends and find them apart. Its place, and those in the log of
the run, are places of tokens in the sources that the run has read.
-/
theorem runSource_points {assembler after : Assembler} {file code : String} {base : UInt16}
    {outcome : Except Fault Output}
    (ran : assembler.runSource file code base = (after, outcome))
    : (∀ fault,
        outcome = .error fault
        → (fault.pos? = none
            ↔ ∃ tokens expected found,
                (Source.expand assembler.library assembler.root file code).outcome = .ok tokens
                ∧ EndsApart assembler.set base (Assembly.statements assembler.set tokens) expected
                    found
                ∧ fault.cause = .addressDrift expected found)
          ∧ fault.trail.length ≤ 1
          ∧ ∀ pos ∈ fault.pos?, after.sources.Shows pos)
      ∧ ∀ message ∈ after.log.messages.toList, ∀ pos ∈ message.pos?, after.sources.Shows pos := by
  have placed := Source.placed_expand assembler.library assembler.root file code
  unfold Assembler.runSource at ran
  dsimp only at ran
  split at ran
  · rename_i fault stopped
    obtain ⟨rfl, rfl⟩ := Prod.mk.inj ran
    refine ⟨fun other failed => ?_, by simp [Log.empty]⟩
    obtain rfl := Except.error.inj failed
    obtain ⟨somewhere, single, shown⟩ := (placed.fault _ stopped).pos?
    refine ⟨⟨fun nowhere => absurd nowhere somewhere, ?_⟩, single, shown⟩
    rintro ⟨tokens, _, _, expanded, -⟩
    cases stopped.symm.trans expanded
  · rename_i tokens expanded
    obtain ⟨rfl, rfl⟩ := Prod.mk.inj ran
    have silent : Log.empty.Points
        (Source.expand assembler.library assembler.root file code).sources.Shows := by
      simp [Log.Points, Log.empty]
    obtain ⟨messages, faults⟩ := points_twoPass assembler.set base (placed.tokens tokens expanded)
      (points_push silent _)
    refine ⟨fun fault failed => ?_, messages⟩
    rcases faults fault failed with located | ⟨expected, found, apart, rfl⟩
    · obtain ⟨somewhere, single, shown⟩ := located.pos?
      refine ⟨⟨fun nowhere => absurd nowhere somewhere, ?_⟩, single, shown⟩
      rintro ⟨others, expected, found, again, apart, -⟩
      obtain rfl := Except.ok.inj (expanded.symm.trans again)
      -- Where the ends are apart there is no place, so that the fault would be another one.
      obtain rfl := Except.error.inj (failed.symm.trans (apart.twoPass_eq _))
      exact absurd rfl somewhere
    · refine ⟨iff_of_true rfl ⟨tokens, expected, found, expanded, apart, rfl⟩, by simp, ?_⟩
      simp [Fault.pos?]

/-- An assembler with the small set, which can load a file with a jump to nowhere. -/
def partAssembler : Assembler where
  set := smallSet
  library := Source.Library.ofFiles [(⟨"part"⟩, "; one jump\n§ JMP lost\n")]
  root := ⟨""⟩

theorem exists_after {assembler : Assembler} {file code : String} {base : UInt16}
    {outcome : Except Fault Output} (ended : (assembler.runSource file code base).2 = outcome)
    : ∃ after, assembler.runSource file code base = (after, outcome) :=
  ⟨_, Prod.ext rfl ended⟩

/-- A name without a meaning is shown in the included file, behind a sign of two bytes. A load that
is emitted shorter than it was measured, with nothing behind it that stands for an address, is shown
nowhere.
-/
theorem runSource_points_lost
    : (∃ after,
        partAssembler.runSource "main" "top: .include \"part\"" 0x1000
          = (after, .error (Fault.placed (.unresolvedReference "lost") ⟨"part", 1, 7⟩))
        ∧ after.sources.Shows ⟨"part", 1, 7⟩)
      ∧ ∃ after tokens,
          partAssembler.runSource "main" "LDA zp zp = $10" 0x1000
            = (after, .error ⟨.addressDrift 0x1003 0x1002, []⟩)
          ∧ EndsApart smallSet 0x1000 (Assembly.statements smallSet tokens) 0x1003 0x1002 := by
  have evaluated : (partAssembler.runSource "main" "top: .include \"part\"" 0x1000).2
        = .error (Fault.placed (.unresolvedReference "lost") ⟨"part", 1, 7⟩)
      ∧ (partAssembler.runSource "main" "LDA zp zp = $10" 0x1000).2
        = .error ⟨.addressDrift 0x1003 0x1002, []⟩ := by
    decide +kernel
  obtain ⟨after, ran⟩ := exists_after evaluated.1
  obtain ⟨after', ran'⟩ := exists_after evaluated.2
  obtain ⟨-, -, shown⟩ := (runSource_points ran).1 _ rfl
  obtain ⟨unplaced, -⟩ := (runSource_points ran').1 _ rfl
  obtain ⟨tokens, expected, found, -, apart, same⟩ := unplaced.mp rfl
  obtain ⟨rfl, rfl⟩ := Cause.addressDrift.inj same
  exact ⟨⟨after, ran, shown _ rfl⟩, after', tokens, ran', apart⟩

end Assembly

end Asm6510
