import Asm6510.Assembly.Assembler
import Asm6510.Proofs.Assembly.Trace

/-! Both passes side by side. A run succeeds exactly when the statements have a trace in each
pass, those that stand for an address start at one address in both, and both end at one counter.
-/

namespace Asm6510.Assembly

open Machine (InstructionSet)
open Progress (Change)
open Report (Log)
open Source (Token)

/-- Statements carried out in both passes. The first pass knows `known` and stands at `measured`,
the second knows `table` throughout and stands at `emitted`.
-/
inductive Passes (set : InstructionSet) (table : Symbols)
    : Symbols → Nat → Nat → List Statement → List Change → List Change → Prop
  | nil {known : Symbols} {measured emitted : Nat}
    : Passes set table known measured emitted [] [] []
  | cons {known : Symbols} {measured emitted : Nat} {statement : Statement}
    {statements : List Statement} {first second : Change} {firsts seconds : List Change}
    (prescan : Carried set .prescan known measured statement first)
    (assemble : Carried set .assemble table emitted statement second)
    (aligned : statement.isAnchored = true → measured = emitted)
    (rest : Passes set table (known.grow first) first.counter second.counter statements firsts
      seconds)
    : Passes set table known measured emitted (statement :: statements) (first :: firsts)
        (second :: seconds)

variable {set : InstructionSet} {table known : Symbols} {measured emitted : Nat}
  {statements : List Statement} {firsts seconds : List Change}

theorem Passes.prescan
    (passes : Passes set table known measured emitted statements firsts seconds)
    : Trace set .prescan known measured statements firsts := by
  induction passes with
  | nil => exact .nil
  | cons prescan assemble aligned rest ih => exact .cons prescan ih

theorem Passes.assemble
    (passes : Passes set table known measured emitted statements firsts seconds)
    : Trace set .assemble table emitted statements seconds := by
  induction passes with
  | nil => exact .nil
  | cons prescan assemble aligned rest ih =>
      refine .cons assemble ?_
      rw [assemble.grow_assemble]
      exact ih

/-- The second pass meets the starts that the first has measured. -/
theorem Passes.met
    (passes : Passes set table known measured emitted statements firsts seconds)
    : Met (statements.zip ((starts measured firsts).map some)) (starts emitted seconds) := by
  induction passes with
  | nil => trivial
  | cons prescan assemble aligned rest ih =>
      refine ⟨?_, ih⟩
      intro anchored expected member
      obtain rfl := Option.mem_some_iff.mp member
      exact aligned anchored

/-- Two traces whose starts meet are traces of both passes.
Witness: induction on the first trace; the second has the same statements.
-/
theorem Trace.passes (prescan : Trace set .prescan known measured statements firsts)
    (assemble : Trace set .assemble table emitted statements seconds)
    (met : Met (statements.zip ((starts measured firsts).map some)) (starts emitted seconds))
    : Passes set table known measured emitted statements firsts seconds := by
  induction prescan generalizing emitted seconds with
  | nil =>
      cases assemble
      exact .nil
  | cons first rest ih =>
      cases assemble with
      | cons second others =>
          rw [second.grow_assemble] at others
          exact .cons first second (fun anchored => met.1 anchored _ rfl) (ih others met.2)

/-- What a run puts out, given the changes of its two passes. -/
def outputOf (tokens : List Token) (base : UInt16) (firsts seconds : List Change) : Output where
  origin := (Source.origin? tokens).getD base
  bytes := (rows seconds).flatMap (·.bytes)
  symbols := ⟨declarations firsts⟩
  rows := rows seconds

/-- A first pass that succeeds has a trace, and each trace is one of a first pass. -/
theorem prescan_eq_none {before after : Progress}
    (measuring : Progress.prescan before set statements = (after, none))
    : ∃ firsts,
        Trace set .prescan before.symbols before.counter statements firsts
        ∧ Reaches before firsts after := by
  obtain ⟨firsts, trace, -, reached⟩ := trace_of_walk measuring
  exact ⟨firsts, by simpa [Function.comp_def] using trace, reached⟩

theorem Trace.prescan {before : Progress}
    (trace : Trace set .prescan before.symbols before.counter statements firsts)
    : ∃ after,
        Progress.prescan before set statements = (after, none)
        ∧ Reaches before firsts after :=
  Trace.walk (by simpa [Function.comp_def] using trace) (met_unmeasured statements _)

/-- The state in which the second pass starts over. -/
def restarted (measured : Progress) (base : UInt16) : Progress :=
  { measured with counter := base.toNat, bytes := #[], rows := #[], starts := #[] }

theorem map_fst_zip_measured {before : Progress}
    (counted : before.starts.size = statements.length)
    : (statements.zip (before.starts.toList.map some)).map (·.1) = statements := by
  apply List.map_fst_zip
  simp [counted]

/-- A second pass that succeeds meets the starts and the end of the first. -/
theorem assemble_eq_none {before after : Progress} {base : UInt16}
    (counted : before.starts.size = statements.length)
    (emitting : Progress.assemble before set statements base = (after, none))
    : ∃ seconds,
        Trace set .assemble before.symbols base.toNat statements seconds
        ∧ Met (statements.zip (before.starts.toList.map some)) (starts base.toNat seconds)
        ∧ finish base.toNat seconds = before.counter
        ∧ Reaches (restarted before base) seconds after := by
  rw [Progress.assemble] at emitting
  split at emitting
  · simp at emitting
  · rename_i done walked
    split at emitting
    · rename_i ended
      obtain rfl : done = after := congrArg Prod.fst emitting
      obtain ⟨seconds, trace, met, reached⟩ := trace_of_walk walked
      rw [map_fst_zip_measured counted] at trace
      exact ⟨seconds, trace, met, reached.counter.symm.trans ended, reached⟩
    · simp at emitting

theorem Trace.assemble {before : Progress} {base : UInt16}
    (counted : before.starts.size = statements.length)
    (trace : Trace set .assemble before.symbols base.toNat statements seconds)
    (met : Met (statements.zip (before.starts.toList.map some)) (starts base.toNat seconds))
    (ended : finish base.toNat seconds = before.counter)
    : ∃ after,
        Progress.assemble before set statements base = (after, none)
        ∧ Reaches (restarted before base) seconds after := by
  rw [← map_fst_zip_measured counted] at trace
  have restart : Trace set .assemble (restarted before base).symbols
      (restarted before base).counter _ seconds := trace
  obtain ⟨after, walked, reached⟩ := restart.walk met
  have same : after.counter = before.counter := reached.counter.trans ended
  unfold restarted at walked
  refine ⟨after, ?_, reached⟩
  simp only [Progress.assemble, walked, same, if_true]

/-- A trace has as many starts as statements. -/
theorem Trace.size_starts {pass : Pass} {before : Progress}
    (trace : Trace set pass known measured statements firsts)
    (started : before.starts.toList = starts measured firsts)
    : before.starts.size = statements.length := by
  rw [← Array.length_toList, started, length_starts, trace.length_eq]

/-- What the first pass leaves to the second: its declarations, starts and end. A message
written in between changes none of them.
-/
theorem Reaches.handedOver {base : UInt16} {log note : Log} {after : Progress}
    (reached : Reaches { counter := base.toNat, log } firsts after)
    : ({ after with log := note } : Progress).symbols = ⟨declarations firsts⟩
      ∧ ({ after with log := note } : Progress).starts.toList = Assembly.starts base.toNat firsts
      ∧ ({ after with log := note } : Progress).counter = finish base.toNat firsts :=
  ⟨congrArg Symbols.mk reached.symbols, reached.starts, reached.counter⟩

/-- Both passes succeed on statements that they carry out and after which they end at one counter. A
message written in between makes no difference.
-/
theorem Passes.runs {base : UInt16} (log : Log)
    (passes : Passes set ⟨declarations firsts⟩ Symbols.empty base.toNat base.toNat statements firsts
      seconds)
    (ended : finish base.toNat firsts = finish base.toNat seconds)
    : ∃ measured,
        Progress.prescan { counter := base.toNat, log } set statements = (measured, none)
        ∧ Reaches { counter := base.toNat, log } firsts measured
        ∧ ∀ note, ∃ done,
            Progress.assemble { measured with log := note } set statements base = (done, none)
            ∧ Reaches (restarted { measured with log := note } base) seconds done := by
  have fresh : Trace set .prescan ({ counter := base.toNat, log } : Progress).symbols
      ({ counter := base.toNat, log } : Progress).counter statements firsts := passes.prescan
  obtain ⟨measured, measuring, reached⟩ := fresh.prescan
  refine ⟨measured, measuring, reached, fun note => ?_⟩
  obtain ⟨known, started, finished⟩ := @Reaches.handedOver firsts base log note measured reached
  exact Trace.assemble (fresh.size_starts started) (known.symm ▸ passes.assemble)
    (started.symm ▸ passes.met) (finished ▸ ended.symm)

/-- The output that a second pass leaves behind. -/
theorem Reaches.output (tokens : List Token) {base : UInt16} {before after : Progress}
    (table : before.symbols = ⟨declarations firsts⟩) (silent : declarations seconds = [])
    (reached : Reaches (restarted before base) seconds after)
    : outputOf tokens base firsts seconds
      = {
          origin := (Source.origin? tokens).getD base
          bytes := after.bytes.toList
          symbols := after.symbols
          rows := after.rows.toList
        } := by
  have bytes : after.bytes.toList = (Assembly.rows seconds).flatMap (·.bytes) := reached.bytes
  have listing : after.rows.toList = Assembly.rows seconds := reached.rows
  have symbols : after.symbols = ⟨declarations firsts⟩ := by
    rw [← table]
    exact congrArg Symbols.mk (by rw [reached.symbols, silent, List.append_nil]; rfl)
  rw [outputOf, bytes, listing, symbols]

/-- A run succeeds exactly when both passes do and end at one counter. -/
theorem twoPass_eq_ok_iff {tokens : List Token} {base : UInt16} {log : Log} {output : Output}
    : (twoPass set tokens base log).2 = .ok output
      ↔ ∃ firsts seconds,
          Passes set ⟨declarations firsts⟩ Symbols.empty base.toNat base.toNat
            (Assembly.statements set tokens) firsts seconds
          ∧ finish base.toNat firsts = finish base.toNat seconds
          ∧ output = outputOf tokens base firsts seconds := by
  unfold twoPass
  dsimp only
  constructor
  · intro succeeded
    split at succeeded
    · simp at succeeded
    · rename_i measured measuring
      split at succeeded
      · simp at succeeded
      · rename_i done emitting
        obtain ⟨firsts, prescan, reached⟩ := prescan_eq_none measuring
        obtain ⟨known, started, ended⟩ := reached.handedOver
        obtain ⟨seconds, assemble, met, finished, emitted⟩ :=
          assemble_eq_none (prescan.size_starts started) emitting
        have output := emitted.output tokens known assemble.declarations_assemble
        rw [known] at assemble
        rw [started] at met
        rw [ended] at finished
        exact ⟨firsts, seconds, prescan.passes assemble met, finished.symm,
          (Except.ok.inj succeeded).symm.trans output.symm⟩
  · intro found
    obtain ⟨firsts, seconds, passes, finished, rfl⟩ := found
    obtain ⟨measured, measuring, reached, emits⟩ := passes.runs log finished
    obtain ⟨known, -, -⟩ := reached.handedOver
    obtain ⟨done, emitting, emitted⟩ :=
      emits (measured.log.push (.info (Text.decimal measured.symbols.size ++ " symbols")))
    simp only [measuring, emitting]
    rw [emitted.output tokens known passes.assemble.declarations_assemble]

/-- A source that can be expanded is run on its tokens. -/
theorem runSource_of_expand {assembler : Assembler} {file code : String} {tokens : List Token}
    (expanded : (Source.expand assembler.library assembler.root file code).outcome = .ok tokens)
    (base : UInt16)
    : ∃ opening, (assembler.runSource file code base).2
        = (twoPass assembler.set tokens base opening).2 := by
  simp only [Assembler.runSource, expanded]
  exact ⟨_, rfl⟩

/-- A source that is assembled has been expanded, and its tokens are assembled. -/
theorem expand_of_runSource {assembler : Assembler} {file code : String} {base : UInt16}
    {output : Output} (succeeded : (assembler.runSource file code base).2 = .ok output)
    : ∃ tokens log,
        (Source.expand assembler.library assembler.root file code).outcome = .ok tokens
        ∧ (twoPass assembler.set tokens base log).2 = .ok output := by
  cases expanded : (Source.expand assembler.library assembler.root file code).outcome with
  | error fault => simp [Assembler.runSource, expanded] at succeeded
  | ok tokens =>
      obtain ⟨log, same⟩ := runSource_of_expand expanded base
      exact ⟨tokens, log, rfl, same ▸ succeeded⟩

/-- A set with a jump, a branch and a load in two widths, enough for small programs. -/
def smallSet : InstructionSet :=
  let jumping := ((InstructionSet.empty.register "JMP" "Jump").1.bind "JMP" .absolute 0x4C).1
  let branching := ((jumping.register "BNE" "Branch").1.bind "BNE" .relative 0xD0).1
  let loading := ((branching.register "LDA" "Load").1.bind "LDA" .zeroPage 0xA5).1
  (loading.bind "LDA" .absolute 0xAD).1

/-- An assembler with the small set, which can load nothing. -/
def smallAssembler : Assembler where
  set := smallSet
  library := Source.Library.ofFiles []

/-- The tokens of a program that jumps ahead to a branch to itself. -/
def loopTokens : List Token :=
  [⟨.ident, "JMP", ⟨"t", 0, 0⟩⟩, ⟨.ident, "loop", ⟨"t", 0, 4⟩⟩,
    ⟨.label "loop", "loop:", ⟨"t", 0, 9⟩⟩,
    ⟨.ident, "BNE", ⟨"t", 0, 15⟩⟩, ⟨.ident, "loop", ⟨"t", 0, 19⟩⟩]

/-- A result that has a value is that value. -/
theorem eq_ok_of_toOption {ε α : Type} {result : Except ε α} {a : α}
    (found : result.toOption = some a)
    : result = .ok a := by
  cases result with
  | error e => cases found
  | ok b => exact congrArg Except.ok (Option.some.inj found)

theorem expand_loop
    : (Source.expand smallAssembler.library smallAssembler.root "t"
        "JMP loop loop: BNE loop").outcome = .ok loopTokens := by
  apply eq_ok_of_toOption
  decide +kernel

end Asm6510.Assembly
