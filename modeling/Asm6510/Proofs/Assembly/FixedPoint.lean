import Asm6510.Proofs.Assembly.Measuring
import Asm6510.Proofs.Assembly.Statements

/-! The meaning of a program without passes. A single walk with a fixed table emits the program;
a table is consistent when it holds the meanings that this very walk gives to the names. The two
passes find a consistent table, and find one whenever there is one, as far as guesses can tell.
-/

namespace Asm6510.Assembly

open Machine (BranchAlone BranchesAlone Instruction InstructionSet)
open Operand
open Progress (Change)
open Report (Log)
open Source (Token)

/-- One walk that emits with a fixed table, and compares its addresses with nothing. -/
def fixedWalk (set : InstructionSet) (tokens : List Token) (base : UInt16) (table : Symbols)
    : Progress × Option Fault :=
  Progress.walk set .assemble ((statements set tokens).map fun statement => (statement, none))
    { counter := base.toNat, symbols := table }

/-- A table that holds exactly the names declared by the statements, each of them declared once,
with the meanings they have at the counters of the walk that uses the table. The walk ends in
`done`.
-/
structure Consistent (set : InstructionSet) (tokens : List Token) (base : UInt16)
    (table : Symbols) (done : Progress) : Prop where
  walked : fixedWalk set tokens base table = (done, none)
  once : Distinct (bindings (statements set tokens) done.starts.toList)
  holds : ∀ name symbol,
    table.get? name = some symbol
    ↔ (name, symbol) ∈ bindings (statements set tokens) done.starts.toList

/-- A variable that an instruction other than a branch refers to without a mark, and that is
assigned only later, is a word.
-/
def ForwardWords (statements : List Statement) : Prop :=
  ∀ earlier token instruction operand later,
    statements = earlier ++ .operate token instruction (some operand) :: later
    → instruction.isBranch = false
    → isLookedUp instruction operand = true
    → part? operand.text = none
    → ∀ assigning value,
        .assign assigning (referent operand.text) (some value) ∈ later
        → isWord value.text = true

variable {set : InstructionSet} {table known other : Symbols} {counter : Nat}
  {statements : List Statement} {changes firsts seconds : List Change}

theorem ForwardWords.tail {statement : Statement}
    (words : ForwardWords (statement :: statements))
    : ForwardWords statements := by
  intro earlier token instruction operand later split
  exact words (statement :: earlier) token instruction operand later (by rw [split]; rfl)

/-- The second pass sees of a table only what its names stand for. -/
theorem effect_congr_symbols (same : ∀ name, table.get? name = other.get? name)
    (statement : Statement) (pass : Pass) (here : UInt16)
    : statement.effect set pass table here = statement.effect set pass other here := by
  cases statement with
  | operate token instruction operand? =>
      cases operand? with
      | none => rfl
      | some operand =>
          simp [Statement.effect, required, operate, operandText, resolve, same]
  | origin | data | string | label | assign | implied | stray => rfl

theorem Carried.congr_symbols (same : ∀ name, table.get? name = other.get? name)
    {statement : Statement} {change : Change}
    (carried : Carried set .assemble table counter statement change)
    : Carried set .assemble other counter statement change := by
  cases carried with
  | move word => exact .move word
  | emit inside made fits =>
      rw [effect_congr_symbols same] at made
      exact .emit inside made fits
  | label inside fresh => exact .label inside fun impossible => by cases impossible
  | assign fresh => exact .assign fun impossible => by cases impossible
  | stray => exact .stray

theorem Trace.congr_symbols (same : ∀ name, table.get? name = other.get? name)
    (trace : Trace set .assemble table counter statements changes)
    : Trace set .assemble other counter statements changes := by
  induction statements generalizing counter changes with
  | nil =>
      cases trace
      exact .nil
  | cons statement statements ih =>
      cases trace with
      | cons first rest =>
          rw [first.grow_assemble] at rest
          have first := first.congr_symbols same
          refine .cons first ?_
          rw [first.grow_assemble]
          exact ih rest

/-- A statement that is emitted with the whole table is carried out with the part of it that is
known, and moves the counter as far.
-/
theorem Carried.measured {statement : Statement} {second : Change}
    (alone : ∀ token instruction operand?,
      statement = .operate token instruction operand? → BranchAlone instruction)
    (kept : ∀ name symbol, known.get? name = some symbol → table.get? name = some symbol)
    (fresh : ∀ name symbol,
      statement.binding? counter = some (name, symbol) → known.get? name = none)
    (words : ∀ token instruction operand,
      statement = .operate token instruction (some operand)
      → known.get? (referent operand.text) = none
      → isLookedUp instruction operand = true
      → instruction.isBranch = false
      → part? operand.text = none
      → ∀ symbol, table.get? (referent operand.text) = some symbol
        → isWord symbol.operand = true)
    (carried : Carried set .assemble table counter statement second)
    : ∃ first,
        Carried set .prescan known counter statement first
        ∧ first.counter = second.counter := by
  cases carried with
  | move word => exact ⟨_, .move word, rfl⟩
  | label inside _ => exact ⟨_, .label inside fun _ => fresh _ _ rfl, rfl⟩
  | assign _ => exact ⟨_, .assign fun _ => fresh _ _ rfl, rfl⟩
  | stray => exact ⟨_, .stray, rfl⟩
  | @emit _ row inside made fits =>
      cases operates : statement.isOperate with
      | false =>
          rw [effect_eq_of_not_operate operates .prescan known] at made
          exact ⟨_, .emit inside made fits, rfl⟩
      | true =>
          cases statement with
          | operate token instruction operand? =>
              obtain ⟨operand, _, rfl, emitted, same⟩ := effect_operate_eq_ok_iff.mp made
              cases same
              obtain ⟨measured, made, long⟩ := operate_measured (alone _ _ _ rfl)
                (kept _) (words token instruction operand rfl) emitted
              refine ⟨_, .emit inside (effect_operate_eq_ok_iff.mpr ⟨_, _, rfl, made, rfl⟩) ?_, ?_⟩
              · rwa [long]
              · simp [Pass.emitted, long]
          | origin | data | string | label | assign | implied | stray =>
              simp [Statement.isOperate] at operates

/-- Statements that are emitted with a table can be measured from the part of it declared before
them, if the rest of it is what they declare.
Witness: induction on the statements; each declaration moves from the rest to what is known.
-/
theorem Trace.measured (known : Symbols)
    (alone : ∀ token instruction operand?,
      .operate token instruction operand? ∈ statements → BranchAlone instruction)
    (words : ForwardWords statements)
    (distinct : Distinct (known.meanings ++ bindings statements (starts counter seconds)))
    (holds : ∀ name symbol,
      table.get? name = some symbol
      ↔ (name, symbol) ∈ known.meanings ++ bindings statements (starts counter seconds))
    (trace : Trace set .assemble table counter statements seconds)
    : ∃ firsts,
        Trace set .prescan known counter statements firsts
        ∧ starts counter firsts = starts counter seconds
        ∧ finish counter firsts = finish counter seconds := by
  induction statements generalizing known counter seconds with
  | nil =>
      cases trace
      exact ⟨[], .nil, rfl, rfl⟩
  | cons statement statements ih =>
      cases trace with
      | @cons _ _ _ _ second seconds carried rest =>
          rw [carried.grow_assemble] at rest
          rw [starts, bindings] at distinct
          simp only [starts, bindings] at holds
          have kept : ∀ name symbol,
              known.get? name = some symbol → table.get? name = some symbol := by
            intro name symbol found
            exact (holds name symbol).mpr (List.mem_append_left _ (mem_meanings_of_get? found))
          have fresh : ∀ name symbol,
              statement.binding? counter = some (name, symbol) → known.get? name = none := by
            intro name symbol bound
            apply get?_eq_none_iff.mpr
            intro taken
            rw [Distinct, List.map_append] at distinct
            exact (List.nodup_append.mp distinct).2.2 name taken name (by simp [bound]) rfl
          have forward : ∀ token instruction operand,
              statement = .operate token instruction (some operand)
              → known.get? (referent operand.text) = none
              → isLookedUp instruction operand = true
              → instruction.isBranch = false
              → part? operand.text = none
              → ∀ symbol, table.get? (referent operand.text) = some symbol
                → isWord symbol.operand = true := by
            intro token instruction operand same unknown sought branch unmarked symbol meant
            subst same
            have later : (referent operand.text, symbol)
                ∈ bindings statements (starts second.counter seconds) := by
              rcases List.mem_append.mp ((holds _ _).mp meant) with before | later
              · exact absurd (List.mem_map.mpr ⟨_, before, rfl⟩) (get?_eq_none_iff.mp unknown)
              · simpa [Statement.binding?] using later
            rcases mem_bindings later with ⟨_, address, _, rfl⟩ | ⟨assigning, value, member, rfl⟩
            · exact isWord_formatWord address
            · exact words [] token instruction operand statements rfl branch sought unmarked
                assigning value member
          obtain ⟨first, measured, same⟩ := carried.measured
            (fun token instruction operand? equal => alone token instruction operand?
              (by simp [equal])) kept fresh forward
          have grown : (known.grow first).meanings
              ++ bindings statements (starts first.counter seconds)
              = known.meanings ++ ((statement.binding? counter).toList
                ++ bindings statements (starts second.counter seconds)) := by
            rw [meanings_grow, measured.meaning_prescan, List.append_assoc, same]
          rw [← same] at rest
          obtain ⟨firsts, trace, started, finished⟩ := ih (known.grow first)
            (fun token instruction operand? member => alone token instruction operand?
              (by simp [member])) words.tail (grown ▸ distinct) (grown ▸ holds) rest
          refine ⟨first :: firsts, .cons measured trace, ?_, ?_⟩
          · rw [starts, starts, started, same]
          · rw [finish, finish, finished, same]

/-- A walk with a fixed table is a trace of the second pass. -/
theorem trace_of_fixedWalk {tokens : List Token} {base : UInt16} {done : Progress}
    (walked : fixedWalk set tokens base table = (done, none))
    : ∃ seconds,
        Trace set .assemble table base.toNat (Assembly.statements set tokens) seconds
        ∧ done.bytes.toList = (rows seconds).flatMap (·.bytes)
        ∧ done.rows.toList = rows seconds
        ∧ done.starts.toList = starts base.toNat seconds := by
  obtain ⟨seconds, trace, -, reached⟩ := trace_of_walk walked
  exact ⟨seconds, by simpa [Function.comp_def] using trace, reached.bytes, reached.rows,
    reached.starts⟩

theorem Trace.fixedWalk {tokens : List Token} {base : UInt16}
    (trace : Trace set .assemble table base.toNat (Assembly.statements set tokens) seconds)
    : ∃ done,
        Assembly.fixedWalk set tokens base table = (done, none)
        ∧ done.bytes.toList = (rows seconds).flatMap (·.bytes)
        ∧ done.rows.toList = rows seconds
        ∧ done.starts.toList = starts base.toNat seconds := by
  let before : Progress := { counter := base.toNat, symbols := table }
  obtain ⟨done, walked, reached⟩
      : ∃ done, Assembly.fixedWalk set tokens base table = (done, none)
          ∧ Reaches before seconds done :=
    Trace.walk (by simpa [Function.comp_def] using trace) (met_unmeasured _ _)
  exact ⟨done, walked, reached.bytes, reached.rows, reached.starts⟩

/-- The table of a run that succeeds is consistent, and its walk emits the output.
Witness: the second pass is that walk, and finds each label where the first declared it.
-/
theorem consistent_of_twoPass {tokens : List Token} {base : UInt16} {log : Log} {output : Output}
    (succeeded : (twoPass set tokens base log).2 = .ok output)
    : ∃ done,
        Consistent set tokens base output.symbols done
        ∧ output.bytes = done.bytes.toList
        ∧ output.rows = done.rows.toList := by
  obtain ⟨firsts, seconds, passes, -, rfl⟩ := twoPass_eq_ok_iff.mp succeeded
  obtain ⟨done, walked, bytes, listing, started⟩ := passes.assemble.fixedWalk
  obtain ⟨declared, distinct⟩ := passes.declared
  rw [← started] at declared
  refine ⟨done, ⟨walked, declared ▸ distinct, ?_⟩, bytes.symm, listing.symm⟩
  intro name symbol
  rw [← declared]
  exact get?_eq_some_iff distinct

/-- A consistent table is found, and what its walk emits is the output.
Witness: the walk can be measured, so that both passes stand at its counters throughout.
-/
theorem twoPass_of_consistent {tokens : List Token} {base : UInt16} (log : Log) {done : Progress}
    (alone : BranchesAlone set) (words : ForwardWords (Assembly.statements set tokens))
    (consistent : Consistent set tokens base table done)
    : ∃ output,
        (twoPass set tokens base log).2 = .ok output
        ∧ (∀ name, output.symbols.get? name = table.get? name)
        ∧ output.bytes = done.bytes.toList
        ∧ output.rows = done.rows.toList := by
  obtain ⟨seconds, trace, bytes, listing, started⟩ := trace_of_fixedWalk consistent.walked
  have once := consistent.once
  have holds := consistent.holds
  rw [started] at once holds
  have branches : ∀ token instruction operand?,
      .operate token instruction operand? ∈ Assembly.statements set tokens
      → BranchAlone instruction := by
    intro token instruction operand? member
    exact alone instruction (List.mem_of_find?_eq_some (mem_statements_operate member))
  obtain ⟨firsts, prescan, starting, finished⟩ :=
    Trace.measured Symbols.empty branches words once holds trace
  have declared := prescan.bindings_prescan
  rw [starting] at declared
  have same : ∀ name, table.get? name = Symbols.get? ⟨declarations firsts⟩ name := by
    intro name
    apply Option.ext
    intro symbol
    rw [holds, ← declared]
    exact (get?_eq_some_iff (declared ▸ once)).symm
  have passes := prescan.passes (trace.congr_symbols same) (starting ▸ met_measured _ _)
  exact ⟨_, twoPass_eq_ok_iff.mpr ⟨firsts, seconds, passes, finished, rfl⟩,
    fun name => (same name).symm, bytes.symm, listing.symm⟩

/-- The two passes compute the meaning of a program: a run that succeeds has found a consistent
table and emits what its walk emits, and a program with a consistent table is assembled so, if
branches stand alone, as on the 6510, and variables used ahead of their assignment are words.
-/
theorem twoPass_fixedPoint (set : InstructionSet) (tokens : List Token) (base : UInt16)
    (log : Log)
    : (∀ output, (twoPass set tokens base log).2 = .ok output
        → ∃ done,
            Consistent set tokens base output.symbols done
            ∧ output.bytes = done.bytes.toList
            ∧ output.rows = done.rows.toList)
      ∧ (BranchesAlone set → ForwardWords (Assembly.statements set tokens)
        → ∀ table done, Consistent set tokens base table done
          → ∃ output,
              (twoPass set tokens base log).2 = .ok output
              ∧ (∀ name, output.symbols.get? name = table.get? name)
              ∧ output.bytes = done.bytes.toList
              ∧ output.rows = done.rows.toList)
      ∧ BranchesAlone .cpu6510 :=
  ⟨fun _ succeeded => consistent_of_twoPass succeeded,
    fun alone words _ _ consistent => twoPass_of_consistent log alone words consistent,
    Machine.branchesAlone_cpu6510⟩

/-- A jump ahead, a load of a variable that is assigned last, and a branch back. -/
def smallProgram : List Token :=
  [⟨.ident, "JMP", ⟨"t", 0, 0⟩⟩, ⟨.ident, "loop", ⟨"t", 0, 4⟩⟩,
    ⟨.label "loop", "loop:", ⟨"t", 1, 0⟩⟩,
    ⟨.ident, "LDA", ⟨"t", 2, 0⟩⟩, ⟨.ident, "screen", ⟨"t", 2, 4⟩⟩,
    ⟨.ident, "BNE", ⟨"t", 3, 0⟩⟩, ⟨.ident, "loop", ⟨"t", 3, 4⟩⟩,
    ⟨.assignment "screen", "screen =", ⟨"t", 4, 0⟩⟩, ⟨.operand .absolute, "$0400", ⟨"t", 4, 9⟩⟩]

/-- The consistent table of the small program. -/
def smallTable : Symbols :=
  ⟨[⟨"loop", ⟨"t", 1, 0⟩, .label 0xC003⟩, ⟨"screen", ⟨"t", 4, 0⟩, .assigned "$0400"⟩]⟩

theorem twoPass_fixedPoint_small
    : ∃ output,
        (twoPass smallSet smallProgram 0xC000 {}).2 = .ok output
        ∧ (∀ name, output.symbols.get? name = smallTable.get? name)
        ∧ output.bytes = [0x4C, 0x03, 0xC0, 0xAD, 0x00, 0x04, 0xD0, 0xFB] := by
  have alone : BranchesAlone smallSet := by
    unfold BranchesAlone BranchAlone
    decide +kernel
  have words : ForwardWords (Assembly.statements smallSet smallProgram) := by
    have given : (Assembly.statements smallSet smallProgram).filterMap (Statement.binding? 0)
        = [("loop", .label 0), ("screen", .assigned "$0400")] := by
      decide +kernel
    intro earlier token instruction operand later split _ _ _ assigning value member
    have found : (referent operand.text, Symbol.assigned value.text)
        ∈ (Assembly.statements smallSet smallProgram).filterMap (Statement.binding? 0) := by
      refine List.mem_filterMap.mpr
        ⟨.assign assigning (referent operand.text) (some value), ?_, rfl⟩
      simp [split, member]
    have named : referent operand.text = "screen" ∧ value.text = "$0400" := by
      simpa [given] using found
    rw [named.2]
    decide
  have consistent : Consistent smallSet smallProgram 0xC000 smallTable
      (fixedWalk smallSet smallProgram 0xC000 smallTable).1 := by
    have bound : smallTable.meanings
        = bindings (Assembly.statements smallSet smallProgram)
            (fixedWalk smallSet smallProgram 0xC000 smallTable).1.starts.toList := by
      decide +kernel
    have distinct : Distinct smallTable.meanings := by
      unfold Distinct
      decide +kernel
    refine ⟨Prod.ext rfl (by decide +kernel), bound ▸ distinct, ?_⟩
    intro name symbol
    rw [← bound]
    exact get?_eq_some_iff distinct
  obtain ⟨output, succeeded, same, bytes, -⟩ :=
    (twoPass_fixedPoint smallSet smallProgram 0xC000 {}).2.1 alone words _ _ consistent
  exact ⟨output, succeeded, same, bytes.trans (by decide +kernel)⟩

end Asm6510.Assembly
