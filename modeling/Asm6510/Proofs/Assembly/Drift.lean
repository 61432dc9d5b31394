import Asm6510.Proofs.Assembly.Failures
import Asm6510.Proofs.Assembly.FixedPoint

/-! How far the passes can drift apart. The second pass never stands behind the first: a statement
emits at most as many bytes as were measured, and exactly as many unless it refers to a variable
that is assigned later and is no word. Such a drift is found where the next statement stands for an
address, but an origin before it hides the drift.
-/

namespace Asm6510.Assembly

open Machine (BranchAlone BranchesAlone Instruction InstructionSet Mode)
open Operand
open Progress (Change)
open Report (Log)
open Source (Token)

/-- The counters that a pass has stood at: before each statement that it carried out, and now. -/
def Progress.counters (progress : Progress) : List Nat :=
  progress.starts.toList ++ [progress.counter]

/-- The counters from one on, with some changes made one after the other. -/
def counters (counter : Nat) : List Change → List Nat
  | [] => [counter]
  | change :: rest => counter :: counters change.counter rest

/-- The branches among some statements have no other mode. -/
def AloneIn (statements : List Statement) : Prop :=
  ∀ token instruction operand?,
    .operate token instruction operand? ∈ statements → BranchAlone instruction

variable {set : InstructionSet} {pass : Pass} {symbols table known : Symbols} {here : UInt16}
  {counter measured emitted : Nat} {instruction : Instruction} {operand token : Token}
  {statement : Statement} {statements : List Statement} {first second : Change}
  {changes firsts seconds : List Change} {cause : Cause} {before after : Progress}

theorem AloneIn.tail (alone : AloneIn (statement :: statements))
    : AloneIn statements :=
  fun token instruction operand? member => alone token instruction operand? (by simp [member])

/-- The branches of a program are those of its set. -/
theorem aloneIn_statements (alone : BranchesAlone set) (tokens : List Token)
    : AloneIn (Assembly.statements set tokens) := by
  intro token instruction operand? member
  exact alone instruction (List.mem_of_find?_eq_some (mem_statements_operate member))

/-- What is known stays known when more is declared after it. -/
theorem get?_of_isPrefix {name : String} {symbol : Symbol}
    (earlier : known.declarations <+: table.declarations) (found : known.get? name = some symbol)
    : table.get? name = some symbol := by
  obtain ⟨later, split⟩ := earlier
  obtain ⟨declaration, hit, rfl⟩ := Option.map_eq_some_iff.mp found
  have hit' : table.find? name = some declaration := by
    rw [Symbols.find?, ← split, List.find?_append]
    exact Option.or_eq_some_iff.mpr (Or.inl hit)
  simp [Symbols.get?, hit']

/-- Carrying out a statement makes one change. -/
theorem Carried.unique (one : Carried set pass symbols counter statement first)
    (other : Carried set pass symbols counter statement second)
    : first = second := by
  let progress : Progress := { counter, symbols }
  have attempted : (progress.attempt set pass none statement).outcome = .ok first :=
    attempt_eq_ok_iff.mpr ⟨one, fun _ _ impossible => by cases impossible⟩
  have again : (progress.attempt set pass none statement).outcome = .ok second :=
    attempt_eq_ok_iff.mpr ⟨other, fun _ _ impossible => by cases impossible⟩
  exact Except.ok.inj (attempted.symm.trans again)

theorem counters_eq (counter : Nat) (changes : List Change)
    : counters counter changes = starts counter changes ++ [finish counter changes] := by
  induction changes generalizing counter with
  | nil => rfl
  | cons change changes ih => rw [counters, ih, starts, finish, List.cons_append]

/-- The counters of a pass are those of its changes. -/
theorem Reaches.counters_eq (reached : Reaches before changes after)
    (fresh : before.starts = #[])
    : after.counters = counters before.counter changes := by
  rw [Progress.counters, reached.starts, reached.counter, fresh, Assembly.counters_eq]
  rfl

-----------------------------------------------------------------------------------------
-- The second pass stays behind the first
-----------------------------------------------------------------------------------------

/-- A name that is guessed without a mark is measured as three bytes, unless a branch takes it. -/
theorem length_of_guessed {row : Row}
    (measured : (operate set .prescan known here token instruction operand).outcome = .ok row)
    (unknown : known.get? (referent operand.text) = none)
    (sought : isLookedUp instruction operand = true) (plain : instruction.isBranch = false)
    (unmarked : part? operand.text = none)
    : row.bytes.length = 3 := by
  obtain ⟨text, encoded, mode, opcode, resolved, converts, selected, rfl⟩ :=
    operate_eq_ok_iff.mp measured
  rcases resolve_cases resolved with
    ⟨literal, -⟩ | ⟨-, -, ⟨symbol, found, -⟩ | ⟨-, -, rfl⟩⟩
  · rw [sought] at literal
    cases literal
  · rw [unknown] at found
    cases found
  · rw [converted_of_not_branch plain] at converts
    obtain rfl := Except.ok.inj converts
    have word : isWord (guess operand.text here) = true := by
      simp [guess, isExtract, unmarked, isWord_formatWord]
    rw [length_operandRow_bytes selected,
      (accepts_word_iff word).mp (selectMode?_eq_some selected).1]
    rfl

theorem Mode.length_le (mode : Mode)
    : mode.length ≤ 3 := by
  cases mode <;> decide

/-- An instruction is never emitted longer than it was measured.
Witness: a guess is measured in the longest mode there is, and all else as it is emitted.
-/
theorem operate_shrinks (alone : BranchAlone instruction) {first second : Row}
    (kept : ∀ symbol, known.get? (referent operand.text) = some symbol
      → table.get? (referent operand.text) = some symbol)
    (measured : (operate set .prescan known here token instruction operand).outcome = .ok first)
    (emitted : (operate set .assemble table here token instruction operand).outcome = .ok second)
    : second.bytes.length ≤ first.bytes.length := by
  by_cases guessed : known.get? (referent operand.text) = none
      ∧ isLookedUp instruction operand = true
      ∧ instruction.isBranch = false
      ∧ part? operand.text = none
  · obtain ⟨unknown, sought, plain, unmarked⟩ := guessed
    obtain ⟨_, _, mode, _, -, -, selected, rfl⟩ := operate_eq_ok_iff.mp emitted
    rw [length_of_guessed measured unknown sought plain unmarked, length_operandRow_bytes selected]
    exact Mode.length_le mode
  · obtain ⟨again, remeasured, long⟩ := operate_measured alone kept
      (fun unknown sought plain unmarked => absurd ⟨unknown, sought, plain, unmarked⟩ guessed)
      emitted
    obtain rfl := Except.ok.inj (measured.symm.trans remeasured)
    exact Nat.le_of_eq long.symm

/-- No statement emits more than was measured for it. -/
theorem effect_shrinks (alone : AloneIn [statement]) {first second : Row}
    (earlier : known.declarations <+: table.declarations)
    (measured : (statement.effect set .prescan known here).outcome = .ok (.emit first))
    (emitted : (statement.effect set .assemble table here).outcome = .ok (.emit second))
    : second.bytes.length ≤ first.bytes.length := by
  cases operates : statement.isOperate with
  | false =>
      rw [effect_eq_of_not_operate operates .prescan known, measured] at emitted
      cases emitted
      exact Nat.le_refl _
  | true =>
      cases statement with
      | operate token instruction operand? =>
          obtain ⟨operand, _, rfl, measured, same⟩ := effect_operate_eq_ok_iff.mp measured
          obtain rfl := Effect.emit.inj same
          obtain ⟨_, _, same, emitted, same'⟩ := effect_operate_eq_ok_iff.mp emitted
          obtain rfl := Option.some.inj same
          obtain rfl := Effect.emit.inj same'
          exact operate_shrinks (alone token instruction (some operand) (by simp))
            (fun symbol found => get?_of_isPrefix earlier found) measured emitted
      | origin | data | string | label | assign | implied | stray => cases operates

/-- A statement leaves the second pass behind the first if it starts there. -/
theorem Carried.shrinks (alone : AloneIn [statement])
    (earlier : known.declarations <+: table.declarations)
    (prescan : Carried set .prescan known measured statement first)
    (assemble : Carried set .assemble table emitted statement second)
    (aligned : statement.isAnchored = true → measured = emitted) (below : emitted ≤ measured)
    : second.counter ≤ first.counter := by
  cases prescan with
  | move word =>
      cases assemble with
      | move word' =>
          obtain rfl := Option.some.inj (word.symm.trans word')
          exact Nat.le_refl _
      | emit inside made fits => cases (address_of_effect made).1
  | emit inside made fits =>
      obtain rfl := aligned (Statement.isAnchored_of_emits (address_of_effect made).1)
      cases assemble with
      | move | label | assign | stray => cases (address_of_effect made).1
      | emit inside' made' fits' =>
          exact Nat.add_le_add_left (effect_shrinks alone earlier made made') _
  | label inside fresh =>
      cases assemble with
      | label => exact below
      | emit inside' made fits' => cases (address_of_effect made).1
  | assign fresh =>
      cases assemble with
      | assign => exact below
      | emit inside' made fits' => cases (address_of_effect made).1
  | stray =>
      cases assemble with
      | stray => exact below
      | emit inside' made fits' => cases (address_of_effect made).1

theorem AloneIn.head (alone : AloneIn (statement :: statements))
    : AloneIn [statement] := by
  intro token instruction operand? member
  exact alone token instruction operand? (by simp [List.mem_singleton.mp member])

/-- What is known before a change is declared before all that follows. -/
theorem isPrefix_of_grow
    (whole : known.declarations ++ declarations (first :: firsts) <+: table.declarations)
    : known.declarations <+: table.declarations
      ∧ (known.grow first).declarations ++ declarations firsts <+: table.declarations :=
  ⟨(List.prefix_append _ _).trans whole, declarations_grow known first firsts ▸ whole⟩

/-- Both passes side by side: the second is behind at every statement and at the end. -/
theorem Passes.shrinks (alone : AloneIn statements)
    (whole : known.declarations ++ declarations firsts <+: table.declarations)
    (passes : Passes set table known measured emitted statements firsts seconds)
    (below : emitted ≤ measured)
    : List.Forall₂ (· ≤ ·) (counters emitted seconds) (counters measured firsts) := by
  induction passes with
  | nil => exact .cons below .nil
  | cons prescan assemble aligned rest ih =>
      obtain ⟨earlier, others⟩ := isPrefix_of_grow whole
      exact .cons below (ih alone.tail others
        (prescan.shrinks alone.head earlier assemble aligned below))

/-- A second pass that is interrupted stands behind the first where it fails. -/
theorem Interrupted.stopped (alone : AloneIn statements)
    (whole : known.declarations ++ declarations firsts <+: table.declarations)
    (interrupted : Interrupted set table cause known measured emitted statements firsts seconds)
    (below : emitted ≤ measured)
    : ∃ statement symbols expected counter change,
        statement ∈ statements
        ∧ symbols.declarations <+: table.declarations
        ∧ counter ≤ expected
        ∧ Carried set .prescan symbols expected statement change
        ∧ Failed set .assemble table counter (some expected) statement cause := by
  induction interrupted with
  | here prescan others failed =>
      exact ⟨_, _, _, _, _, by simp, (isPrefix_of_grow whole).1, below, prescan, failed⟩
  | later prescan assemble aligned rest ih =>
      obtain ⟨earlier, others⟩ := isPrefix_of_grow whole
      obtain ⟨stop, symbols, expected, counter, change, member, known, behind, carried, failed⟩ :=
        ih alone.tail others (prescan.shrinks alone.head earlier assemble aligned below)
      exact ⟨stop, symbols, expected, counter, change, by simp [member], known, behind, carried,
        failed⟩

-----------------------------------------------------------------------------------------
-- No drift where variables used ahead are words
-----------------------------------------------------------------------------------------

/-- A name that is not known where it is used, and known in the end, is declared later, and so is a
word.
-/
theorem ForwardWords.isWord {symbol : Symbol}
    (words : ForwardWords (.operate token instruction (some operand) :: statements))
    (trace : Trace set .prescan known counter
      (.operate token instruction (some operand) :: statements) changes)
    (whole : table.declarations = known.declarations ++ declarations changes)
    (unknown : known.get? (referent operand.text) = none)
    (sought : isLookedUp instruction operand = true) (plain : instruction.isBranch = false)
    (unmarked : part? operand.text = none)
    (meant : table.get? (referent operand.text) = some symbol)
    : isWord symbol.operand = true := by
  have member := mem_meanings_of_get? meant
  rw [Symbols.meanings, whole, List.map_append] at member
  rcases List.mem_append.mp member with before | later
  · exact absurd (List.mem_map.mpr ⟨_, before, rfl⟩) (get?_eq_none_iff.mp unknown)
  · have bound : (referent operand.text, symbol)
        ∈ Symbols.meanings ⟨declarations changes⟩ := later
    rw [trace.bindings_prescan] at bound
    rcases mem_bindings bound with ⟨_, address, _, rfl⟩ | ⟨assigning, value, assigned, rfl⟩
    · exact isWord_formatWord address
    · have ahead : .assign assigning (referent operand.text) (some value) ∈ statements := by
        simpa using assigned
      exact words [] token instruction operand statements rfl plain sought unmarked assigning value
        ahead

/-- A statement that both passes carry out at one counter leaves them at one counter.
Witness: what is emitted could be measured with as many bytes, and there is one way to measure it.
-/
theorem Carried.steady (alone : AloneIn [statement])
    (words : ForwardWords (statement :: statements))
    (trace : Trace set .prescan known counter (statement :: statements) (first :: firsts))
    (whole : table.declarations = known.declarations ++ declarations (first :: firsts))
    (assemble : Carried set .assemble table counter statement second)
    : first.counter = second.counter := by
  cases trace with
  | cons prescan rest =>
      have earlier : known.declarations <+: table.declarations := by
        rw [whole]
        exact List.prefix_append _ _
      have fresh : ∀ name symbol,
          statement.binding? counter = some (name, symbol) → known.get? name = none := by
        intro name symbol bound
        rw [← prescan.meaning_prescan] at bound
        cases prescan with
        | move | emit | stray => cases bound
        | label inside fresh | assign fresh =>
            cases bound
            exact fresh rfl
      obtain ⟨again, remeasured, same⟩ := assemble.measured
        (fun token instruction operand? equal => alone token instruction operand? (by simp [equal]))
        (fun _ _ found => get?_of_isPrefix earlier found) fresh
        (fun token instruction operand equal unknown sought plain unmarked symbol meant => by
          subst equal
          exact words.isWord (.cons prescan rest) whole unknown sought plain unmarked meant)
      rw [prescan.unique remeasured, same]

/-- The table of a run, with a change moved to what is known. -/
theorem whole_of_grow
    (whole : table.declarations = known.declarations ++ declarations (first :: firsts))
    : table.declarations = (known.grow first).declarations ++ declarations firsts :=
  whole.trans (declarations_grow known first firsts).symm

/-- Where variables used ahead are words, both passes stand at the same counters. -/
theorem Passes.steady (alone : AloneIn statements) (words : ForwardWords statements)
    (whole : table.declarations = known.declarations ++ declarations firsts)
    (passes : Passes set table known measured emitted statements firsts seconds)
    (start : measured = emitted)
    : counters emitted seconds = counters measured firsts := by
  induction passes with
  | nil => rw [start]
  | cons prescan assemble aligned rest ih =>
      subst start
      have same := Carried.steady alone.head words (.cons prescan rest.prescan) whole assemble
      rw [counters, counters, ih alone.tail words.tail (whole_of_grow whole) same]

/-- Where variables used ahead are words, a second pass that stops has stood where the first did,
and does not stop for a drift.
-/
theorem Interrupted.steady (alone : AloneIn statements) (words : ForwardWords statements)
    (whole : table.declarations = known.declarations ++ declarations firsts)
    (interrupted : Interrupted set table cause known measured emitted statements firsts seconds)
    (start : measured = emitted)
    : counters emitted seconds <+: counters measured firsts
      ∧ ∀ expected found, cause ≠ .addressDrift expected found := by
  induction interrupted with
  | here prescan others failed =>
      subst start
      refine ⟨⟨_, rfl⟩, failed.ne_drift⟩
  | later prescan assemble aligned rest ih =>
      subst start
      have same := Carried.steady alone.head words (.cons prescan rest.prescan) whole assemble
      obtain ⟨visited, other⟩ := ih alone.tail words.tail (whole_of_grow whole) same
      exact ⟨List.cons_prefix_cons.mpr ⟨rfl, visited⟩, other⟩

/-- No instruction refers to a variable that is assigned only later. -/
def ForwardLabels (statements : List Statement) : Prop :=
  ∀ earlier token instruction operand later,
    statements = earlier ++ .operate token instruction (some operand) :: later
    → isLookedUp instruction operand = true
    → ∀ assigning value?, .assign assigning (referent operand.text) value? ∉ later

theorem ForwardLabels.forwardWords (labels : ForwardLabels statements)
    : ForwardWords statements := by
  intro earlier token instruction operand later split _ sought _ assigning value member
  exact absurd member (labels earlier token instruction operand later split sought assigning _)

/-- Variables that are all words are words where they are used ahead. -/
theorem forwardWords_of_words
    (words : ∀ name text,
      (name, Symbol.assigned text) ∈ statements.filterMap (Statement.binding? 0)
      → isWord text = true)
    : ForwardWords statements := by
  intro earlier token instruction operand later split _ _ _ assigning value member
  refine words (referent operand.text) value.text (List.mem_filterMap.mpr
    ⟨.assign assigning (referent operand.text) (some value), ?_, rfl⟩)
  simp [split, member]

/-- Where variables used ahead are words, as where only labels are used ahead, the second pass
stands at the counters of the first as far as it gets, at all of them if it succeeds, and does not
stop for a drift. The branches of the set have no other mode, as those of the 6510.
-/
theorem assemble_undrifted {tokens : List Token} {base : UInt16} {log note : Log}
    {measured done : Progress} {fault? : Option Fault} (alone : BranchesAlone set)
    (forward : ForwardWords (Assembly.statements set tokens)
      ∨ ForwardLabels (Assembly.statements set tokens))
    (measuring : Progress.prescan { counter := base.toNat, log } set
      (Assembly.statements set tokens) = (measured, none))
    (emitting : Progress.assemble { measured with log := note } set
      (Assembly.statements set tokens) base = (done, fault?))
    : done.counters <+: measured.counters
      ∧ (fault? = none → done.counters = measured.counters)
      ∧ (∀ fault ∈ fault?, ∀ expected found, fault.cause ≠ .addressDrift expected found)
      ∧ BranchesAlone .cpu6510 := by
  have words := forward.elim id ForwardLabels.forwardWords
  have branches := aloneIn_statements alone tokens
  obtain ⟨firsts, seconds, reached, emitted, ending⟩ := ending_of_assemble measuring emitting
  have visited : measured.counters = counters base.toNat firsts := reached.counters_eq rfl
  have stood : done.counters = counters base.toNat seconds := emitted.counters_eq rfl
  have whole : Symbols.declarations ⟨declarations firsts⟩
      = Symbols.empty.declarations ++ declarations firsts := rfl
  cases ending with
  | succeeds passes =>
      have same : done.counters = measured.counters := by
        rw [stood, visited, passes.steady branches words whole rfl]
      exact ⟨same ▸ List.prefix_rfl, fun _ => same, by simp, Machine.branchesAlone_cpu6510⟩
  | stops interrupted =>
      obtain ⟨behind, other⟩ := interrupted.steady branches words whole rfl
      rw [← stood, ← visited] at behind
      exact ⟨behind, by simp, by simpa using other, Machine.branchesAlone_cpu6510⟩
  | misses passes differs drift =>
      -- The passes stand at one counter throughout, so also at the end.
      have same := passes.steady branches words whole rfl
      rw [counters_eq, counters_eq] at same
      exact absurd (List.singleton_inj.mp (List.append_inj' same rfl).2) differs

theorem branchesAlone_smallSet
    : BranchesAlone smallSet := by
  unfold BranchesAlone BranchAlone
  decide +kernel

/-- The small program, and a jump to a name without a meaning. -/
def lostProgram : List Token :=
  smallProgram ++ [⟨.ident, "JMP", ⟨"t", 5, 0⟩⟩, ⟨.ident, "lost", ⟨"t", 5, 4⟩⟩]

theorem assemble_undrifted_lost
    : ∃ measured done fault,
        Progress.prescan { counter := 0xC000 } smallSet (Assembly.statements smallSet lostProgram)
          = (measured, none)
        ∧ Progress.assemble measured smallSet (Assembly.statements smallSet lostProgram) 0xC000
          = (done, some fault)
        ∧ done.counters <+: measured.counters
        ∧ done.counters = [0xC000, 0xC003, 0xC003, 0xC006, 0xC008, 0xC008]
        ∧ fault.cause = .unresolvedReference "lost" := by
  have bound : (Assembly.statements smallSet lostProgram).filterMap (Statement.binding? 0)
      = [("loop", .label 0), ("screen", .assigned "$0400")] := by
    decide +kernel
  have words : ForwardWords (Assembly.statements smallSet lostProgram) := by
    apply forwardWords_of_words
    intro name text member
    obtain ⟨-, rfl⟩ : name = "screen" ∧ text = "$0400" := by simpa [bound] using member
    decide
  let measured := (Progress.prescan { counter := 0xC000 } smallSet
    (Assembly.statements smallSet lostProgram)).1
  have measuring : Progress.prescan { counter := (0xC000 : UInt16).toNat } smallSet
      (Assembly.statements smallSet lostProgram) = (measured, none) :=
    Prod.ext rfl (by decide +kernel)
  let emitted := Progress.assemble measured smallSet (Assembly.statements smallSet lostProgram)
    0xC000
  have evaluated : emitted.1.counters = [0xC000, 0xC003, 0xC003, 0xC006, 0xC008, 0xC008]
      ∧ emitted.2.map (·.cause) = some (.unresolvedReference "lost") := by
    decide +kernel
  obtain ⟨fault, emitting, cause⟩ := exists_fault_of_cause evaluated.2
  exact ⟨measured, emitted.1, fault, measuring, emitting,
    (assemble_undrifted branchesAlone_smallSet (.inl words) measuring emitting).1, evaluated.1,
    cause⟩

-----------------------------------------------------------------------------------------
-- Drifts that an origin hides
-----------------------------------------------------------------------------------------

/-- Whether the counter is moved before the next statement that stands for an address. -/
def overridden : List Statement → Bool
  | [] => false
  | statement :: rest => statement.moves || !statement.isAnchored && overridden rest

/-- Passes that end at one counter stand at one counter, unless an origin is the next to say where
they are.
Witness: induction on the passes; a statement in front of the next one that is checked moves
neither of them.
-/
theorem Passes.aligned
    (passes : Passes set table known measured emitted statements firsts seconds)
    (ended : finish measured firsts = finish emitted seconds)
    (visible : overridden statements = false)
    : emitted = measured := by
  induction passes with
  | nil => exact ended.symm
  | @cons known measured emitted statement statements first second firsts seconds prescan assemble
      aligned rest ih =>
      cases anchored : statement.isAnchored with
      | true => exact (aligned anchored).symm
      | false =>
          obtain ⟨fixed, remaining⟩ : statement.moves = false ∧ overridden statements = false := by
            simpa [overridden, anchored] using visible
          have silent : statement.emits = false := by
            rw [Bool.eq_false_iff]
            intro emitting
            rw [Statement.isAnchored_of_emits emitting] at anchored
            cases anchored
          rw [← prescan.still silent fixed, ← assemble.still silent fixed]
          exact ih ended remaining

/-- Both passes stand at one counter before each part of a program that no origin overrides. -/
theorem Passes.aligned_at {front back : List Statement}
    (passes : Passes set table known measured emitted (front ++ back) firsts seconds)
    (ended : finish measured firsts = finish emitted seconds)
    (visible : overridden back = false)
    : (counters emitted seconds)[front.length]? = (counters measured firsts)[front.length]? := by
  induction front generalizing known measured emitted firsts seconds with
  | nil =>
      rw [passes.aligned ended visible]
      cases firsts <;> cases seconds <;> rfl
  | cons statement front ih =>
      cases passes with
      | cons prescan assemble aligned rest => simpa [counters] using ih rest ended

/-- In a run that succeeds the second pass is nowhere ahead of the first, and stands where the
first did before each statement that is followed by one that stands for an address, or by the end,
sooner than by an origin. Where variables used ahead are words it stands there throughout.
-/
theorem runSource_counters {assembler : Assembler} {file code : String} {base : UInt16}
    {output : Output} (alone : BranchesAlone assembler.set)
    (succeeded : (assembler.runSource file code base).2 = .ok output) (log note : Log)
    : ∃ tokens measured done,
        (Source.expand assembler.library assembler.root file code).outcome = .ok tokens
        ∧ Progress.prescan { counter := base.toNat, log } assembler.set
            (Assembly.statements assembler.set tokens) = (measured, none)
        ∧ Progress.assemble { measured with log := note } assembler.set
            (Assembly.statements assembler.set tokens) base = (done, none)
        ∧ List.Forall₂ (· ≤ ·) done.counters measured.counters
        ∧ (∀ front back,
            Assembly.statements assembler.set tokens = front ++ back
            → overridden back = false
            → done.counters[front.length]? = measured.counters[front.length]?)
        ∧ (ForwardWords (Assembly.statements assembler.set tokens)
            → done.counters = measured.counters)
        ∧ BranchesAlone .cpu6510 := by
  obtain ⟨tokens, _, expanded, succeeded⟩ := expand_of_runSource succeeded
  obtain ⟨firsts, seconds, passes, ended, -⟩ := twoPass_eq_ok_iff.mp succeeded
  have branches := aloneIn_statements alone tokens
  obtain ⟨measured, measuring, reached, emits⟩ := passes.runs log ended
  obtain ⟨done, emitting, emitted⟩ := emits note
  refine ⟨tokens, measured, done, expanded, measuring, emitting, ?_⟩
  have first : measured.counters = counters base.toNat firsts := reached.counters_eq rfl
  have second : done.counters = counters base.toNat seconds := emitted.counters_eq rfl
  rw [first, second]
  have whole : Symbols.declarations ⟨declarations firsts⟩
      = Symbols.empty.declarations ++ declarations firsts := rfl
  refine ⟨passes.shrinks branches (whole ▸ List.prefix_rfl) (Nat.le_refl _), ?_, ?_,
    Machine.branchesAlone_cpu6510⟩
  · intro front back split visible
    rw [split] at passes
    exact passes.aligned_at ended visible
  · intro words
    exact passes.steady branches words whole rfl

theorem runSource_counters_loop
    : ∃ measured done,
        Progress.prescan { counter := 0xC000 } smallSet (Assembly.statements smallSet loopTokens)
          = (measured, none)
        ∧ Progress.assemble { measured with log := {} } smallSet
            (Assembly.statements smallSet loopTokens) 0xC000 = (done, none)
        ∧ done.counters = measured.counters := by
  have evaluated : (smallAssembler.runSource "t" "JMP loop loop: BNE loop" 0xC000).2.toOption.isSome
        = true
      ∧ (Assembly.statements smallSet loopTokens).filterMap (Statement.binding? 0)
        = [("loop", .label 0)] := by
    decide +kernel
  have words : ForwardWords (Assembly.statements smallSet loopTokens) := by
    apply forwardWords_of_words
    simp [evaluated.2]
  cases succeeded : (smallAssembler.runSource "t" "JMP loop loop: BNE loop" 0xC000).2 with
  | error fault => simp [succeeded, Except.toOption] at evaluated
  | ok output =>
      obtain ⟨tokens, measured, done, expanded, measuring, emitting, -, -, steady, -⟩ :=
        runSource_counters branchesAlone_smallSet succeeded {} {}
      obtain rfl := Except.ok.inj (expanded.symm.trans expand_loop)
      exact ⟨measured, done, measuring, emitting, steady words⟩

/-- An assembler for the 6510, which can load nothing. -/
def cpuAssembler : Assembler where
  set := .cpu6510
  library := Source.Library.ofFiles []

/-- The tokens of a load from a variable in the zero page that is assigned behind an origin. -/
def hidingTokens : List Token :=
  [⟨.ident, "LDA", ⟨"t", 0, 0⟩⟩, ⟨.ident, "zp", ⟨"t", 0, 4⟩⟩,
    ⟨.directive .org, ".org", ⟨"t", 0, 7⟩⟩, ⟨.operand .absolute, "$2000", ⟨"t", 0, 12⟩⟩,
    ⟨.assignment "zp", "zp =", ⟨"t", 0, 18⟩⟩, ⟨.operand .zeroPage, "$10", ⟨"t", 0, 23⟩⟩]

/-- The load is measured in three bytes and emitted in two. The passes stand at different counters
before the origin, and the run succeeds.
-/
theorem runSource_hides_drift
    : (cpuAssembler.runSource "t" "LDA zp .org $2000 zp = $10" 0xC000).2.toOption.map (·.bytes)
        = some [0xA5, 0x10]
      ∧ (Source.expand cpuAssembler.library cpuAssembler.root "t"
          "LDA zp .org $2000 zp = $10").outcome.toOption = some hidingTokens
      ∧ let measuring := Progress.prescan { counter := 0xC000 } .cpu6510
          (Assembly.statements .cpu6510 hidingTokens)
        let emitting := Progress.assemble measuring.1 .cpu6510
          (Assembly.statements .cpu6510 hidingTokens) 0xC000
        measuring.2 = none
        ∧ emitting.2 = none
        ∧ measuring.1.counters = [0xC000, 0xC003, 0x2000, 0x2000]
        ∧ emitting.1.counters = [0xC000, 0xC002, 0x2000, 0x2000] := by
  -- One evaluation for all of it, since nearly all its time goes into the table of instructions.
  dsimp only
  decide +kernel

end Asm6510.Assembly
