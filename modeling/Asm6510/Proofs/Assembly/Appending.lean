import Asm6510.Proofs.Assembly.Accounting
import Asm6510.Proofs.Assembly.Drift
import Asm6510.Proofs.Source.Appending

/-! Programs that go on. Code appended to a program changes nothing of what the program is assembled
to: statements end where they ended, names keep their meanings, and bytes and rows stay in front.
Only the numbers at the very end can be continued by more numbers.
-/

namespace Asm6510.Assembly

open Machine (Instruction InstructionSet)
open Operand
open Progress (Change)
open Source (Directive Token)

/-- The directive that starts data of a width. -/
def Width.directive : Width → Directive
  | byte => .byte
  | word => .word

/-- The row of a data statement. -/
def dataRow (here : UInt16) (width : Width) (directive : Token) (literals : List Token) : Row where
  address := here
  bytes := literals.flatMap fun literal => width.encode literal.text
  text := String.intercalate " " (directive.text :: literals.map (·.text))
  reference? := none
  pos := directive.pos

/-- Numbers that continue a data statement. -/
structure Width.Continues (width : Width) (directive : Token) (more : List Token) : Prop where
  directive : directive.kind = .directive width.directive
  holds : ∀ literal ∈ more, width.holds literal.text = true

/-- A listing that goes on from another: the same rows come first, except that the last one may be
data with more numbers in it.
-/
inductive ListingContinues : List Row → List Row → Prop
  | apart (listing later : List Row)
    : ListingContinues listing (listing ++ later)
  | joined (front later : List Row) (here : UInt16) {width : Width} {directive : Token}
    (literals : List Token) {more : List Token} (continued : width.Continues directive more)
    : ListingContinues (front ++ [dataRow here width directive literals])
        (front ++ dataRow here width directive (literals ++ more) :: later)

/-- Statements that go on from others. -/
inductive Continues : List Statement → List Statement → Prop
  | apart (earlier later : List Statement)
    : Continues earlier (earlier ++ later)
  | joined (front later : List Statement) {width : Width} {directive : Token}
    (literals : List Token) {more : List Token} (continued : width.Continues directive more)
    : Continues (front ++ [.data width directive literals])
        (front ++ .data width directive (literals ++ more) :: later)

/-- Whether a statement has the operand that it needs. -/
def Statement.isComplete : Statement → Bool
  | origin _ operand? | string _ operand? | assign _ _ operand? | operate _ _ operand? =>
      operand?.isSome
  | data _ _ _ | label _ _ | implied _ _ _ | stray _ => true

variable {set : InstructionSet} {pass : Pass} {symbols table known : Symbols} {counter : Nat}
  {statement : Statement} {statements front back back' : List Statement} {change : Change}
  {changes changes' : List Change}

-----------------------------------------------------------------------------------------
-- Statements
-----------------------------------------------------------------------------------------

/-- The numbers of a data statement end before the tokens that follow, or go on with them. -/
theorem takeWhile_continues (width : Width) (directive : Token)
    (kind : directive.kind = .directive width.directive) (rest later : List Token)
    : (rest ++ later).takeWhile (fun next => width.holds next.text)
        = rest.takeWhile (fun next => width.holds next.text)
      ∨ ∃ more remaining,
          width.Continues directive more
          ∧ later = more ++ remaining
          ∧ rest.takeWhile (fun next => width.holds next.text) = rest
          ∧ (rest ++ later).takeWhile (fun next => width.holds next.text) = rest ++ more := by
  rw [List.takeWhile_append]
  split
  · rename_i whole
    refine .inr ⟨later.takeWhile (fun next => width.holds next.text),
      later.dropWhile (fun next => width.holds next.text), ⟨kind, ?_⟩,
      List.takeWhile_append_dropWhile.symm, (List.takeWhile_prefix _).eq_of_length whole, rfl⟩
    intro literal member
    exact List.all_eq_true.mp List.all_takeWhile literal member
  · exact .inl rfl

/-- A token goes on to start the same statement when more tokens follow, unless the statement
lacks an operand or is data up to the end.
-/
theorem starting_append {token : Token} {rest : List Token}
    (complete : (Statement.starting set token rest).isComplete = true) (later : List Token)
    : Statement.starting set token (rest ++ later) = Statement.starting set token rest
      ∨ ∃ width more remaining,
          width.Continues token more
          ∧ later = more ++ remaining
          ∧ Statement.starting set token rest = .data width token rest
          ∧ Statement.starting set token (rest ++ later) = .data width token (rest ++ more) := by
  have operand (present : rest.head?.isSome = true) : (rest ++ later).head? = rest.head? := by
    cases rest with
    | nil => cases present
    | cons next rest => rfl
  obtain ⟨kind, text, pos⟩ := token
  cases kind with
  | directive directive =>
      cases directive with
      | org => exact .inl (by simp only [Statement.starting, operand complete])
      | string => exact .inl (by simp only [Statement.starting, operand complete])
      | includeFile => exact .inl rfl
      | byte =>
          rcases takeWhile_continues .byte ⟨_, text, pos⟩ rfl rest later with
            same | ⟨more, remaining, continued, split, whole, longer⟩
          · exact .inl (by simp only [Statement.starting, same])
          · exact .inr ⟨.byte, more, remaining, continued, split,
              by simp only [Statement.starting, whole], by simp only [Statement.starting, longer]⟩
      | word =>
          rcases takeWhile_continues .word ⟨_, text, pos⟩ rfl rest later with
            same | ⟨more, remaining, continued, split, whole, longer⟩
          · exact .inl (by simp only [Statement.starting, same])
          · exact .inr ⟨.word, more, remaining, continued, split,
              by simp only [Statement.starting, whole], by simp only [Statement.starting, longer]⟩
  | assignment name => exact .inl (by simp only [Statement.starting, operand complete])
  | text | label | operand => exact .inl rfl
  | ident =>
      refine .inl ?_
      simp only [Statement.starting] at complete ⊢
      cases found : set.lookup text with
      | none => rfl
      | some instruction =>
          simp only [found] at complete ⊢
          cases implied : instruction.opcode? .implied with
          | some opcode => rfl
          | none =>
              simp only [implied] at complete ⊢
              rw [operand complete]

/-- A statement in front of both changes nothing. -/
theorem Continues.cons {longer : List Statement} (continues : Continues statements longer)
    (statement : Statement)
    : Continues (statement :: statements) (statement :: longer) := by
  cases continues with
  | apart _ later => exact .apart (statement :: statements) later
  | joined front later literals continued =>
      exact .joined (statement :: front) later literals continued

/-- The statements of a program that lacks no operand go on when more tokens follow, by induction
on the statements.
-/
theorem statements_continue {earlier : List Token}
    (complete : ∀ statement ∈ Assembly.statements set earlier, statement.isComplete = true)
    (later : List Token)
    : Continues (Assembly.statements set earlier) (Assembly.statements set (earlier ++ later)) := by
  fun_induction Assembly.statements set earlier with
  | case1 => exact .apart [] _
  | case2 token rest statement ih =>
      rw [List.cons_append, Assembly.statements]
      rcases starting_append (complete statement (by simp)) later with
        same | ⟨width, more, remaining, continued, rfl, whole, longer⟩
      · have short : statement.tail.length ≤ rest.length :=
          (isPrefix_tail_starting token rest).length_le
        rw [same, List.drop_append_of_le_length short]
        exact (ih fun other member => complete other (by simp [member])).cons statement
      · have whole : statement = .data width token rest := whole
        have left : (rest ++ (more ++ remaining)).drop (rest ++ more).length = remaining := by
          rw [← List.append_assoc, List.drop_left]
        rw [longer, whole]
        simp only [Statement.tail, left, List.drop_length, Assembly.statements]
        exact .joined [] _ rest continued

-----------------------------------------------------------------------------------------
-- Passes
-----------------------------------------------------------------------------------------

/-- A statement that is carried out lacks no operand. -/
theorem Carried.isComplete (carried : Carried set pass symbols counter statement change)
    : statement.isComplete = true := by
  cases carried with
  | move | label | assign | stray => rfl
  | emit inside made fits =>
      cases statement with
      | string directive operand? =>
          obtain ⟨operand, _, rfl, _, _⟩ := effect_string_eq_ok_iff.mp made
          rfl
      | operate token instruction operand? =>
          obtain ⟨operand, _, rfl, _, _⟩ := effect_operate_eq_ok_iff.mp made
          rfl
      | data | label | implied | stray => rfl
      | origin | assign => cases (address_of_effect made).1

/-- Carrying out statements makes one list of changes. -/
theorem Trace.unique (one : Trace set pass symbols counter statements changes)
    (other : Trace set pass symbols counter statements changes')
    : changes = changes' := by
  induction one generalizing changes' with
  | nil =>
      cases other
      rfl
  | cons first rest ih =>
      cases other with
      | cons first' rest' =>
          obtain rfl := first.unique first'
          rw [ih rest']

/-- Programs with a common beginning have common changes, up to where they part. -/
theorem Trace.common (one : Trace set pass symbols counter (front ++ back) changes)
    (other : Trace set pass symbols counter (front ++ back') changes')
    : ∃ earlier later later',
        changes = earlier ++ later
        ∧ changes' = earlier ++ later'
        ∧ Trace set pass ⟨symbols.declarations ++ declarations earlier⟩ (finish counter earlier)
            back later
        ∧ Trace set pass ⟨symbols.declarations ++ declarations earlier⟩ (finish counter earlier)
            back' later' := by
  obtain ⟨earlier, later, rfl, before, after⟩ := one.split
  obtain ⟨earlier', later', rfl, before', after'⟩ := other.split
  obtain rfl := before.unique before'
  exact ⟨earlier, later, later', rfl, rfl, after, after'⟩

/-- What is emitted with some names known is emitted alike with more names behind them. -/
theorem effect_widen (earlier : known.declarations <+: table.declarations) {here : UInt16}
    {effect : Effect} (made : (statement.effect set .assemble known here).outcome = .ok effect)
    : (statement.effect set .assemble table here).outcome = .ok effect := by
  cases statement with
  | origin | data | string | label | assign | implied | stray => exact made
  | operate token instruction operand? =>
      obtain ⟨operand, row, rfl, encoded, rfl⟩ := effect_operate_eq_ok_iff.mp made
      refine effect_operate_eq_ok_iff.mpr ⟨operand, row, rfl, ?_, rfl⟩
      obtain ⟨plain, text, mode, opcode, resolved, rest⟩ := operate_eq_ok_iff.mp encoded
      refine operate_eq_ok_iff.mpr ⟨plain, text, mode, opcode, ?_, rest⟩
      rcases resolve_cases resolved with
        ⟨literal, rfl⟩ | ⟨sought, name, ⟨symbol, meant, substituted⟩ | ⟨_, impossible, _⟩⟩
      · exact resolve_of_literal literal
      · rw [resolve_of_known sought name (get?_of_isPrefix earlier meant)]
        exact substituted
      · cases impossible

theorem Carried.widen (earlier : known.declarations <+: table.declarations)
    (carried : Carried set .assemble known counter statement change)
    : Carried set .assemble table counter statement change := by
  cases carried with
  | move word => exact .move word
  | emit inside made fits => exact .emit inside (effect_widen earlier made) fits
  | label inside fresh => exact .label inside fun impossible => by cases impossible
  | assign fresh => exact .assign fun impossible => by cases impossible
  | stray => exact .stray

/-- A second pass goes the same way when more names are declared behind those it knows. -/
theorem Trace.widen (earlier : known.declarations <+: table.declarations)
    (trace : Trace set .assemble known counter statements changes)
    : Trace set .assemble table counter statements changes := by
  generalize second : Pass.assemble = pass at trace
  induction trace with
  | nil => exact .nil
  | cons first rest ih =>
      subst second
      have widened := first.widen earlier
      rw [first.grow_assemble] at ih
      refine .cons widened ?_
      rw [widened.grow_assemble]
      exact ih earlier

/-- Data is emitted where the counter stands. -/
theorem Carried.eq_dataRow {width : Width} {directive : Token} {literals : List Token}
    (carried : Carried set pass symbols counter (.data width directive literals) change)
    : change = pass.emitted counter (dataRow (UInt16.ofNat counter) width directive literals) := by
  cases carried with
  | emit inside made fits =>
      cases made
      rfl

/-- The first pass declares what it declared before, and maybe more behind it. -/
theorem Continues.declarations {longer : List Statement} (continues : Continues statements longer)
    (one : Trace set .prescan symbols counter statements changes)
    (other : Trace set .prescan symbols counter longer changes')
    : declarations changes <+: declarations changes' := by
  cases continues with
  | apart _ later =>
      rw [← List.append_nil statements] at one
      obtain ⟨earlier, _, more, rfl, rfl, ended, -⟩ := one.common other
      cases ended
      simp [Assembly.declarations, List.filterMap_append]
  | joined front later literals continued =>
      obtain ⟨earlier, _, _, rfl, rfl, last, last'⟩ := one.common other
      cases last with
      | cons first ended =>
          cases ended
          obtain rfl := first.eq_dataRow
          simp [Assembly.declarations, Pass.emitted, List.filterMap_append]

/-- The second pass lists what it listed before, and maybe more. -/
theorem Continues.rows {longer : List Statement} (continues : Continues statements longer)
    (one : Trace set .assemble table counter statements changes)
    (other : Trace set .assemble table counter longer changes')
    : ListingContinues (rows changes) (rows changes') := by
  cases continues with
  | apart _ later =>
      rw [← List.append_nil statements] at one
      obtain ⟨earlier, _, more, rfl, rfl, ended, -⟩ := one.common other
      cases ended
      rw [List.append_nil, Assembly.rows, Assembly.rows, List.filterMap_append]
      exact .apart _ _
  | joined front later literals continued =>
      obtain ⟨earlier, _, _, rfl, rfl, last, last'⟩ := one.common other
      cases last with
      | cons first ended =>
          cases ended
          cases last' with
          | cons first' rest' =>
              obtain rfl := first.eq_dataRow
              obtain rfl := first'.eq_dataRow
              rw [rows_append_emitted, rows_append_emitted]
              exact .joined _ _ _ literals continued

/-- The bytes of a listing that goes on come first. -/
theorem ListingContinues.bytes {listing longer : List Row}
    (continues : ListingContinues listing longer)
    : listing.flatMap (·.bytes) <+: longer.flatMap (·.bytes) := by
  cases continues with
  | apart _ later => simp
  | joined front later here literals continued => simp [dataRow]

-----------------------------------------------------------------------------------------
-- Runs
-----------------------------------------------------------------------------------------

/-- Appending code changes nothing of what is assembled already. The bytes and the symbols of a
program come first in those of the program with more lines behind it, and so do the rows, except
that numbers at the very end may be continued by more numbers.
-/
theorem runSource_append {assembler : Assembler} {file first second : String} {base : UInt16}
    {output longer : Output}
    (succeeded : (assembler.runSource file first base).2 = .ok output)
    (continued : (assembler.runSource file (first ++ "\n" ++ second) base).2 = .ok longer)
    : output.bytes <+: longer.bytes
      ∧ output.symbols.declarations <+: longer.symbols.declarations
      ∧ ListingContinues output.rows longer.rows := by
  obtain ⟨earlier, log, expanded, assembled⟩ := expand_of_runSource succeeded
  obtain ⟨whole, log', expanded', assembled'⟩ := expand_of_runSource continued
  obtain ⟨later, rfl⟩ := Source.expand_prefix_append expanded expanded'
  obtain ⟨firsts, seconds, passes, -, rfl⟩ := twoPass_eq_ok_iff.mp assembled
  obtain ⟨firsts', seconds', passes', -, rfl⟩ := twoPass_eq_ok_iff.mp assembled'
  have continues : Continues (Assembly.statements assembler.set earlier)
      (Assembly.statements assembler.set (earlier ++ later)) := by
    apply statements_continue
    intro statement member
    obtain ⟨_, _, _, carried⟩ := passes.prescan.carried_of_mem member
    exact carried.isComplete
  have declared := continues.declarations passes.prescan passes'.prescan
  have listed := continues.rows (passes.assemble.widen declared) passes'.assemble
  exact ⟨listed.bytes, declared, listed⟩

/-- A byte at the end of a program, whose last line has no end but a carriage return, is continued
by the number that the next line starts with.
-/
theorem runSource_append_number
    : let first := "loop: JMP loop\n.byte $01\r"
      ∃ output longer,
        (smallAssembler.runSource "t" first 0x1000).2 = .ok output
        ∧ output.bytes = [0x4C, 0x00, 0x10, 0x01]
        ∧ (smallAssembler.runSource "t" (first ++ "\n" ++ "$02 next: JMP next") 0x1000).2
          = .ok longer
        ∧ longer.bytes = [0x4C, 0x00, 0x10, 0x01, 0x02, 0x4C, 0x05, 0x10]
        ∧ output.symbols.declarations <+: longer.symbols.declarations
        ∧ ListingContinues output.rows longer.rows := by
  intro first
  have evaluated : (smallAssembler.runSource "t" first 0x1000).2.toOption.map (·.bytes)
        = some [0x4C, 0x00, 0x10, 0x01]
      ∧ (smallAssembler.runSource "t" (first ++ "\n" ++ "$02 next: JMP next")
          0x1000).2.toOption.map (·.bytes)
        = some [0x4C, 0x00, 0x10, 0x01, 0x02, 0x4C, 0x05, 0x10] := by
    decide +kernel
  obtain ⟨emitted, emitted'⟩ := evaluated
  obtain ⟨output, found, bytes⟩ := Option.map_eq_some_iff.mp emitted
  obtain ⟨longer, found', bytes'⟩ := Option.map_eq_some_iff.mp emitted'
  have succeeded := eq_ok_of_toOption found
  have continued := eq_ok_of_toOption found'
  obtain ⟨-, declared, listed⟩ := runSource_append succeeded continued
  exact ⟨output, longer, succeeded, bytes, continued, bytes', declared, listed⟩

end Asm6510.Assembly
