import Asm6510.Proofs.Assembly.Linking
import Asm6510.Proofs.Assembly.Messages
import Asm6510.Proofs.Assembly.Phases

/-! Every token is accounted for. The statements of a stream are its tokens cut into spans, and a
run that succeeds has a row for each span that emits, a symbol for each that declares and a warning
for each that is ignored, in the order of the spans; what is left are origins. The origins and the
lengths of the rows say where every row stands.
-/

namespace Asm6510.Assembly

open Machine (Instruction InstructionSet)
open Operand
open Progress (Change)
open Report (Log Message)
open Source (Token)

namespace Statement

/-- Whether a statement gives a name a meaning. -/
def declares : Statement → Bool
  | label _ _ | assign _ _ _ => true
  | origin _ _ | data _ _ _ | string _ _ | implied _ _ _ | operate _ _ _ | stray _ => false

/-- Whether a statement is a token that is ignored. -/
def isIgnored : Statement → Bool
  | stray _ => true
  | _ => false

/-- The warning about a token that is ignored. -/
def warning (statement : Statement) : Message :=
  .warn ("ignored token `" ++ statement.head.text ++ "`") statement.pos

/-- The address that an origin moves the counter to. -/
def target? : Statement → Option UInt16
  | origin _ (some operand) => wordValue? operand.text
  | _ => none

/-- A statement that emits declares nothing. -/
theorem declares_of_emits {statement : Statement} (emitting : statement.emits = true)
    : statement.declares = false := by
  cases statement <;> simp_all [emits, declares]

end Statement

/-- The address that the last origin among some statements moves the counter to. -/
def lastTarget? (statements : List Statement) : Option UInt16 :=
  (statements.filterMap Statement.target?).getLast?

/-- The warnings among some messages. -/
def warnings (messages : List Message) : List Message :=
  messages.filter (·.level == .warn)

/-- The warnings of a pass over some statements. Only the first pass warns. -/
def Pass.warnings (statements : List Statement) : Pass → List Message
  | prescan => (statements.filter Statement.isIgnored).map Statement.warning
  | assemble => []

variable {set : InstructionSet} {pass : Pass} {symbols table : Symbols} {here : UInt16}
  {counter : Nat} {statement : Statement} {statements : List Statement} {change : Change}
  {changes : List Change} {row : Row} {expected? : Option Nat} {before after : Progress}

-----------------------------------------------------------------------------------------
-- Warnings
-----------------------------------------------------------------------------------------

@[simp]
theorem warnings_append (messages others : List Message)
    : warnings (messages ++ others) = warnings messages ++ warnings others :=
  List.filter_append ..

open Logged

/-- Carrying out a statement warns of a token that the first pass ignores, and of nothing else. -/
theorem warnings_attempt
    : warnings (before.attempt set pass expected? statement).messages
      = pass.warnings [statement] := by
  cases ignored : statement.isIgnored with
  | true =>
      cases statement with
      | stray token => cases pass <;> rfl
      | origin | data | string | label | assign | implied | operate => cases ignored
  | false =>
      have quiet : (before.attempt set pass expected? statement).Quiet .warn := by
        refine (quiet_ofExcept _).bind fun _ _ => ?_
        refine (quiet_effect (by decide) statement).bind fun effect made => ?_
        refine quiet_change (by decide) ?_ fun _ _ _ _ => .inr (by decide)
        rintro rfl
        rcases effect_cases made with
          ⟨_, other, -⟩ | ⟨_, _, _, -, -, other⟩ | ⟨_, _, -, other⟩ | ⟨_, _, _, -, other⟩
          | ⟨token, rfl, -⟩
        · cases other
        · cases other
        · cases other
        · cases other
        · cases ignored
      rw [warnings, ← ofLevel, quiet]
      cases pass <;> simp [Pass.warnings, ignored]

theorem Pass.warnings_cons
    : pass.warnings (statement :: statements)
      = pass.warnings [statement] ++ pass.warnings statements := by
  cases pass with
  | assemble => rfl
  | prescan => cases ignored : statement.isIgnored <;> simp [Pass.warnings, ignored]

theorem Pass.flatMap_warnings
    : (statements.flatMap fun statement => pass.warnings [statement]) = pass.warnings statements := by
  induction statements with
  | nil => cases pass <;> rfl
  | cons statement statements ih => rw [List.flatMap_cons, ih, ← Pass.warnings_cons]

/-- A pass that succeeds warns of the tokens that it ignores, in their order. -/
theorem warnings_walk {items : List (Statement × Option Nat)}
    (walked : Progress.walk set pass items before = (after, none))
    : warnings after.log.messages.toList
      = warnings before.log.messages.toList ++ pass.warnings (items.map (·.1)) := by
  rw [← Pass.flatMap_warnings]
  refine ofLevel_walk _ (fun progress expected? statement messages change attempted => ?_) walked
  have told : warnings (progress.attempt set pass expected? statement).messages = _ :=
    warnings_attempt
  rwa [attempted] at told

theorem warnings_prescan
    (measuring : Progress.prescan before set statements = (after, none))
    : warnings after.log.messages.toList
      = warnings before.log.messages.toList ++ Pass.prescan.warnings statements := by
  have told := warnings_walk measuring
  simpa [Function.comp_def] using told

theorem warnings_assemble {base : UInt16}
    (emitting : Progress.assemble before set statements base = (after, none))
    : warnings after.log.messages.toList = warnings before.log.messages.toList := by
  rw [Progress.assemble] at emitting
  split at emitting
  · cases emitting
  · rename_i done walked
    split at emitting
    · obtain rfl : done = after := congrArg Prod.fst emitting
      have told := warnings_walk walked
      simpa [Pass.warnings] using told
    · cases emitting

/-- A run that succeeds warns of the tokens that its first pass ignores. -/
theorem warnings_twoPass {tokens : List Token} {base : UInt16} {log : Log} {output : Output}
    (succeeded : (twoPass set tokens base log).2 = .ok output)
    : warnings (twoPass set tokens base log).1.messages.toList
      = warnings log.messages.toList
        ++ Pass.prescan.warnings (Assembly.statements set tokens) := by
  unfold twoPass at succeeded ⊢
  dsimp only at succeeded ⊢
  split at succeeded
  · cases succeeded
  · rename_i measured measuring
    split at succeeded
    · cases succeeded
    · rename_i done emitting
      have first := warnings_prescan measuring
      have second := warnings_assemble emitting
      simp only [Log.push, Array.toList_push, warnings_append] at second ⊢
      rw [second, first]
      simp [warnings, Message.info]

theorem warnings_runSource {assembler : Assembler} {file code : String} {base : UInt16}
    {tokens : List Token} {output : Output}
    (expanded : (Source.expand assembler.library assembler.root file code).outcome = .ok tokens)
    (succeeded : (assembler.runSource file code base).2 = .ok output)
    : warnings (assembler.runSource file code base).1.log.messages.toList
      = Pass.prescan.warnings (Assembly.statements assembler.set tokens) := by
  simp only [Assembler.runSource, expanded] at succeeded ⊢
  rw [warnings_twoPass succeeded]
  rfl

-----------------------------------------------------------------------------------------
-- Spans
-----------------------------------------------------------------------------------------

/-- Statements that are the tokens of a stream cut into spans, each the statement that its first
token starts, given the tokens behind it.
-/
structure Cut (set : InstructionSet) (tokens : List Token) (spans : List Statement) : Prop where
  whole : spans.flatMap Statement.tokens = tokens
  started : ∀ front span back,
    spans = front ++ span :: back
    → span = Statement.starting set span.head (span.tail ++ back.flatMap Statement.tokens)

theorem cut_statements (set : InstructionSet) (tokens : List Token)
    : Cut set tokens (Assembly.statements set tokens) := by
  refine ⟨flatMap_tokens_statements tokens, ?_⟩
  fun_induction Assembly.statements set tokens with
  | case1 => simp
  | case2 token rest statement ih =>
      intro front span back split
      cases front with
      | nil =>
          obtain ⟨rfl, rfl⟩ := List.cons.inj split
          have cut : statement.tail ++ rest.drop statement.tail.length = rest :=
            List.prefix_iff_eq_append.mp (isPrefix_tail_starting token rest)
          have head : statement.head = token := head_starting token rest
          rw [flatMap_tokens_statements, cut, head]
      | cons first front =>
          exact ih front span back (List.cons.inj split).2

/-- There is one way to cut a stream, by induction on the spans. -/
theorem Cut.unique {tokens : List Token} {spans : List Statement} (cut : Cut set tokens spans)
    : spans = Assembly.statements set tokens := by
  induction spans generalizing tokens with
  | nil =>
      obtain rfl : [] = tokens := cut.whole
      simp [Assembly.statements]
  | cons span spans ih =>
      have started := cut.started [] span spans rfl
      have rest : Cut set (spans.flatMap Statement.tokens) spans :=
        ⟨rfl, fun front other back split =>
          cut.started (span :: front) other back (by simp [split])⟩
      have whole : tokens = span.head :: (span.tail ++ spans.flatMap Statement.tokens) := by
        rw [← cut.whole]
        rfl
      rw [whole, Assembly.statements, ← started, List.drop_left, ← ih rest]

-----------------------------------------------------------------------------------------
-- Rows and declarations
-----------------------------------------------------------------------------------------

/-- Each statement of a trace is carried out by its change, with some symbols at some counter. -/
theorem Trace.forall₂ (trace : Trace set pass symbols counter statements changes)
    : List.Forall₂ (fun statement change => ∃ known start, Carried set pass known start statement
        change) statements changes := by
  induction trace with
  | nil => exact .nil
  | cons first rest ih => exact .cons ⟨_, _, first⟩ ih

/-- The second pass uses one table throughout. -/
theorem Trace.forall₂_assemble (trace : Trace set .assemble table counter statements changes)
    : List.Forall₂ (fun statement change => ∃ start, Carried set .assemble table start statement
        change) statements changes := by
  generalize second : Pass.assemble = pass at trace
  induction trace with
  | nil => exact .nil
  | cons first rest ih =>
      subst second
      rw [first.grow_assemble] at ih
      exact .cons ⟨_, first⟩ ih

/-- What is picked from two lists that are related one by one is related one by one, if both sides
are picked together.
-/
theorem forall₂_picked {α β γ : Type} {related : α → β → Prop} {result : α → γ → Prop}
    {picked : α → Bool} {pick? : β → Option γ} {xs : List α} {ys : List β}
    (all : List.Forall₂ related xs ys)
    (none : ∀ x y, related x y → picked x = false → pick? y = none)
    (some : ∀ x y, related x y → picked x = true → ∃ z, pick? y = some z ∧ result x z)
    : List.Forall₂ result (xs.filter picked) (ys.filterMap pick?) := by
  induction all with
  | nil => exact .nil
  | @cons x y xs ys first rest ih =>
      cases chosen : picked x with
      | false => simpa [chosen, none x y first chosen] using ih
      | true =>
          obtain ⟨z, found, holds⟩ := some x y first chosen
          simpa [chosen, found] using ⟨holds, ih⟩

/-- A row stands at the place of its statement. -/
theorem pos_of_effect (made : (statement.effect set pass symbols here).outcome = .ok (.emit row))
    : row.pos = statement.pos := by
  cases statement with
  | origin directive operand? =>
      obtain ⟨_, _, -, -, other⟩ := effect_origin_eq_ok_iff.mp made
      cases other
  | assign token name value? =>
      obtain ⟨_, -, other⟩ := effect_assign_eq_ok_iff.mp made
      cases other
  | string directive operand? =>
      obtain ⟨_, _, -, -, same⟩ := effect_string_eq_ok_iff.mp made
      cases same
      rfl
  | operate token instruction operand? =>
      obtain ⟨_, _, -, made, same⟩ := effect_operate_eq_ok_iff.mp made
      cases same
      exact pos_of_operate made
  | data | implied =>
      cases made
      rfl
  | label | stray => cases made

/-- The rows of a second pass are those of the statements that emit, one by one. -/
theorem Trace.forall₂_rows (trace : Trace set .assemble table counter statements changes)
    : List.Forall₂
        (fun statement row =>
          row.pos = statement.pos
          ∧ (statement.effect set .assemble table row.address).outcome = .ok (.emit row))
        (statements.filter Statement.emits) (rows changes) := by
  refine forall₂_picked trace.forall₂_assemble ?_ ?_
  · rintro statement change ⟨start, carried⟩ silent
    simpa [silent] using carried.isSome_row?_assemble
  · rintro statement change ⟨start, carried⟩ emitting
    cases carried with
    | move | label | assign | stray => cases emitting
    | @emit _ row inside made fits =>
        refine ⟨row, rfl, pos_of_effect made, ?_⟩
        rw [(address_of_effect made).2]
        exact made

/-- The declarations of a first pass are those of the statements that declare, one by one. -/
theorem Trace.forall₂_declarations (trace : Trace set .prescan symbols counter statements changes)
    : List.Forall₂
        (fun statement declaration =>
          declaration.pos = statement.pos
          ∧ ∃ start, statement.binding? start = some declaration.meaning)
        (statements.filter Statement.declares) (declarations changes) := by
  refine forall₂_picked trace.forall₂ ?_ ?_
  · rintro statement change ⟨known, start, carried⟩ silent
    cases carried with
    | move | emit | stray => rfl
    | label | assign => cases silent
  · rintro statement change ⟨known, start, carried⟩ declaring
    cases carried with
    | move | stray => cases declaring
    | emit inside made fits =>
        rw [Statement.declares_of_emits (address_of_effect made).1] at declaring
        cases declaring
    | label | assign => exact ⟨_, rfl, rfl, start, rfl⟩

-----------------------------------------------------------------------------------------
-- Addresses
-----------------------------------------------------------------------------------------

variable {between front back : List Statement} {first next : Statement}

theorem lastTarget?_cons
    : lastTarget? (statement :: statements)
      = (lastTarget? statements).or statement.target? := by
  cases found : statement.target? with
  | none => simp [lastTarget?, found]
  | some address =>
      simp only [lastTarget?, List.filterMap_cons, found, List.getLast?_cons]
      cases (statements.filterMap Statement.target?).getLast? <;> rfl

/-- A statement that emits nothing leaves the counter where it is, unless it is an origin. -/
theorem Carried.counter_of_silent (carried : Carried set pass symbols counter statement change)
    (silent : statement.emits = false)
    : change.counter = (statement.target?.map UInt16.toNat).getD counter := by
  cases carried with
  | move word => simp [Statement.target?, word]
  | emit inside made fits =>
      rw [(address_of_effect made).1] at silent
      cases silent
  | label | assign | stray => rfl

/-- Statements that emit nothing lead to the last origin among them, by induction on the trace. -/
theorem Trace.finish_of_silent (trace : Trace set pass symbols counter statements changes)
    (silent : ∀ statement ∈ statements, statement.emits = false)
    : finish counter changes = ((lastTarget? statements).map UInt16.toNat).getD counter := by
  induction trace with
  | nil => rfl
  | @cons symbols counter statement statements change changes first rest ih =>
      rw [finish, ih fun other member => silent other (by simp [member]),
        first.counter_of_silent (silent statement (by simp)), lastTarget?_cons]
      cases lastTarget? statements <;> rfl

/-- The first row stands where the last origin before it leads, or else where the pass starts. -/
theorem Trace.first_row
    (trace : Trace set .assemble table counter (between ++ next :: back) changes)
    (silent : ∀ statement ∈ between, statement.emits = false) (emitting : next.emits = true)
    : ∃ row,
        (rows changes)[0]? = some row
        ∧ row.address.toNat = ((lastTarget? between).map UInt16.toNat).getD counter := by
  obtain ⟨earlier, later, rfl, waiting, after⟩ := trace.split_assemble
  have none : rows earlier = [] := by
    have count : between.countP Statement.emits = 0 :=
      List.countP_eq_zero.mpr fun statement member => by simp [silent statement member]
    rw [← List.length_eq_zero_iff, waiting.length_rows, count]
  cases after with
  | @cons _ _ _ _ change later carried rest =>
      cases carried with
      | move | label | assign | stray => cases emitting
      | @emit _ row inside made fits =>
          refine ⟨row, ?_, ?_⟩
          · rw [rows_append_emitted, none]
            rfl
          · rw [toNat_address_of_effect inside made, waiting.finish_of_silent silent]

/-- A pass that starts at an address has its first row at an address, too. -/
theorem Trace.first_address {base : UInt16}
    (trace : Trace set .assemble table base.toNat (between ++ next :: back) changes)
    (silent : ∀ statement ∈ between, statement.emits = false) (emitting : next.emits = true)
    : ∃ row, (rows changes)[0]? = some row ∧ row.address = (lastTarget? between).getD base := by
  obtain ⟨row, listed, placed⟩ := trace.first_row silent emitting
  refine ⟨row, listed, UInt16.toNat_inj.mp ?_⟩
  rw [placed]
  cases lastTarget? between <;> rfl

/-- A row stands where the last origin behind the row before it leads, or else at its end. -/
theorem Trace.next_row
    (trace : Trace set .assemble table counter (front ++ first :: (between ++ next :: back))
      changes)
    (emits : first.emits = true) (silent : ∀ statement ∈ between, statement.emits = false)
    (emitting : next.emits = true)
    : ∃ previous row,
        (rows changes)[front.countP Statement.emits]? = some previous
        ∧ (rows changes)[front.countP Statement.emits + 1]? = some row
        ∧ row.address.toNat
          = ((lastTarget? between).map UInt16.toNat).getD
              (previous.address.toNat + previous.bytes.length) := by
  obtain ⟨earlier, later, rfl, before, after⟩ := trace.split_assemble
  cases after with
  | @cons _ _ _ _ change later carried rest =>
      rw [carried.grow_assemble] at rest
      obtain ⟨row, listed, placed⟩ := rest.first_row silent emitting
      cases carried with
      | move | label | assign | stray => cases emits
      | @emit _ previous inside made fits =>
          refine ⟨previous, row, ?_, ?_, ?_⟩
          · simp [rows_append_emitted, ← before.length_rows]
          · rw [rows_append_emitted, ← before.length_rows, List.getElem?_append_right (by omega),
              Nat.add_sub_cancel_left]
            exact listed
          · rw [placed, toNat_address_of_effect inside made]
            rfl

-----------------------------------------------------------------------------------------
-- A run
-----------------------------------------------------------------------------------------

/-- Spans that account for all that a run from `base` puts out and warns of. -/
structure Accounted (set : InstructionSet) (base : UInt16) (spans : List Statement) (log : Log)
    (output : Output) : Prop where
  /-- Each span that emits has its row. -/
  rows : List.Forall₂
    (fun span row =>
      row.pos = span.pos
      ∧ (span.effect set .assemble output.symbols row.address).outcome = .ok (.emit row))
    (spans.filter Statement.emits) output.rows
  /-- Each span that declares a name has its symbol. -/
  symbols : List.Forall₂
    (fun span declaration =>
      declaration.pos = span.pos
      ∧ ∃ start, span.binding? start = some declaration.meaning)
    (spans.filter Statement.declares) output.symbols.declarations
  /-- Each span that is ignored has its warning. -/
  warnings : warnings log.messages.toList
    = (spans.filter Statement.isIgnored).map Statement.warning
  /-- A span that is ignored is one token. -/
  single : ∀ span ∈ spans, span.isIgnored = true → span.tokens = [span.head]
  /-- Any other span is an origin with its address. -/
  origins : ∀ span ∈ spans,
    span.emits = false
    → span.declares = false
    → span.isIgnored = false
    → ∃ directive operand address,
        span = .origin directive (some operand)
        ∧ directive.kind = .directive .org
        ∧ wordValue? operand.text = some address
  /-- The bytes are those of the rows. -/
  bytes : output.bytes = output.rows.flatMap (·.bytes)
  /-- The first row stands at the last origin before it, or else at the base. -/
  first : ∀ between span back,
    spans = between ++ span :: back
    → (∀ other ∈ between, other.emits = false)
    → span.emits = true
    → ∃ row,
        output.rows[0]? = some row
        ∧ row.address = (lastTarget? between).getD base
  /-- Any other row stands at the last origin behind the row before it, or else at its end. -/
  next : ∀ front previous between span back,
    spans = front ++ previous :: (between ++ span :: back)
    → previous.emits = true
    → (∀ other ∈ between, other.emits = false)
    → span.emits = true
    → ∃ earlier row,
        output.rows[front.countP Statement.emits]? = some earlier
        ∧ output.rows[front.countP Statement.emits + 1]? = some row
        ∧ row.address.toNat
          = ((lastTarget? between).map UInt16.toNat).getD
              (earlier.address.toNat + earlier.bytes.length)

/-- A statement that succeeds without emitting, declaring or being ignored is an origin. -/
theorem Carried.origin_of_rest (carried : Carried set pass symbols counter statement change)
    (silent : statement.emits = false) (nameless : statement.declares = false)
    (heeded : statement.isIgnored = false)
    : ∃ directive operand address,
        statement = .origin directive (some operand) ∧ wordValue? operand.text = some address := by
  cases carried with
  | move word => exact ⟨_, _, _, rfl, word⟩
  | emit inside made fits =>
      rw [(address_of_effect made).1] at silent
      cases silent
  | label | assign => cases nameless
  | stray => cases heeded

theorem Trace.carried_of_mem (trace : Trace set pass symbols counter statements changes)
    (member : statement ∈ statements)
    : ∃ known start change, Carried set pass known start statement change := by
  induction trace with
  | nil => cases member
  | cons first rest ih =>
      rcases List.mem_cons.mp member with rfl | later
      · exact ⟨_, _, _, first⟩
      · exact ih later

/-- Every token is accounted for. The tokens of a run that succeeds are cut into spans in one way,
both passes go through these spans, and they account for all that the run puts out and warns of.
-/
theorem runSource_accounted {assembler : Assembler} {file code : String} {base : UInt16}
    {output : Output} (succeeded : (assembler.runSource file code base).2 = .ok output)
    : ∃ tokens spans,
        (Source.expand assembler.library assembler.root file code).outcome = .ok tokens
        ∧ Cut assembler.set tokens spans
        ∧ (∀ others, Cut assembler.set tokens others → others = spans)
        ∧ (∀ log, ∃ measured,
            Progress.prescan { counter := base.toNat, log } assembler.set spans = (measured, none)
            ∧ measured.symbols = output.symbols
            ∧ ∀ note, ∃ done,
                Progress.assemble { measured with log := note } assembler.set spans base
                  = (done, none)
                ∧ done.rows.toList = output.rows)
        ∧ Accounted assembler.set base spans (assembler.runSource file code base).1.log output := by
  have told := @warnings_runSource assembler file code base
  obtain ⟨tokens, log, expanded, assembled⟩ := expand_of_runSource succeeded
  obtain ⟨firsts, seconds, passes, ended, rfl⟩ := twoPass_eq_ok_iff.mp assembled
  refine ⟨tokens, Assembly.statements assembler.set tokens, expanded, cut_statements _ _,
    fun others cut => cut.unique, ?_, ?_⟩
  · intro log
    obtain ⟨measured, measuring, reached, emits⟩ := passes.runs log ended
    refine ⟨measured, measuring, congrArg Symbols.mk reached.symbols, fun note => ?_⟩
    obtain ⟨done, emitting, emitted⟩ := emits note
    exact ⟨done, emitting, emitted.rows⟩
  · exact {
      rows := passes.assemble.forall₂_rows
      symbols := passes.prescan.forall₂_declarations
      warnings := told expanded succeeded
      single := by
        intro span member ignored
        cases span <;> first | rfl | cases ignored
      origins := by
        intro span member silent nameless heeded
        obtain ⟨_, _, _, carried⟩ := passes.prescan.carried_of_mem member
        obtain ⟨directive, operand, address, rfl, word⟩ :=
          carried.origin_of_rest silent nameless heeded
        obtain ⟨token, rest, -, started⟩ := exists_starting_of_mem member
        obtain ⟨rfl, kind, -⟩ := starting_eq_origin started
        exact ⟨_, operand, address, rfl, kind, word⟩
      bytes := rfl
      first := by
        intro between span back split silent emitting
        have trace := passes.assemble
        rw [split] at trace
        exact trace.first_address silent emitting
      next := by
        intro front previous between span back split emits silent emitting
        have trace := passes.assemble
        rw [split] at trace
        exact trace.next_row emits silent emitting
    }

/-- A program with a span of each kind: a jump, a token that is ignored, an origin, a label, a
variable and a byte.
-/
def sundryCode : String :=
  "JMP here odd .org $C010 here: v = $10 .byte $01"

theorem runSource_accounted_sundry
    : ∃ output spans,
        (smallAssembler.runSource "t" sundryCode 0xC000).2 = .ok output
        ∧ Accounted smallSet 0xC000 spans (smallAssembler.runSource "t" sundryCode 0xC000).1.log
            output
        ∧ spans.map (fun span => (span.tokens.length, span.emits, span.declares, span.isIgnored))
          = [(2, true, false, false), (1, false, false, true), (2, false, false, false),
              (1, false, true, false), (2, false, true, false), (2, true, false, false)]
        ∧ output.rows.map (fun row => (row.address, row.bytes))
          = [(0xC000, [0x4C, 0x10, 0xC0]), (0xC010, [0x01])] := by
  have listed : (smallAssembler.runSource "t" sundryCode 0xC000).2.toOption.map
        (fun output => output.rows.map fun row => (row.address, row.bytes))
      = some [(0xC000, [0x4C, 0x10, 0xC0]), (0xC010, [0x01])] := by
    decide +kernel
  have spanned : (Source.expand smallAssembler.library smallAssembler.root "t"
        sundryCode).outcome.toOption.map
        (fun tokens => (Assembly.statements smallSet tokens).map fun span =>
          (span.tokens.length, span.emits, span.declares, span.isIgnored))
      = some [(2, true, false, false), (1, false, false, true), (2, false, false, false),
          (1, false, true, false), (2, false, true, false), (2, true, false, false)] := by
    decide +kernel
  cases succeeded : (smallAssembler.runSource "t" sundryCode 0xC000).2 with
  | error fault => simp [succeeded, Except.toOption] at listed
  | ok output =>
      obtain ⟨tokens, spans, expanded, cut, -, -, accounted⟩ := runSource_accounted succeeded
      obtain rfl : spans = Assembly.statements smallSet tokens := cut.unique
      rw [expanded] at spanned
      rw [succeeded] at listed
      exact ⟨output, _, rfl, accounted, Option.some.inj spanned, Option.some.inj listed⟩

end Asm6510.Assembly
