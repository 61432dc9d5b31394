import Asm6510.Proofs.Assembly.Bindings
import Asm6510.Proofs.Assembly.Statements
import Mathlib.Logic.Function.Basic

/-! Statements carried out in place. All that a pass writes to lies on one desk, which an action
changes piece by piece until it ends or fails; what it has written by then stays written. A
statement makes all its checks before it touches what a pass works on, so that it ends with the
change of a step, or with nothing on the desk but messages and its start.
-/

namespace Asm6510.Assembly

open Machine (Instruction InstructionSet)
open Operand
open Progress (Change)
open Report (Log Message)
open Source (Position Token)
open Text

/-- What both passes work on. -/
structure Desk where
  /-- The pass under way. -/
  pass : Pass
  /-- The address of the next byte. -/
  counter : Nat
  /-- The counter at the end of the first pass. -/
  finish : Nat
  bytes : Array UInt8
  symbols : Symbols
  rows : Array Row
  log : Log
  /-- Where the first pass has found the statements that emit, by the index of their first token. -/
  starts : Nat → Option UInt16

/-- An action on a desk, which may fail. -/
abbrev Action := EStateM Fault Desk

-----------------------------------------------------------------------------------------
-- Actions
-----------------------------------------------------------------------------------------

namespace Action

variable {α : Type}

/-- Stops with a cause that has no place yet. -/
def stop (cause : Cause) : Action α :=
  throw ⟨cause, []⟩

/-- Writes a message. -/
def note (message : Message) : Action Unit :=
  modify fun desk => { desk with log := desk.log.push message }

/-- Computes something that takes nothing but messages to the desk. -/
def compute (computation : Logged α) : Action α := do
  modify fun desk => { desk with log := desk.log.append computation.messages }
  match computation.result with
  | .ok a => return a
  | .error fault => throw fault

/-- The address of the next byte, which must be one. -/
def here : Action UInt16 := do
  let desk ← get
  if desk.counter < addressSpace then return UInt16.ofNat desk.counter
  else stop .addressOverflow

/-- Remembers where a statement starts, or checks that it starts where it did. -/
def checkStart (index : Nat) : Action Unit := do
  let address ← here
  let desk ← get
  match desk.pass, desk.starts index with
  | .prescan, _ =>
      modify fun desk => { desk with starts := Function.update desk.starts index (some address) }
  | .assemble, some expected =>
      if expected = address then return
      else stop (.addressDrift expected.toNat desk.counter)
  | .assemble, none => return

/-- Moves the counter past bytes, which must fit. The second pass keeps them and lists them. -/
def emit (bytes : List UInt8) (text : String) (reference? : Option String) (pos : Position)
    : Action Unit := do
  let address ← here
  let desk ← get
  let counter := desk.counter + bytes.length
  if addressSpace < counter then stop .addressOverflow
  else
    modify fun desk => { desk with counter }
    match desk.pass with
    | .prescan => return
    | .assemble =>
        modify fun desk => { desk with bytes := desk.bytes.appendList bytes }
        modify fun desk =>
          { desk with rows := desk.rows.push { address, bytes, text, reference?, pos } }

/-- Enters a name among the symbols. When the name is taken, the log points at its first
declaration.
-/
def declare (name : String) (pos : Position) (symbol : Symbol) : Action Unit := do
  if let some first := (← get).symbols.pos? name then
    note ⟨.error, "`" ++ name ++ "` first declared here", some first⟩
  match (← get).symbols.insert ⟨name, pos, symbol⟩ with
  | .ok symbols => modify fun desk => { desk with symbols }
  | .error cause => stop cause

/-- Reports a token that starts no statement. -/
def ignore (token : Token) : Action Unit := do
  match (← get).pass with
  | .prescan => note (.warn ("ignored token `" ++ token.text ++ "`") token.pos)
  | .assemble => return

/-- Moves the counter to the address behind a directive. -/
def origin (token : Token) (rest : List Token) : Action Nat := do
  let operand ← compute (required token rest.head?)
  match wordValue? operand.text with
  | none => stop (.invalidOrgOperand operand.text)
  | some address =>
      modify fun desk => { desk with counter := address.toNat }
      note (.diag ("origin moved to $" ++ Hex.word address) token.pos)
      return 1

/-- Declares a label, or checks that it is where it was declared. -/
def label (token : Token) (name : String) : Action Nat := do
  let address ← here
  let desk ← get
  match desk.pass, desk.symbols.get? name with
  | .prescan, _ =>
      declare name token.pos (.label address)
      note (.diag ("label `" ++ name ++ "` = $" ++ Hex.word address) token.pos)
      return 0
  | .assemble, some (.label expected) =>
      if expected = address then return 0
      else stop (.addressDrift expected.toNat desk.counter)
  | .assemble, _ => return 0

/-- Declares a variable. -/
def assign (token : Token) (name : String) (rest : List Token) : Action Nat := do
  let value ← compute (required token rest.head?)
  match (← get).pass with
  | .prescan =>
      declare name token.pos (.assigned value.text)
      note (.diag ("variable `" ++ name ++ "` = `" ++ value.text ++ "`") token.pos)
      return 1
  | .assemble => return 1

/-- Emits the numbers behind a directive. -/
def data (width : Width) (index : Nat) (token : Token) (rest : List Token) : Action Nat := do
  checkStart index
  let literals := rest.takeWhile fun next => width.holds next.text
  emit (literals.flatMap fun literal => width.encode literal.text)
    (String.intercalate " " (token.text :: literals.map (·.text))) none token.pos
  return literals.length

/-- Emits the text behind a directive, and a zero. -/
def string (index : Nat) (token : Token) (rest : List Token) : Action Nat := do
  checkStart index
  let operand ← compute (required token rest.head?)
  match operand.kind with
  | .text content =>
      emit (encode content ++ [0]) (token.text ++ " " ++ operand.text) none token.pos
      return 1
  | _ => throw (Fault.placed (.invalidString token.text) operand.pos)

/-- Emits an instruction, with its operand if it takes one. -/
def instruction (set : InstructionSet) (instruction : Instruction) (index : Nat) (token : Token)
    (rest : List Token) : Action Nat := do
  checkStart index
  match instruction.opcode? .implied with
  | some opcode =>
      emit [opcode] instruction.mnemonic none token.pos
      return 0
  | none =>
      let operand ← compute (required token rest.head?)
      let address ← here
      let desk ← get
      let row ← compute
        (operate set desk.pass desk.symbols address token instruction operand)
      emit row.bytes row.text row.reference? token.pos
      return 1

/-- Carries out the statement that a token starts, and returns how many tokens it goes on with. -/
def statement (set : InstructionSet) (index : Nat) (token : Token) (rest : List Token)
    : Action Nat :=
  match token.kind with
  | .directive .org => origin token rest
  | .directive .byte => data .byte index token rest
  | .directive .word => data .word index token rest
  | .directive .string => string index token rest
  | .label name => label token name
  | .assignment name => assign token name rest
  | .ident =>
      match set.lookup token.text with
      | some found => instruction set found index token rest
      | none => do
          ignore token
          return 0
  | .directive .includeFile | .text _ | .operand _ => do
      ignore token
      return 0

/-- Carries out the statements of some tokens, the first of which has an index. -/
def walk (set : InstructionSet) (index : Nat) (tokens : List Token) : Action Unit :=
  match tokens with
  | [] => return
  | token :: rest => do
      let taken ← (statement set index token rest).adaptExcept (·.located token.pos)
      walk set (index + 1 + taken) (rest.drop taken)
termination_by tokens.length
decreasing_by simp only [List.length_cons, List.length_drop]; omega

/-- Carries out a pass. The first notes where it ends, and the second must end there. -/
def pass (set : InstructionSet) (pass : Pass) (tokens : List Token) (base : UInt16)
    : Action Unit := do
  modify fun desk => { desk with pass, counter := base.toNat, bytes := #[] }
  walk set 0 tokens
  match pass with
  | .prescan => modify fun desk => { desk with finish := desk.counter }
  | .assemble => do
      let desk ← get
      if desk.counter = desk.finish then return
      else stop (.addressDrift desk.finish desk.counter)

/-- Carries out both passes. -/
def passes (set : InstructionSet) (tokens : List Token) (base : UInt16) : Action Output := do
  pass set .prescan tokens base
  note (.info (decimal (← get).symbols.size ++ " symbols"))
  pass set .assemble tokens base
  note (.info (decimal (← get).bytes.size ++ " bytes"))
  let desk ← get
  return {
    origin := (Source.origin? tokens).getD base
    bytes := desk.bytes.toList
    symbols := desk.symbols
    rows := desk.rows.toList
  }

end Action

-----------------------------------------------------------------------------------------
-- Desks as states of a pass
-----------------------------------------------------------------------------------------

namespace Desk

/-- The state of the pass under way. -/
def progress (desk : Desk) : Progress where
  counter := desk.counter
  symbols := desk.symbols
  bytes := desk.bytes
  rows := desk.rows
  log := desk.log

/-- The desk with more messages in its log. -/
def noting (desk : Desk) (messages : List Message) : Desk :=
  { desk with log := desk.log.append messages }

/-- The desk after a change. -/
def advance (desk : Desk) (change : Change) : Desk :=
  let next := desk.progress.advance change
  { desk with
    counter := next.counter, symbols := next.symbols, bytes := next.bytes, rows := next.rows }

/-- The desk with the start of a statement on it. The first pass puts down where a statement that
emits starts, if that is an address.
-/
def marked (desk : Desk) (index : Nat) (statement : Statement) : Desk :=
  if desk.pass = .prescan ∧ statement.emits = true ∧ desk.counter < addressSpace then
    { desk with
      starts := Function.update desk.starts index (some (UInt16.ofNat desk.counter)) }
  else
    desk

/-- Where the second pass expects a statement: a label at its address among the symbols, and any
other at its start.
-/
def expected? (desk : Desk) (index : Nat) (statement : Statement) : Option Nat :=
  match desk.pass, statement with
  | .prescan, _ => none
  | .assemble, .label _ name =>
      match desk.symbols.get? name with
      | some (.label address) => some address.toNat
      | _ => none
  | .assemble, _ => (desk.starts index).map (·.toNat)

/-- What an attempt makes of a desk: all of the change, or nothing but the messages. -/
def settle (desk : Desk) (taken : Nat) (attempt : Logged Change)
    : EStateM.Result Fault Desk Nat :=
  match attempt.result with
  | .ok change => .ok taken ((desk.advance change).noting attempt.messages)
  | .error fault => .error fault (desk.noting attempt.messages)

end Desk

variable {set : InstructionSet} {desk : Desk} {index taken : Nat} {token : Token}
  {rest : List Token} {statement : Statement} {messages : List Message} {row : Row}
  {fault : Fault}

namespace Desk

/-- Marking a start touches nothing but the starts. -/
theorem marked_eq (desk : Desk) (index : Nat) (statement : Statement)
    : ∃ starts, desk.marked index statement = { desk with starts } := by
  unfold marked
  split
  · exact ⟨_, rfl⟩
  · exact ⟨desk.starts, rfl⟩

/-- A statement without bytes is not marked. -/
theorem marked_of_silent (silent : statement.emits = false)
    : desk.marked index statement = desk := by
  simp [marked, silent]

/-- A statement is marked at its own index. -/
theorem starts_marked_of_ne {other : Nat} (different : other ≠ index)
    : (desk.marked index statement).starts other = desk.starts other := by
  unfold marked
  split
  · exact Function.update_of_ne different _ _
  · rfl

/-- The first pass puts down where a statement that emits starts. -/
theorem starts_marked (first : desk.pass = .prescan) (emitting : statement.emits = true)
    (inside : desk.counter < addressSpace)
    : (desk.marked index statement).starts index = some (UInt16.ofNat desk.counter) := by
  simp [marked, first, emitting, inside]

/-- The second pass marks nothing. -/
theorem marked_assemble (second : desk.pass = .assemble)
    : desk.marked index statement = desk := by
  simp [marked, second]

/-- The second pass expects a statement that emits at its start. -/
theorem expected?_of_emits (second : desk.pass = .assemble) (emitting : statement.emits = true)
    : desk.expected? index statement = (desk.starts index).map (·.toNat) := by
  cases statement with
  | origin | label | assign | stray => cases emitting
  | data | string | implied | operate => simp only [expected?, second]

end Desk

-----------------------------------------------------------------------------------------
-- What an action makes of a desk
-----------------------------------------------------------------------------------------

/-- A computation that starts with a value goes on with it. -/
theorem Logged.pure_bind {α β : Type} (a : α) (f : α → Logged β)
    : (pure a >>= f) = f a :=
  rfl

/-- What is left of an attempt once the statement is found to start where it should. -/
theorem attempt_of_started {progress : Progress} {pass : Pass} {expected? : Option Nat}
    (started : progress.checkStart expected? statement = .ok ())
    : progress.attempt set pass expected? statement
      = statement.effect set pass progress.symbols (UInt16.ofNat progress.counter)
          >>= progress.change pass statement := by
  unfold Progress.attempt
  rw [started]
  rfl

/-- A statement that does not start where it should is not looked at any further. -/
theorem attempt_of_unstarted {progress : Progress} {pass : Pass} {expected? : Option Nat}
    {cause : Cause} (failed : progress.checkStart expected? statement = .error cause)
    : progress.attempt set pass expected? statement = ⟨[], .error ⟨cause, []⟩⟩ := by
  unfold Progress.attempt
  rw [failed]
  rfl

namespace Action

@[simp]
theorem run_stop {α : Type} (cause : Cause) (desk : Desk)
    : (stop cause : Action α).run desk = .error ⟨cause, []⟩ desk :=
  rfl

@[simp]
theorem run_note (message : Message) (desk : Desk)
    : (note message).run desk = .ok () (desk.noting [message]) :=
  rfl

theorem run_compute {α : Type} (computation : Logged α) (desk : Desk)
    : (compute computation).run desk
      = match computation.result with
        | .ok a => .ok a (desk.noting computation.messages)
        | .error fault => .error fault (desk.noting computation.messages) := by
  simp only [compute, EStateM.run_bind, EStateM.run_modify]
  cases computation.result <;> rfl

theorem run_here (desk : Desk)
    : here.run desk
      = if desk.counter < addressSpace then .ok (UInt16.ofNat desk.counter) desk
        else .error ⟨.addressOverflow, []⟩ desk := by
  simp only [here, EStateM.run_bind, EStateM.run_get]
  split <;> rfl

/-- The start of a statement that emits is checked as a step checks it, and is put down before
anything else can fail.
-/
theorem run_checkStart (emitting : statement.emits = true)
    : (checkStart index).run desk
      = match desk.progress.checkStart (desk.expected? index statement) statement with
        | .ok () => .ok () (desk.marked index statement)
        | .error cause => .error ⟨cause, []⟩ (desk.marked index statement) := by
  have anchored := Statement.isAnchored_of_emits emitting
  simp only [checkStart, EStateM.run_bind, run_here]
  by_cases inside : desk.counter < addressSpace
  · have address : (UInt16.ofNat desk.counter).toNat = desk.counter :=
      UInt16.toNat_ofNat_of_lt inside
    have start : ¬ addressSpace ≤ desk.progress.counter := Nat.not_le.mpr inside
    simp only [inside, if_true, EStateM.run_get, Progress.checkStart, anchored, start, if_false]
    cases pass : desk.pass with
    | prescan => simp [Desk.expected?, Desk.marked, pass, emitting, inside]
    | assemble =>
        rw [Desk.marked_assemble pass, Desk.expected?_of_emits pass emitting]
        cases desk.starts index with
        | none => rfl
        | some expected =>
            by_cases same : expected = UInt16.ofNat desk.counter
            · simp [same, address, Desk.progress]
            · have other : ¬ expected.toNat = desk.counter := fun equal =>
                same (UInt16.toNat.inj (equal.trans address.symm))
              simp [same, other, Desk.progress]
  · have outside : addressSpace ≤ desk.progress.counter := Nat.le_of_not_lt inside
    simp [inside, Progress.checkStart, anchored, outside, Desk.marked]

/-- Bytes are emitted where there is room for them. Nothing is written before that is known. -/
theorem run_emit (inside : desk.counter < addressSpace)
    (placed : row.address = UInt16.ofNat desk.counter)
    : (emit row.bytes row.text row.reference? row.pos).run desk
      = match desk.progress.emit desk.pass row with
        | .ok change => .ok () (desk.advance change)
        | .error cause => .error ⟨cause, []⟩ desk := by
  simp only [emit, EStateM.run_bind, run_here, inside, if_true, EStateM.run_get, Progress.emit]
  by_cases beyond : addressSpace < desk.counter + row.bytes.length
  · simp [beyond, Desk.progress]
  · cases pass : desk.pass with
    | prescan => simp [beyond, Desk.progress, Desk.advance, Progress.advance]
    | assemble => simp [beyond, Desk.progress, Desk.advance, Progress.advance, ← placed]

/-- A name is declared and noted. Where it is taken, it is only noted where it was declared. -/
theorem run_declare (name : String) (pos : Position) (symbol : Symbol) (desk : Desk)
    : (do
        declare name pos symbol
        note (Progress.declared name symbol pos)
        return taken : Action Nat).run desk
      = desk.settle taken (desk.progress.declare name symbol pos) := by
  simp only [declare, Progress.declare, Symbols.pos?, Symbols.insert, EStateM.run_bind,
    EStateM.run_get]
  cases found : desk.symbols.find? name with
  | none =>
      have fresh : desk.progress.symbols.find? name = none := found
      simp only [Option.map_none, EStateM.run_bind, EStateM.run_get, found, fresh]
      rfl
  | some first =>
      have known : desk.progress.symbols.find? name = some first := found
      have still : (desk.noting [⟨.error, "`" ++ name ++ "` first declared here",
          some first.pos⟩]).symbols.find? name = some first := found
      simp only [Option.map_some, EStateM.run_bind, run_note, EStateM.run_get, still, known]
      rfl

theorem run_origin
    : (origin token rest).run desk
      = desk.settle rest.head?.toList.length
          (desk.progress.attempt set desk.pass (desk.expected? index (.origin token rest.head?))
            (.origin token rest.head?)) := by
  rw [attempt_of_started rfl]
  unfold origin
  generalize rest.head? = operand?
  cases operand? with
  | none => rfl
  | some operand =>
      have read : (compute (required token (some operand))).run desk = .ok operand desk := rfl
      simp only [EStateM.run_bind, read]
      simp only [Statement.effect, required, Logged.pure_bind]
      cases wordValue? operand.text <;> rfl

theorem run_label {name : String}
    : (label token name).run desk
      = desk.settle 0
          (desk.progress.attempt set desk.pass (desk.expected? index (.label token name))
            (.label token name)) := by
  simp only [label, EStateM.run_bind, run_here]
  by_cases inside : desk.counter < addressSpace
  · have address : (UInt16.ofNat desk.counter).toNat = desk.counter :=
      UInt16.toNat_ofNat_of_lt inside
    have start : ¬ addressSpace ≤ desk.progress.counter := Nat.not_le.mpr inside
    simp only [inside, if_true, EStateM.run_get]
    cases pass : desk.pass with
    | prescan =>
        have started : desk.progress.checkStart (desk.expected? index (.label token name))
            (.label token name) = .ok () := by
          simp [Progress.checkStart, Desk.expected?, pass, start]
        rw [attempt_of_started started]
        exact run_declare name token.pos (.label (UInt16.ofNat desk.counter)) desk
    | assemble =>
        have expects : desk.expected? index (.label token name)
            = match desk.symbols.get? name with
              | some (.label expected) => some expected.toNat
              | _ => none := by
          simp only [Desk.expected?, pass]
        have settled {expected? : Option Nat}
            (placed : ∀ expected ∈ expected?, expected = desk.counter)
            : desk.settle 0 (desk.progress.attempt set .assemble expected? (.label token name))
              = .ok 0 desk := by
          rw [attempt_of_started (Progress.checkStart_eq_ok_iff.mpr fun _ => ⟨inside, placed⟩)]
          rfl
        rw [expects]
        cases desk.symbols.get? name with
        | none => exact (settled (by simp)).symm
        | some symbol =>
            cases symbol with
            | assigned text => exact (settled (by simp)).symm
            | label expected =>
                by_cases same : expected = UInt16.ofNat desk.counter
                · simp only [same, if_true]
                  exact (settled (by simp [address])).symm
                · have other : ¬ expected.toNat = desk.progress.counter := fun equal =>
                    same (UInt16.toNat.inj (equal.trans address.symm))
                  rw [attempt_of_unstarted (show desk.progress.checkStart _ _
                    = .error (.addressDrift expected.toNat desk.progress.counter) by
                    simp only [Progress.checkStart, Statement.isAnchored, start, other, if_true,
                      if_false])]
                  simp only [same, if_false]
                  rfl
  · have outside : addressSpace ≤ desk.progress.counter := Nat.le_of_not_lt inside
    rw [attempt_of_unstarted (show desk.progress.checkStart _ _ = .error .addressOverflow by
      simp [Progress.checkStart, Statement.isAnchored, outside])]
    simp only [inside, if_false]
    rfl

theorem run_assign {name : String}
    : (assign token name rest).run desk
      = desk.settle rest.head?.toList.length
          (desk.progress.attempt set desk.pass
            (desk.expected? index (.assign token name rest.head?))
            (.assign token name rest.head?)) := by
  rw [attempt_of_started rfl]
  unfold assign
  generalize rest.head? = value?
  cases value? with
  | none => rfl
  | some value =>
      have read : (compute (required token (some value))).run desk = .ok value desk := rfl
      simp only [EStateM.run_bind, read, EStateM.run_get]
      cases pass : desk.pass with
      | assemble => rfl
      | prescan => exact run_declare name token.pos (.assigned value.text) desk

theorem run_ignore
    : (do
        ignore token
        return 0 : Action Nat).run desk
      = desk.settle 0
          (desk.progress.attempt set desk.pass (desk.expected? index (.stray token))
            (.stray token)) := by
  rw [attempt_of_started rfl]
  simp only [ignore, EStateM.run_bind, EStateM.run_get]
  cases desk.pass <;> rfl

/-- What is emitted behind its messages. -/
theorem run_emit_noted (row : Row) (messages : List Message) (inside : desk.counter < addressSpace)
    (placed : row.address = UInt16.ofNat desk.counter)
    : (do
        emit row.bytes row.text row.reference? row.pos
        return taken : Action Nat).run (desk.noting messages)
      = desk.settle taken
          (⟨messages, .ok (.emit row)⟩ >>= desk.progress.change desk.pass statement) := by
  have inside : (desk.noting messages).counter < addressSpace := inside
  have room : (desk.noting messages).progress.emit (desk.noting messages).pass row
      = desk.progress.emit desk.pass row := rfl
  have changed : (Logged.mk messages (.ok (.emit row)) >>= desk.progress.change desk.pass statement)
      = ⟨messages ++ [], (Logged.ofExcept (desk.progress.emit desk.pass row)).result⟩ := rfl
  simp only [EStateM.run_bind, run_emit inside placed, room, changed, List.append_nil]
  cases desk.progress.emit desk.pass row <;> rfl

/-- A statement that emits goes on once it is found to start where it should. -/
theorem run_of_emits (emitting : statement.emits = true) {body : Action Nat}
    (carries
      : ∀ desk : Desk, desk.counter < addressSpace
        → body.run desk
          = desk.settle taken
              (statement.effect set desk.pass desk.symbols (UInt16.ofNat desk.counter)
                >>= desk.progress.change desk.pass statement))
    : (do
        checkStart index
        body).run desk
      = (desk.marked index statement).settle taken
          (desk.progress.attempt set desk.pass (desk.expected? index statement) statement) := by
  simp only [EStateM.run_bind, run_checkStart emitting]
  cases started : desk.progress.checkStart (desk.expected? index statement) statement with
  | error cause =>
      rw [attempt_of_unstarted started]
      rfl
  | ok _ =>
      have inside : desk.counter < addressSpace :=
        (Progress.checkStart_eq_ok_iff.mp started (Statement.isAnchored_of_emits emitting)).1
      obtain ⟨starts, marked⟩ := desk.marked_eq index statement
      rw [attempt_of_started started, marked]
      exact carries { desk with starts } inside

theorem run_data {width : Width}
    : let literals := rest.takeWhile fun next => width.holds next.text
      (data width index token rest).run desk
      = (desk.marked index (.data width token literals)).settle literals.length
          (desk.progress.attempt set desk.pass
            (desk.expected? index (.data width token literals)) (.data width token literals)) := by
  intro literals
  refine run_of_emits rfl fun desk inside => ?_
  let row : Row := {
    address := UInt16.ofNat desk.counter
    bytes := literals.flatMap fun literal => width.encode literal.text
    text := String.intercalate " " (token.text :: literals.map (·.text))
    reference? := none
    pos := token.pos
  }
  exact run_emit_noted row [] inside rfl

theorem run_string
    : (string index token rest).run desk
      = (desk.marked index (.string token rest.head?)).settle rest.head?.toList.length
          (desk.progress.attempt set desk.pass
            (desk.expected? index (.string token rest.head?)) (.string token rest.head?)) := by
  refine run_of_emits rfl fun desk inside => ?_
  generalize rest.head? = operand?
  cases operand? with
  | none => rfl
  | some operand =>
      have read : (compute (required token (some operand))).run desk = .ok operand desk := rfl
      simp only [EStateM.run_bind, read]
      simp only [Statement.effect, required, Logged.pure_bind]
      cases operand.kind with
      | text content =>
          let row : Row := {
            address := UInt16.ofNat desk.counter
            bytes := encode content ++ [0]
            text := token.text ++ " " ++ operand.text
            reference? := none
            pos := token.pos
          }
          exact run_emit_noted row [] inside rfl
      | directive | assignment | label | ident | operand => rfl

theorem run_implied {found : Instruction} {opcode : UInt8}
    (alone : found.opcode? .implied = some opcode)
    : (instruction set found index token rest).run desk
      = (desk.marked index (.implied token found opcode)).settle 0
          (desk.progress.attempt set desk.pass
            (desk.expected? index (.implied token found opcode))
            (.implied token found opcode)) := by
  unfold instruction
  rw [alone]
  refine run_of_emits rfl fun desk inside => ?_
  let row : Row := {
    address := UInt16.ofNat desk.counter
    bytes := [opcode]
    text := found.mnemonic
    reference? := none
    pos := token.pos
  }
  exact run_emit_noted row [] inside rfl

theorem run_operate {found : Instruction} (operates : found.opcode? .implied = none)
    : (instruction set found index token rest).run desk
      = (desk.marked index (.operate token found rest.head?)).settle rest.head?.toList.length
          (desk.progress.attempt set desk.pass
            (desk.expected? index (.operate token found rest.head?))
            (.operate token found rest.head?)) := by
  unfold instruction
  rw [operates]
  refine run_of_emits rfl fun desk inside => ?_
  generalize rest.head? = operand?
  cases operand? with
  | none => rfl
  | some operand =>
      have read : (compute (required token (some operand))).run desk = .ok operand desk := rfl
      simp only [EStateM.run_bind, read, run_here, inside, if_true, EStateM.run_get, run_compute]
      simp only [Statement.effect, required, Logged.pure_bind]
      cases made : operate set desk.pass desk.symbols (UInt16.ofNat desk.counter) token found
          operand with
      | mk messages result =>
          cases result with
          | error fault => rfl
          | ok row =>
              obtain ⟨_, text, mode, opcode, _, _, _, rfl⟩ :=
                operate_eq_ok_iff.mp (Logged.outcome_eq_ok.mpr (congrArg Logged.result made))
              let row := operandRow (UInt16.ofNat desk.counter) token found operand text mode opcode
              have emitted
                  : (Logged.mk messages (.ok row) >>= fun row => pure (Effect.emit row))
                    = ⟨messages, .ok (.emit row)⟩ := by
                simp [bind]
              rw [emitted]
              exact run_emit_noted row messages inside rfl

/-- A statement in place checks and changes what a step does. Where it fails, it has put down its
start at most.
-/
theorem run_statement (set : InstructionSet) (index : Nat) (token : Token) (rest : List Token)
    (desk : Desk)
    : let started := Statement.starting set token rest
      (Action.statement set index token rest).run desk
      = (desk.marked index started).settle started.tail.length
          (desk.progress.attempt set desk.pass (desk.expected? index started) started) := by
  intro started
  have quiet (silent : started.emits = false) : desk.marked index started = desk :=
    Desk.marked_of_silent silent
  obtain ⟨kind, text, pos⟩ := token
  cases kind with
  | directive directive =>
      cases directive with
      | org =>
          rw [quiet rfl]
          exact run_origin
      | byte | word => exact run_data
      | string => exact run_string
      | includeFile =>
          rw [quiet rfl]
          exact run_ignore
  | label name =>
      rw [quiet rfl]
      exact run_label
  | assignment name =>
      rw [quiet rfl]
      exact run_assign
  | text content | operand mode =>
      rw [quiet rfl]
      exact run_ignore
  | ident =>
      simp only [Action.statement]
      cases found : set.lookup text with
      | none =>
          have stray : started = .stray ⟨.ident, text, pos⟩ := by
            simp only [started, Statement.starting, found]
          rw [quiet (by rw [stray]; rfl), stray]
          exact run_ignore
      | some instruction =>
          cases alone : instruction.opcode? .implied with
          | some opcode =>
              have single : started = .implied ⟨.ident, text, pos⟩ instruction opcode := by
                simp only [started, Statement.starting, found, alone]
              rw [single]
              exact run_implied alone
          | none =>
              have operates : started = .operate ⟨.ident, text, pos⟩ instruction rest.head? := by
                simp only [started, Statement.starting, found, alone]
              rw [operates]
              exact run_operate alone

end Action

end Asm6510.Assembly
