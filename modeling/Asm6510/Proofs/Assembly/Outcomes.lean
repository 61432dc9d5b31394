import Asm6510.Assembly.Effect
import Asm6510.Proofs.Operand.Numerals

/-! Computations seen without their messages and places. What is left is a value or a cause, and
for operands it says exactly when an instruction has a row and which text the row encodes.
-/

namespace Asm6510.Assembly

open Machine (Instruction InstructionSet Mode)
open Operand
open Source (Position Token)

namespace Logged

variable {α β : Type}

/-- The result of a computation, with the cause alone of a fault. -/
def outcome (x : Logged α) : Except Cause α :=
  x.result.mapError (·.cause)

/-- A computation and its outcome succeed together, with one value. -/
theorem outcome_eq_ok {x : Logged α} {a : α}
    : x.outcome = .ok a ↔ x.result = .ok a := by
  rw [outcome, mapError_eq_ok]

@[simp]
theorem outcome_pure (a : α)
    : (pure a : Logged α).outcome = .ok a :=
  rfl

@[simp]
theorem outcome_bind (x : Logged α) (f : α → Logged β)
    : (x >>= f).outcome = x.outcome >>= fun a => (f a).outcome := by
  unfold outcome
  rw [result_bind]
  cases x.result <;> rfl

@[simp]
theorem outcome_note (message : Report.Message)
    : (note message).outcome = .ok () :=
  rfl

@[simp]
theorem outcome_fail (fault : Fault)
    : (fail fault : Logged α).outcome = .error fault.cause :=
  rfl

@[simp]
theorem outcome_stop (cause : Cause)
    : (stop cause : Logged α).outcome = .error cause :=
  rfl

@[simp]
theorem outcome_ofExcept (result : Except Cause α)
    : (ofExcept result).outcome = result := by
  cases result <;> rfl

/-- Placing a fault keeps its cause. -/
@[simp]
theorem outcome_located (x : Logged α) (pos : Position)
    : (x.located pos).outcome = x.outcome := by
  unfold outcome located
  cases x.result with
  | ok a => rfl
  | error fault => exact congrArg Except.error (fault.cause_located pos)

end Logged

@[simp]
theorem ok_bind {ε α β : Type} (a : α) (f : α → Except ε β)
    : (Except.ok a >>= f) = f a :=
  rfl

@[simp]
theorem error_bind {ε α β : Type} (e : ε) (f : α → Except ε β)
    : (Except.error e >>= f) = .error e :=
  rfl

/-- A sequence has a value only through a value of its first part. -/
theorem bind_eq_ok {ε α β : Type} {x : Except ε α} {f : α → Except ε β} {b : β}
    : (x >>= f) = .ok b ↔ ∃ a, x = .ok a ∧ f a = .ok b := by
  cases x <;> simp

variable {set : InstructionSet} {pass : Pass} {symbols : Symbols} {here : UInt16}
  {instruction : Instruction} {operand token : Token}

/-- An operand that is not looked up stands for itself. -/
theorem resolve_of_literal (literal : isLookedUp instruction operand = false)
    : (resolve set pass symbols here instruction operand).outcome = .ok operand.text := by
  simp [resolve, literal]

/-- A known name stands for its meaning in both passes. -/
theorem resolve_of_known {symbol : Symbol} (sought : isLookedUp instruction operand = true)
    (name : set.isInstruction operand.text = false)
    (known : symbols.get? (referent operand.text) = some symbol)
    : (resolve set pass symbols here instruction operand).outcome
      = substitute operand.text symbol := by
  simp [resolve, sought, name, known]

/-- A name that is not known yet is guessed in the first pass. -/
theorem resolve_of_unknown (sought : isLookedUp instruction operand = true)
    (name : set.isInstruction operand.text = false)
    (unknown : symbols.get? (referent operand.text) = none)
    : (resolve set .prescan symbols here instruction operand).outcome
      = .ok (guess operand.text here) := by
  simp only [resolve, sought, name, unknown]
  rfl

/-- An operand is resolved in one of three ways: it stands for itself, for a meaning, or in the
first pass for a guess. A mnemonic is never resolved.
-/
theorem resolve_cases {text : String}
    (resolved : (resolve set pass symbols here instruction operand).outcome = .ok text)
    : isLookedUp instruction operand = false ∧ text = operand.text
      ∨ isLookedUp instruction operand = true
        ∧ set.isInstruction operand.text = false
        ∧ ((∃ symbol,
              symbols.get? (referent operand.text) = some symbol
              ∧ substitute operand.text symbol = .ok text)
            ∨ symbols.get? (referent operand.text) = none
              ∧ pass = .prescan
              ∧ text = guess operand.text here) := by
  cases sought : isLookedUp instruction operand with
  | false =>
      rw [resolve_of_literal sought] at resolved
      exact Or.inl ⟨rfl, (Except.ok.inj resolved).symm⟩
  | true =>
      refine Or.inr ⟨rfl, ?_⟩
      cases name : set.isInstruction operand.text with
      | true => simp [resolve, sought, name] at resolved
      | false =>
          refine ⟨rfl, ?_⟩
          cases known : symbols.get? (referent operand.text) with
          | some symbol =>
              rw [resolve_of_known sought name known] at resolved
              exact Or.inl ⟨symbol, rfl, resolved⟩
          | none =>
              cases pass with
              | prescan =>
                  rw [resolve_of_unknown sought name known] at resolved
                  exact Or.inr ⟨rfl, rfl, (Except.ok.inj resolved).symm⟩
              | assemble => simp [resolve, sought, name, known] at resolved

/-- A reference is replaced by its meaning's operand, or by the byte that its mark takes of a
meaning that is a word.
-/
theorem substitute_eq_ok_iff {reference text : String} {symbol : Symbol}
    : substitute reference symbol = .ok text
      ↔ part? reference = none ∧ text = symbol.operand
        ∨ ∃ part w,
            part? reference = some part
            ∧ wordValue? symbol.operand = some w
            ∧ text = formatImmediate (part.of w) := by
  unfold substitute
  cases part? reference with
  | none => simp [eq_comm]
  | some part => cases wordValue? symbol.operand <;> simp [eq_comm]

/-- The text encoded for a resolved operand: the displacement of a branch, and otherwise the
operand itself.
-/
def converted (pass : Pass) (here : UInt16) (instruction : Instruction) (text : String)
    : Except Cause String :=
  if instruction.isBranch then branchOperand pass here text else .ok text

/-- Only the operand of a branch is converted. -/
theorem converted_of_not_branch (plain : instruction.isBranch = false) (text : String)
    : converted pass here instruction text = .ok text := by
  simp [converted, plain]

/-- The operand of a branch is a target in reach, a displacement, or neither, and then the two
passes convert it differently.
-/
theorem converted_eq_ok_iff (branch : instruction.isBranch = true) {plain text : String}
    : converted pass here instruction plain = .ok text
      ↔ (∃ target offset,
          wordValue? plain = some target
          ∧ displacement here target = .ok offset
          ∧ text = formatByte offset)
        ∨ isByte plain = true ∧ text = plain
        ∨ isWord plain = false
          ∧ isByte plain = false
          ∧ (pass = .prescan ∧ text = formatByte 0 ∨ pass = .assemble ∧ text = plain) := by
  simp only [converted, branch, if_true, branchOperand]
  cases word : wordValue? plain with
  | some target =>
      have isWord := (wordValue?_eq_some_iff.mp word).1
      have notByte := isByte_of_isWord isWord
      cases reach : displacement here target with
      | error cause => simp [Except.map, isWord, notByte, reach]
      | ok offset => simp [Except.map, isWord, notByte, reach, eq_comm]
  | none =>
      have notWord := wordValue?_eq_none_iff.mp word
      cases byte : isByte plain with
      | true => simp [eq_comm (a := text)]
      | false => cases pass <;> simp [notWord, eq_comm (a := text)]

/-- An immediate operand is left as it is when it is emitted, also by a branch. -/
theorem converted_immediate {text : String} (immediate : Mode.immediate.accepts text = true)
    : converted .assemble here instruction text = .ok text := by
  cases branch : instruction.isBranch with
  | false => exact converted_of_not_branch branch text
  | true =>
      have notWord : isWord text = false := by
        by_contra word
        cases (accepts_word_iff (by simpa using word)).mp immediate
      have notByte : isByte text = false := by
        by_contra byte
        rcases (accepts_byte_iff (by simpa using byte)).mp immediate with other | other
        · cases other
        · cases other
      exact (converted_eq_ok_iff branch).mpr (.inr (.inr ⟨notWord, notByte, .inr ⟨rfl, rfl⟩⟩))

theorem operandText_outcome
    : (operandText set pass symbols here instruction operand).outcome
      = (resolve set pass symbols here instruction operand).outcome
        >>= converted pass here instruction := by
  have branches (text : String)
      : (if instruction.isBranch then Logged.ofExcept (branchOperand pass here text)
          else return text : Logged String).outcome
        = converted pass here instruction text := by
    unfold converted
    split <;> simp
  unfold operandText
  rw [Logged.outcome_bind]
  simp only [branches]

/-- The row of an instruction whose operand was read in a mode. -/
def operandRow (here : UInt16) (token : Token) (instruction : Instruction) (operand : Token)
    (text : String) (mode : Mode) (opcode : UInt8) : Row where
  address := here
  bytes := opcode :: operandBytes mode text
  text := instruction.mnemonic ++ " " ++ text
  reference? := if operand.kind == .ident && text != operand.text then some operand.text else none
  pos := token.pos

/-- An instruction's operand is resolved, converted, and read in the first mode that accepts it.
-/
theorem operate_outcome
    : (operate set pass symbols here token instruction operand).outcome
      = (resolve set pass symbols here instruction operand).outcome >>= fun plain =>
          converted pass here instruction plain >>= fun text =>
            match selectMode? instruction text with
            | none => .error (.invalidAddressingMode instruction.mnemonic text)
            | some (mode, opcode) =>
                .ok (operandRow here token instruction operand text mode opcode) := by
  unfold operate
  rw [Logged.outcome_bind, Logged.outcome_located, operandText_outcome]
  cases (resolve set pass symbols here instruction operand).outcome with
  | error cause => rfl
  | ok plain =>
      simp only [ok_bind]
      cases converted pass here instruction plain with
      | error cause => rfl
      | ok text =>
          simp only [ok_bind]
          cases selectMode? instruction text with
          | none => rfl
          | some bound => rfl

/-- An instruction has a row when its operand resolves, converts and is accepted by a mode. -/
theorem operate_eq_ok_iff {row : Row}
    : (operate set pass symbols here token instruction operand).outcome = .ok row
      ↔ ∃ plain text mode opcode,
          (resolve set pass symbols here instruction operand).outcome = .ok plain
          ∧ converted pass here instruction plain = .ok text
          ∧ selectMode? instruction text = some (mode, opcode)
          ∧ row = operandRow here token instruction operand text mode opcode := by
  rw [operate_outcome]
  constructor
  · intro made
    obtain ⟨plain, resolved, made⟩ := bind_eq_ok.mp made
    obtain ⟨text, encoded, made⟩ := bind_eq_ok.mp made
    cases selected : selectMode? instruction text with
    | none => simp [selected] at made
    | some bound =>
        simp only [selected] at made
        exact ⟨plain, text, bound.1, bound.2, resolved, encoded, selected,
          (Except.ok.inj made).symm⟩
  · intro found
    obtain ⟨plain, text, mode, opcode, resolved, encoded, selected, rfl⟩ := found
    exact bind_eq_ok.mpr ⟨plain, resolved, bind_eq_ok.mpr ⟨text, encoded, by rw [selected]⟩⟩

/-- The selected mode accepts the operand, and the opcode is the one bound to the mode: an
earlier entry for the mode would have been selected.
-/
theorem selectMode?_eq_some {text : String} {mode : Mode} {opcode : UInt8}
    (selected : selectMode? instruction text = some (mode, opcode))
    : mode.accepts text = true ∧ instruction.opcode? mode = some opcode := by
  have accepted : mode.accepts text = true := by
    simpa using List.find?_some selected
  refine ⟨accepted, ?_⟩
  obtain ⟨-, before, after, split, refused⟩ := List.find?_eq_some_iff_append.mp selected
  refine List.lookup_eq_some_iff.mpr ⟨before, after, split, ?_⟩
  intro bound member
  have earlier := refused bound member
  rw [bne_iff_ne]
  intro same
  subst same
  simp [accepted] at earlier

/-- A mode that accepts the operand makes a selection possible. -/
theorem selectMode?_isSome {text : String} {mode : Mode}
    (supported : instruction.supports mode = true) (accepted : mode.accepts text = true)
    : ∃ bound, selectMode? instruction text = some bound := by
  obtain ⟨opcode, found⟩ := Option.isSome_iff_exists.mp supported
  obtain ⟨before, after, split, -⟩ := List.lookup_eq_some_iff.mp found
  cases selected : selectMode? instruction text with
  | some bound => exact ⟨bound, rfl⟩
  | none =>
      have refused := List.find?_eq_none.mp selected (mode, opcode) (by simp [split])
      exact absurd accepted refused

/-- Operands that the same modes accept select the same mode. -/
theorem selectMode?_congr {text other : String}
    (same : ∀ mode : Mode, mode.accepts text = mode.accepts other)
    : selectMode? instruction text = selectMode? instruction other := by
  unfold selectMode?
  congr 1
  funext bound
  exact same bound.1

/-- A row holds as many bytes as the selected mode says. -/
theorem length_operandRow_bytes {text : String} {mode : Mode} {opcode : UInt8}
    (selected : selectMode? instruction text = some (mode, opcode))
    : (operandRow here token instruction operand text mode opcode).bytes.length
      = mode.length := by
  simpa [operandRow] using length_operandBytes (selectMode?_eq_some selected).1

end Asm6510.Assembly
