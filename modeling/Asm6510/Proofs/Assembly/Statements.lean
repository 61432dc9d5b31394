import Asm6510.Assembly.Statement
import Mathlib.Data.List.Basic

/-! Statements and the tokens they are made of. The statements of a list of tokens hold all its
tokens in order, and their instructions are instructions of the set.
-/

namespace Asm6510.Assembly

open Machine (Instruction InstructionSet)
open Source (Token)

variable {set : InstructionSet}

theorem head_starting (token : Token) (rest : List Token)
    : (Statement.starting set token rest).head = token := by
  obtain ⟨kind, text, pos⟩ := token
  cases kind with
  | directive directive => cases directive <;> rfl
  | text | assignment | label | operand => rfl
  | ident =>
      simp only [Statement.starting]
      cases set.lookup text with
      | none => rfl
      | some instruction =>
          dsimp only
          cases instruction.opcode? .implied <;> rfl

/-- A statement goes on with the tokens that come next. -/
theorem isPrefix_tail_starting (token : Token) (rest : List Token)
    : (Statement.starting set token rest).tail <+: rest := by
  have next : rest.head?.toList <+: rest := by
    cases rest <;> simp
  obtain ⟨kind, text, pos⟩ := token
  cases kind with
  | directive directive =>
      cases directive with
      | org | string => exact next
      | byte | word => exact List.takeWhile_prefix _
      | includeFile => exact List.nil_prefix
  | label name => exact List.nil_prefix
  | assignment name => exact next
  | operand mode | text content => exact List.nil_prefix
  | ident =>
      simp only [Statement.starting]
      cases set.lookup text with
      | none => exact List.nil_prefix
      | some instruction =>
          dsimp only
          cases instruction.opcode? .implied with
          | some opcode => exact List.nil_prefix
          | none => exact next

/-- The statements of a list of tokens are the tokens, cut into pieces. -/
theorem flatMap_tokens_statements (tokens : List Token)
    : (statements set tokens).flatMap Statement.tokens = tokens := by
  fun_induction statements set tokens with
  | case1 => rfl
  | case2 token rest statement ih =>
      have cut : statement.tail ++ rest.drop statement.tail.length = rest :=
        List.prefix_iff_eq_append.mp (isPrefix_tail_starting token rest)
      have head : statement.head = token := head_starting token rest
      rw [List.flatMap_cons, ih, Statement.tokens, List.cons_append, head, cut]

theorem mem_of_mem_statements {tokens : List Token} {statement : Statement} {token : Token}
    (member : statement ∈ statements set tokens) (inside : token ∈ statement.tokens)
    : token ∈ tokens := by
  rw [← flatMap_tokens_statements tokens]
  exact List.mem_flatMap.mpr ⟨statement, member, inside⟩

/-- Every statement is started by a token and the tokens after it. -/
theorem exists_starting_of_mem {tokens : List Token} {statement : Statement}
    (member : statement ∈ statements set tokens)
    : ∃ token rest,
        (token :: rest) <:+ tokens ∧ statement = Statement.starting set token rest := by
  fun_induction statements set tokens with
  | case1 => simp at member
  | case2 token rest first ih =>
      rcases List.mem_cons.mp member with rfl | later
      · exact ⟨token, rest, List.suffix_rfl, rfl⟩
      · obtain ⟨other, after, inside, same⟩ := ih later
        refine ⟨other, after, ?_, same⟩
        exact (inside.trans (List.drop_suffix _ rest)).trans (List.suffix_cons token rest)

/-- Only the directive for an origin starts one, and what comes next is its operand. -/
theorem starting_eq_origin {token directive : Token} {rest : List Token} {operand? : Option Token}
    (started : .origin directive operand? = Statement.starting set token rest)
    : directive = token ∧ token.kind = .directive .org ∧ operand? = rest.head? := by
  unfold Statement.starting at started
  split at started
  all_goals try cases started
  · rename_i kind
    exact ⟨rfl, kind, rfl⟩
  · split at started
    · split at started <;> cases started
    · cases started

theorem lookup_of_starting {first token : Token} {rest : List Token}
    {instruction : Instruction} {operand? : Option Token}
    (started : Statement.starting set first rest = .operate token instruction operand?)
    : set.lookup token.text = some instruction := by
  unfold Statement.starting at started
  split at started
  all_goals try cases started
  split at started
  · rename_i found
    split at started
    · cases started
    · cases started
      exact found
  · cases started

/-- The instructions of statements are instructions of the set. -/
theorem mem_statements_operate {tokens : List Token} {token : Token} {instruction : Instruction}
    {operand? : Option Token}
    (member : .operate token instruction operand? ∈ statements set tokens)
    : set.lookup token.text = some instruction := by
  fun_induction statements set tokens with
  | case1 => simp at member
  | case2 first rest statement ih =>
      rcases List.mem_cons.mp member with here | later
      · exact lookup_of_starting here.symm
      · exact ih later

/-- A statement with the operand of its instruction replaced. -/
def Statement.mapOperand (replace : Instruction → Token → Token) : Statement → Statement
  | operate token instruction operand? =>
      operate token instruction (operand?.map (replace instruction))
  | statement => statement

/-- The tokens of statements with the operands of instructions replaced. -/
def replaceOperands (set : InstructionSet) (replace : Instruction → Token → Token)
    (tokens : List Token) : List Token :=
  (statements set tokens).flatMap fun statement => (statement.mapOperand replace).tokens

variable {replace : Instruction → Token → Token}

theorem Statement.head_mapOperand (statement : Statement)
    : (statement.mapOperand replace).head = statement.head := by
  cases statement <;> rfl

@[simp]
theorem replaceOperands_nil
    : replaceOperands set replace [] = [] := by
  simp [replaceOperands, statements]

theorem replaceOperands_cons (token : Token) (rest : List Token)
    : replaceOperands set replace (token :: rest)
      = token :: (((Statement.starting set token rest).mapOperand replace).tail
          ++ replaceOperands set replace
              (rest.drop (Statement.starting set token rest).tail.length)) := by
  have head : ((Statement.starting set token rest).mapOperand replace).head = token := by
    rw [Statement.head_mapOperand, head_starting]
  rw [replaceOperands, statements]
  rw [List.flatMap_cons, Statement.tokens, head]
  rfl

/-- The tokens that start statements are not replaced. -/
theorem head?_replaceOperands (tokens : List Token)
    : (replaceOperands set replace tokens).head? = tokens.head? := by
  cases tokens with
  | nil => simp
  | cons token rest => simp [replaceOperands_cons]

/-- A statement starts the same way when the operands in it and after it are replaced.
Witness: a statement looks past its first token only at the next one, or at a run of numbers
that ends before the first token of another statement.
-/
theorem starting_replaced (token : Token) (rest : List Token)
    : Statement.starting set token
        (((Statement.starting set token rest).mapOperand replace).tail
          ++ replaceOperands set replace
              (rest.drop (Statement.starting set token rest).tail.length))
      = (Statement.starting set token rest).mapOperand replace := by
  have first : (rest.head?.toList ++ replaceOperands set replace
      (rest.drop rest.head?.toList.length)).head? = rest.head? := by
    cases rest <;> simp
  have taken (holds : Token → Bool)
      : (rest.takeWhile holds ++ replaceOperands set replace
          (rest.drop (rest.takeWhile holds).length)).takeWhile holds = rest.takeWhile holds := by
    have dropped : rest.drop (rest.takeWhile holds).length = rest.dropWhile holds := by
      have cut := List.takeWhile_append_dropWhile (p := holds) (l := rest)
      exact List.append_cancel_left
        ((List.prefix_iff_eq_append.mp (List.takeWhile_prefix holds)).trans cut.symm)
    -- The first token that is left out starts a statement, so it is not replaced.
    have stop : (replaceOperands set replace (rest.dropWhile holds)).takeWhile holds = [] := by
      have ended := List.head?_dropWhile_not holds rest
      have same : (replaceOperands set replace (rest.dropWhile holds)).head?
          = (rest.dropWhile holds).head? := head?_replaceOperands _
      rw [← same] at ended
      cases found : replaceOperands set replace (rest.dropWhile holds) with
      | nil => rfl
      | cons next others => simp_all
    rw [List.takeWhile_append_of_pos (List.all_eq_true.mp List.all_takeWhile), dropped, stop,
      List.append_nil]
  obtain ⟨kind, text, pos⟩ := token
  cases kind with
  | directive directive =>
      cases directive <;>
        simp only [Statement.starting, Statement.mapOperand, Statement.tail, first, taken]
  | text | assignment | label | operand =>
      simp only [Statement.starting, Statement.mapOperand, Statement.tail, first]
  | ident =>
      simp only [Statement.starting]
      cases set.lookup text with
      | none => rfl
      | some instruction =>
          dsimp only
          cases instruction.opcode? .implied with
          | some opcode => rfl
          | none =>
              dsimp only
              cases rest with
              | nil => simp [Statement.mapOperand, Statement.tail]
              | cons operand rest => rfl

/-- Replacing the operands of instructions keeps the statements, by induction on the tokens. -/
theorem statements_replaceOperands (tokens : List Token)
    : statements set (replaceOperands set replace tokens)
      = (statements set tokens).map (Statement.mapOperand replace) := by
  fun_induction statements set tokens with
  | case1 => simp [statements]
  | case2 token rest statement ih =>
      rw [replaceOperands_cons, statements, starting_replaced, List.drop_left, ih]
      rfl

end Asm6510.Assembly
