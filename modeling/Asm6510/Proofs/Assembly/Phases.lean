import Asm6510.Proofs.Assembly.Drift
import Asm6510.Proofs.Source.Expanded

/-! Each fault belongs to its phase. What the expansion checks is found before anything is logged,
and what the first pass checks is found before anything is emitted; the second pass stops only for
what the first cannot know.
-/

namespace Asm6510

/-- The parts of a run, one after the other. -/
inductive Phase where
  | expansion
  | prescan
  | assemble
deriving DecidableEq, Repr

/-- Whether a phase can stop for a cause. The second pass is never found ahead of the first. -/
def Phase.stopsFor : Phase → Cause → Bool
  | .expansion, .invalidString _ | .expansion, .missingOperand _
  | .expansion, .includeFileNotFound _ | .expansion, .includeCycle _
  | .expansion, .invalidOrgOperand _ => true
  | .prescan, .duplicateSymbol _ | .prescan, .missingOperand _ | .prescan, .invalidString _
  | .prescan, .invalidAddressingMode _ _ | .prescan, .invalidByteExtract _
  | .prescan, .relativeOffsetOutOfRange _ | .prescan, .addressOverflow => true
  | .assemble, .unresolvedReference _ | .assemble, .invalidAddressingMode _ _
  | .assemble, .invalidByteExtract _ | .assemble, .relativeOffsetOutOfRange _ => true
  | .assemble, .addressDrift expected found => decide (found < expected)
  | _, _ => false

-----------------------------------------------------------------------------------------
-- The expansion
-----------------------------------------------------------------------------------------

namespace Source

namespace Expansion

variable {library : Library} {root : Path} {closed : List String} {fault : Fault}

/-- A file fails for its own directives, or for a file that it includes. -/
theorem stopsFor_of_splice
    {expandFile : (name : String) → name ∈ closed → String → Sources → Expansion}
    (opening : ∀ name member code sources fault,
      (expandFile name member code sources).outcome = .error fault
      → Phase.expansion.stopsFor fault.cause = true)
    {tokens : List Token} {sources : Sources}
    (failed : (splice library root closed expandFile tokens sources).outcome = .error fault)
    : Phase.expansion.stopsFor fault.cause = true := by
  fun_induction splice library root closed expandFile tokens sources with
  | case1 sources => cases failed
  | case3 text pos name quoted place rest sources code loaded openable included front found =>
      rename_i ih
      exact ih (prepend_eq_error failed)
  | case4 text pos name quoted place rest sources code loaded openable included inner found =>
      obtain rfl := Except.error.inj failed
      rw [Fault.cause_located]
      exact opening _ _ _ _ _ found
  | case9 text pos sources operand rest word ih => exact ih (prepend_eq_error failed)
  | case11 token rest sources _ notInclude notOrigin ih => exact ih (prepend_eq_error failed)
  | case2 | case5 | case6 | case7 | case8 | case10 =>
      obtain rfl := Except.error.inj failed
      rfl

/-- An expansion fails for a directive of one of its files.
Witness: induction on the number of names that can still be opened.
-/
theorem stopsFor_of_expandFile {file code : String} {sources : Sources}
    (failed : (expandFile library root closed file code sources).outcome = .error fault)
    : Phase.expansion.stopsFor fault.cause = true := by
  induction count : closed.length using Nat.strongRecOn generalizing closed file code sources fault
    with
  | ind count ih =>
      subst count
      rw [expandFile] at failed
      refine stopsFor_of_splice ?_ failed
      intro name member code sources fault stopped
      exact ih _ (length_without_lt member) stopped rfl

end Expansion

theorem Spelt.eq_keyword {directive : Directive} {text : List Char}
    (spelt : Spelt (.directive directive) text)
    : text = directive.keyword.toList := by
  cases spelt
  rfl

/-- In an expansion each directive that sets the origin is followed by a word.
Witness: induction on the expansion; the directive is not the operand of another, since its keyword
is no word.
-/
theorem Expanded.word_of_origin {tokens rest : List Token} {directive : Token}
    (expanded : Expanded tokens)
    (spelt : ∀ token ∈ tokens, Spelt token.kind token.text.toList)
    (follows : (directive :: rest) <:+ tokens) (sets : directive.kind = .directive .org)
    : ∃ operand, rest.head? = some operand ∧ (Operand.wordValue? operand.text).isSome = true := by
  induction expanded with
  | nil => cases List.suffix_nil.mp follows
  | @origin first operand others _ word remaining ih =>
      rcases List.suffix_cons_iff.mp follows with same | inside
      · obtain ⟨rfl, rfl⟩ := List.cons.inj same
        exact ⟨operand, rfl, word⟩
      rcases List.suffix_cons_iff.mp inside with same | inside
      · obtain ⟨rfl, rfl⟩ := List.cons.inj same
        have keyword : directive.text = ".org" :=
          String.toList_inj.mp (Spelt.eq_keyword (sets ▸ spelt directive (by simp)))
        rw [keyword] at word
        cases word
      · exact ih (fun token member => spelt token (by simp [member])) inside
  | @kept token others notOrigin _ remaining ih =>
      rcases List.suffix_cons_iff.mp follows with same | inside
      · obtain ⟨rfl, rfl⟩ := List.cons.inj same
        exact absurd sets notOrigin
      · exact ih (fun token member => spelt token (by simp [member])) inside

end Source

namespace Assembly

open Machine (BranchesAlone Instruction InstructionSet)
open Operand
open Progress (Change)
open Report (Log)
open Source (Expanded Spelt Token)

variable {set : InstructionSet} {pass : Pass} {symbols table known : Symbols}
  {counter expected measured emitted : Nat} {statement : Statement} {statements : List Statement}
  {tokens : List Token} {change : Change} {changes firsts seconds : List Change} {cause : Cause}
  {fault : Fault} {before after : Progress}

-----------------------------------------------------------------------------------------
-- The first pass
-----------------------------------------------------------------------------------------

/-- The origins of an expansion have their addresses. -/
theorem wordValue?_of_mem_origin {directive : Token} {operand? : Option Token}
    (expanded : Expanded tokens)
    (spelt : ∀ token ∈ tokens, Spelt token.kind token.text.toList)
    (member : .origin directive operand? ∈ Assembly.statements set tokens)
    : ∃ operand, operand? = some operand ∧ (wordValue? operand.text).isSome = true := by
  obtain ⟨token, rest, follows, started⟩ := exists_starting_of_mem member
  obtain ⟨-, sets, next⟩ := starting_eq_origin started
  obtain ⟨operand, head, word⟩ := expanded.word_of_origin spelt follows sets
  exact ⟨operand, next.trans head, word⟩

/-- A statement that has never been measured fails for a cause of the first pass, if it is no origin
without an address.
-/
theorem Failed.stopsFor_prescan (failed : Failed set .prescan symbols counter none statement cause)
    (addressed : ∀ directive operand,
      statement = .origin directive (some operand) → (wordValue? operand.text).isSome = true)
    : Phase.prescan.stopsFor cause = true := by
  cases failed with
  | outside anchored outside => rfl
  | drifted anchored measured differs => cases measured
  | taken first made known => rfl
  | overflow placed made past => rfl
  | effect placed failed =>
      rcases effect_eq_error failed with
        ⟨rfl, -⟩ | ⟨directive, operand, rfl, unread, rfl⟩ | ⟨_, _, -, rfl⟩ | ⟨_, _, _, -, failed⟩
      · rfl
      · have word := addressed directive operand rfl
        rw [unread] at word
        cases word
      · rfl
      · rcases operate_eq_error failed with
          ⟨rfl, -⟩ | ⟨-, second, -⟩ | rfl | ⟨_, rfl⟩ | ⟨_, rfl⟩
        · rfl
        · cases second
        · rfl
        · rfl
        · rfl

/-- A first pass over an expansion stops for its own causes, and has emitted nothing. -/
theorem stopsFor_of_prescan {base : UInt16} {log : Log} (expanded : Expanded tokens)
    (spelt : ∀ token ∈ tokens, Spelt token.kind token.text.toList)
    (measuring : Progress.prescan { counter := base.toNat, log } set
      (Assembly.statements set tokens) = (after, some fault))
    : Phase.prescan.stopsFor fault.cause = true ∧ after.bytes = #[] := by
  obtain ⟨front, statement, back, firsts, split, trace, reached, failed⟩ :=
    prescan_eq_some measuring
  refine ⟨failed.stopsFor_prescan ?_, ?_⟩
  · rintro directive operand rfl
    have member : .origin directive (some operand) ∈ Assembly.statements set tokens := by
      simp [split]
    obtain ⟨_, same, word⟩ := wordValue?_of_mem_origin expanded spelt member
    obtain rfl := Option.some.inj same
    exact word
  · have bytes := reached.bytes
    rw [trace.rows_prescan] at bytes
    exact Array.toList_eq_nil_iff.mp bytes

-----------------------------------------------------------------------------------------
-- The second pass
-----------------------------------------------------------------------------------------

/-- An instruction that could be measured has an operand. -/
theorem ne_missing_of_measured {here : UInt16} {token operand : Token} {instruction : Instruction}
    {row : Row}
    (measured : (operate set .prescan known here token instruction operand).outcome = .ok row)
    : ¬(isLookedUp instruction operand = true ∧ set.isInstruction operand.text = true) := by
  rintro ⟨sought, mnemonic⟩
  obtain ⟨_, _, _, _, resolved, -⟩ := operate_eq_ok_iff.mp measured
  rcases resolve_cases resolved with ⟨literal, -⟩ | ⟨-, name, -⟩
  · rw [sought] at literal
    cases literal
  · rw [mnemonic] at name
    cases name

/-- An instruction that could be measured fails for what its operand turns out to be. -/
theorem stopsFor_of_operate {here : UInt16} {token operand : Token} {instruction : Instruction}
    {row : Row}
    (measured : (operate set .prescan known here token instruction operand).outcome = .ok row)
    (failed : (operate set .assemble table here token instruction operand).outcome = .error cause)
    : Phase.assemble.stopsFor cause = true := by
  rcases operate_eq_error failed with
    ⟨-, missing⟩ | ⟨rfl, -⟩ | rfl | ⟨_, rfl⟩ | ⟨_, rfl⟩
  · exact absurd missing (ne_missing_of_measured measured)
  all_goals rfl

/-- A statement that was carried out in the first pass has its effect in the second, unless it is an
instruction whose operand turns out to be wrong.
-/
theorem Carried.stopsFor_of_effect (prescan : Carried set .prescan known expected statement change)
    (placed : statement.isAnchored = true → expected = counter)
    (failed : (statement.effect set .assemble table (UInt16.ofNat counter)).outcome = .error cause)
    : Phase.assemble.stopsFor cause = true := by
  cases prescan with
  | @move directive operand address word =>
      have moved : ((Statement.origin directive (some operand)).effect set .assemble table
          (UInt16.ofNat counter)).outcome = .ok (.moveTo address) :=
        effect_origin_eq_ok_iff.mpr ⟨operand, address, rfl, word, rfl⟩
      cases moved.symm.trans failed
  | label | assign | stray => cases failed
  | emit inside made fits =>
      obtain rfl := placed (Statement.isAnchored_of_emits (address_of_effect made).1)
      cases operates : statement.isOperate with
      | false =>
          rw [effect_eq_of_not_operate operates .prescan known, made] at failed
          cases failed
      | true =>
          cases statement with
          | operate token instruction operand? =>
              obtain ⟨operand, row, rfl, measured, -⟩ := effect_operate_eq_ok_iff.mp made
              rcases effect_eq_error failed with
                ⟨-, missing⟩ | ⟨_, _, other, -⟩ | ⟨_, _, other, -⟩ | ⟨_, _, _, same, failed⟩
              · cases missing
              · cases other
              · cases other
              · cases same
                exact stopsFor_of_operate measured failed
          | origin | data | string | label | assign | implied | stray => cases operates

/-- A statement that was carried out in the first pass fails in the second only for what the first
cannot know.
Witness: a statement is emitted no further on than it was measured, and takes no more bytes.
-/
theorem Failed.stopsFor_assemble (alone : AloneIn [statement])
    (earlier : known.declarations <+: table.declarations) (below : counter ≤ expected)
    (prescan : Carried set .prescan known expected statement change)
    (failed : Failed set .assemble table counter (some expected) statement cause)
    : Phase.assemble.stopsFor cause = true := by
  cases failed with
  | outside anchored outside =>
      have inside := prescan.inside anchored
      omega
  | drifted anchored measured differs =>
      obtain rfl := Option.some.inj measured
      exact decide_eq_true (by omega)
  | effect placed failed =>
      exact prescan.stopsFor_of_effect (fun anchored => placed anchored _ rfl) failed
  | taken first made fresh => cases first
  | overflow placed made past =>
      cases prescan with
      | emit inside measured fits =>
          obtain rfl := placed (Statement.isAnchored_of_emits (address_of_effect made).1) _ rfl
          have shorter := effect_shrinks alone earlier measured made
          omega
      | move | label | assign | stray => cases (address_of_effect made).1

/-- Two lists that are related one by one end in related elements. -/
theorem forall₂_concat {α β : Type} {related : α → β → Prop} {xs : List α} {ys : List β} {x : α}
    {y : β} (all : List.Forall₂ related (xs ++ [x]) (ys ++ [y]))
    : related x y := by
  have back := List.forall₂_reverse_iff.mpr all
  rw [List.reverse_concat, List.reverse_concat] at back
  cases back with
  | cons last others => exact last

/-- A second pass stops for its own causes, if the branches of the set stand alone. -/
theorem stopsFor_of_assemble {base : UInt16} {log note : Log} {measured : Progress}
    (alone : BranchesAlone set)
    (measuring : Progress.prescan { counter := base.toNat, log } set
      (Assembly.statements set tokens) = (measured, none))
    (emitting : Progress.assemble { measured with log := note } set
      (Assembly.statements set tokens) base = (after, some fault))
    : Phase.assemble.stopsFor fault.cause = true := by
  have branches := aloneIn_statements alone tokens
  obtain ⟨firsts, seconds, -, -, ending⟩ := ending_of_assemble measuring emitting
  have whole : Symbols.empty.declarations ++ declarations firsts
      <+: Symbols.declarations ⟨declarations firsts⟩ :=
    List.prefix_rfl
  cases ending with
  | stops interrupted =>
      obtain ⟨stop, symbols, expected, counter, change, member, earlier, below, carried, failed⟩ :=
        interrupted.stopped branches whole (Nat.le_refl _)
      refine failed.stopsFor_assemble ?_ earlier below carried
      intro token instruction operand? found
      exact branches token instruction operand? (List.mem_singleton.mp found ▸ member)
  | misses passes differs drift =>
      have behind := passes.shrinks branches whole (Nat.le_refl _)
      rw [counters_eq, counters_eq] at behind
      rw [drift]
      exact decide_eq_true (Nat.lt_of_le_of_ne (forall₂_concat behind) differs)

-----------------------------------------------------------------------------------------
-- A run
-----------------------------------------------------------------------------------------

/-- Each phase of a run stops for its own causes, with any set whose branches have no other mode, as
those of the 6510. The expansion stops before anything is logged, the first pass before anything is
emitted, and the second where it is found behind the first.
-/
theorem runSource_phases {assembler : Assembler} (alone : BranchesAlone assembler.set)
    (file code : String) (base : UInt16)
    : (∀ fault,
        (Source.expand assembler.library assembler.root file code).outcome = .error fault
        → Phase.expansion.stopsFor fault.cause = true
          ∧ (assembler.runSource file code base).1.log = Log.empty
          ∧ (assembler.runSource file code base).2 = .error fault)
      ∧ (∀ tokens log stopped fault,
          (Source.expand assembler.library assembler.root file code).outcome = .ok tokens
          → Progress.prescan { counter := base.toNat, log } assembler.set
              (Assembly.statements assembler.set tokens) = (stopped, some fault)
          → Phase.prescan.stopsFor fault.cause = true ∧ stopped.bytes = #[])
      ∧ (∀ tokens log note measured stopped fault,
          Progress.prescan { counter := base.toNat, log } assembler.set
              (Assembly.statements assembler.set tokens) = (measured, none)
          → Progress.assemble { measured with log := note } assembler.set
              (Assembly.statements assembler.set tokens) base = (stopped, some fault)
          → Phase.assemble.stopsFor fault.cause = true)
      ∧ BranchesAlone .cpu6510 := by
  refine ⟨?_, ?_, ?_, Machine.branchesAlone_cpu6510⟩
  · intro fault failed
    refine ⟨Source.Expansion.stopsFor_of_expandFile failed, ?_, ?_⟩
    · simp only [Assembler.runSource, failed]
    · simp only [Assembler.runSource, failed]
  · intro tokens log stopped fault expanded measuring
    exact stopsFor_of_prescan (Source.expanded_of_expand expanded)
      (fun token member => (Source.spelt_of_mem_expand expanded token member).1) measuring
  · intro tokens log note measured stopped fault measuring emitting
    exact stopsFor_of_assemble alone measuring emitting

/-- The tokens of a load from a variable in the zero page that is assigned behind it. -/
def driftingTokens : List Token :=
  [⟨.ident, "LDA", ⟨"t", 0, 0⟩⟩, ⟨.ident, "zp", ⟨"t", 0, 4⟩⟩,
    ⟨.assignment "zp", "zp =", ⟨"t", 0, 7⟩⟩, ⟨.operand .zeroPage, "$10", ⟨"t", 0, 12⟩⟩]

theorem runSource_phases_drifting
    : ∃ measured stopped fault,
        (Source.expand smallAssembler.library smallAssembler.root "t"
          "LDA zp zp = $10").outcome.toOption = some driftingTokens
        ∧ Progress.prescan { counter := 0xC000 } smallSet
            (Assembly.statements smallSet driftingTokens) = (measured, none)
        ∧ Progress.assemble measured smallSet (Assembly.statements smallSet driftingTokens) 0xC000
          = (stopped, some fault)
        ∧ fault.cause = .addressDrift 0xC003 0xC002
        ∧ Phase.assemble.stopsFor fault.cause = true := by
  let measured := (Progress.prescan { counter := 0xC000 } smallSet
    (Assembly.statements smallSet driftingTokens)).1
  let emitted := Progress.assemble measured smallSet
    (Assembly.statements smallSet driftingTokens) 0xC000
  have measuring : Progress.prescan { counter := (0xC000 : UInt16).toNat } smallSet
      (Assembly.statements smallSet driftingTokens) = (measured, none) :=
    Prod.ext rfl (by decide +kernel)
  have evaluated : (Source.expand smallAssembler.library smallAssembler.root "t"
        "LDA zp zp = $10").outcome.toOption = some driftingTokens
      ∧ emitted.2.map (·.cause) = some (.addressDrift 0xC003 0xC002) := by
    decide +kernel
  obtain ⟨fault, emitting, cause⟩ := exists_fault_of_cause evaluated.2
  have phases := @runSource_phases smallAssembler branchesAlone_smallSet "t" "LDA zp zp = $10"
    0xC000
  exact ⟨measured, emitted.1, fault, evaluated.1, measuring, emitting, cause,
    phases.2.2.1 _ _ _ _ _ _ measuring emitting⟩

end Assembly

end Asm6510
