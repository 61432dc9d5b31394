import Asm6510.Proofs.Assembly.Accounting
import Mathlib.Data.List.Chain

/-! Images loaded into memory. Rows that form one block lie in the image one behind the other, so it
puts them where they were assembled exactly when its header is the address of the first row. The
header is the first origin of the stream, and the first row stands at the last origin before it.
-/

namespace Asm6510.Assembly

open Machine (InstructionSet)
open Operand
open Progress (Change)
open Source (Expanded Spelt Token)

/-- The memory that an image fills. Its first two bytes say where, low byte first. -/
def loaded (image : List UInt8) (address : Nat) : Option UInt8 :=
  match image with
  | low :: high :: bytes =>
      let start := low.toNat + 256 * high.toNat
      if start ≤ address then bytes[address - start]? else none
  | _ => none

/-- A row that begins where another ends. -/
def Row.Follows (row next : Row) : Prop :=
  next.address.toNat = row.address.toNat + row.bytes.length

namespace Output

/-- The rows form one block. -/
def Contiguous (output : Output) : Prop :=
  output.rows.IsChain Row.Follows

/-- The image puts each byte of each row where it was assembled. -/
def LoadsInPlace (output : Output) : Prop :=
  ∀ row ∈ output.rows, ∀ offset < row.bytes.length,
    loaded output.image (row.address.toNat + offset) = row.bytes[offset]?

end Output

variable {set : InstructionSet} {table : Symbols} {base : UInt16} {output : Output}
  {row first : Row} {rest : List Row} {tokens : List Token} {statements : List Statement}

-----------------------------------------------------------------------------------------
-- Blocks
-----------------------------------------------------------------------------------------

/-- An image fills memory from its origin on. -/
theorem loaded_image (output : Output) (address : Nat)
    : loaded output.image address
      = if output.origin.toNat ≤ address then output.bytes[address - output.origin.toNat]?
        else none := by
  simp only [loaded, Output.image, littleEndian, List.cons_append, List.nil_append,
    lowByte_add_highByte]

/-- In a block each row lies behind the bytes of the rows before it, by induction on the rows. -/
theorem getElem?_of_block (block : (first :: rest).IsChain Row.Follows)
    (member : row ∈ first :: rest) {offset : Nat} (inside : offset < row.bytes.length)
    : first.address.toNat ≤ row.address.toNat
      ∧ ((first :: rest).flatMap (·.bytes))[row.address.toNat + offset - first.address.toNat]?
        = row.bytes[offset]? := by
  induction rest generalizing first with
  | nil =>
      obtain rfl := List.mem_singleton.mp member
      simp
  | cons second rest ih =>
      obtain ⟨follows, block⟩ := List.isChain_cons_cons.mp block
      rcases List.mem_cons.mp member with rfl | later
      · refine ⟨Nat.le_refl _, ?_⟩
        rw [Nat.add_sub_cancel_left, List.flatMap_cons, List.getElem?_append_left inside]
      · obtain ⟨below, found⟩ := ih block later
        rw [Row.Follows] at follows
        refine ⟨by omega, ?_⟩
        rw [List.flatMap_cons, List.getElem?_append_right (by omega), ← found]
        congr 1
        omega

/-- In a block each byte belongs to a row, by induction on the rows. -/
theorem exists_row_of_block (block : (first :: rest).IsChain Row.Follows) {index : Nat}
    (inside : index < ((first :: rest).flatMap (·.bytes)).length)
    : ∃ row ∈ first :: rest, ∃ offset < row.bytes.length,
        row.address.toNat + offset = first.address.toNat + index := by
  induction rest generalizing first index with
  | nil => exact ⟨first, by simp, index, by simpa using inside, rfl⟩
  | cons second rest ih =>
      obtain ⟨follows, block⟩ := List.isChain_cons_cons.mp block
      rw [Row.Follows] at follows
      rw [List.flatMap_cons, List.length_append] at inside
      by_cases here : index < first.bytes.length
      · exact ⟨first, by simp, index, here, rfl⟩
      · have later : index - first.bytes.length
            < ((second :: rest).flatMap (·.bytes)).length := by
          omega
        obtain ⟨row, member, offset, within, placed⟩ := ih block later
        exact ⟨row, List.mem_cons_of_mem _ member, offset, within, by omega⟩

/-- The image of a block that holds a byte loads in place exactly when its origin is the address of
the first row.
Witness: the first byte of the block must not lie below the origin, nor the last beyond the image.
-/
theorem loadsInPlace_iff (listed : output.rows[0]? = some first)
    (bytes : output.bytes = output.rows.flatMap (·.bytes)) (emitted : output.bytes ≠ [])
    (block : output.Contiguous)
    : output.LoadsInPlace ↔ output.origin = first.address := by
  obtain ⟨rest, listed⟩ : ∃ rest, output.rows = first :: rest := by
    cases rows : output.rows with
    | nil => simp [rows] at listed
    | cons row rest => exact ⟨rest, by simpa [rows] using listed⟩
  rw [Output.Contiguous, listed] at block
  rw [Output.LoadsInPlace, listed]
  rw [listed] at bytes
  constructor
  · intro inPlace
    have filled {index : Nat} (inside : index < output.bytes.length)
        : output.origin.toNat ≤ first.address.toNat + index
          ∧ first.address.toNat + index - output.origin.toNat < output.bytes.length := by
      obtain ⟨row, member, offset, within, placed⟩ := exists_row_of_block block (bytes ▸ inside)
      have found := inPlace row member offset within
      rw [loaded_image, placed, List.getElem?_eq_getElem within] at found
      split at found
      · rename_i above
        exact ⟨above, (List.getElem?_eq_some_iff.mp found).1⟩
      · cases found
    have some := List.length_pos_iff.mpr emitted
    have lowest := filled some
    have highest := filled (Nat.sub_lt some Nat.one_pos)
    apply UInt16.toNat_inj.mp
    omega
  · intro same row member offset within
    obtain ⟨above, found⟩ := getElem?_of_block block member within
    rw [loaded_image, same, if_pos (by omega), bytes]
    exact found

-----------------------------------------------------------------------------------------
-- Origins
-----------------------------------------------------------------------------------------

theorem origin?_cons {token : Token} (other : token.kind ≠ .directive .org) (rest : List Token)
    : Source.origin? (token :: rest) = Source.origin? rest := by
  cases rest with
  | nil => rfl
  | cons next rest =>
      rw [Source.origin?]
      split
      · rename_i kind _
        exact absurd kind other
      · rfl

/-- Tokens that set no origin are passed over. -/
theorem origin?_append {earlier : List Token}
    (others : ∀ token ∈ earlier, token.kind ≠ .directive .org) (later : List Token)
    : Source.origin? (earlier ++ later) = Source.origin? later := by
  induction earlier with
  | nil => rfl
  | cons token earlier ih =>
      rw [List.cons_append, origin?_cons (others token (by simp)),
        ih fun other member => others other (by simp [member])]

/-- A stream in which no token sets an origin has none. -/
theorem origin?_of_unset (unset : ∀ token ∈ tokens, token.kind ≠ .directive .org)
    : Source.origin? tokens = none := by
  have none := origin?_append unset []
  rwa [List.append_nil] at none

theorem unmoved_of_unset (unset : ∀ token ∈ tokens, token.kind ≠ .directive .org)
    {statement : Statement} (member : statement ∈ Assembly.statements set tokens)
    : statement.moves = false := by
  cases statement with
  | origin directive operand? =>
      obtain ⟨token, rest, inside, started⟩ := exists_starting_of_mem member
      exact absurd (starting_eq_origin started).2.1 (unset token (inside.subset (by simp)))
  | data | string | label | assign | implied | operate | stray => rfl

theorem lastTarget?_append (earlier later : List Statement)
    : lastTarget? (earlier ++ later) = (lastTarget? later).or (lastTarget? earlier) := by
  simp [lastTarget?, List.getLast?_append]

theorem lastTarget?_of_unmoved (unmoved : ∀ statement ∈ statements, statement.moves = false)
    : lastTarget? statements = none := by
  induction statements with
  | nil => rfl
  | cons statement statements ih =>
      have fixed := unmoved statement (by simp)
      rw [lastTarget?_cons, ih fun other member => unmoved other (by simp [member])]
      cases statement with
      | origin => cases fixed
      | data | string | label | assign | implied | operate | stray => rfl

/-- The first directive of an expansion that sets the origin gives it its operand. -/
theorem origin?_of_first {earlier later : List Token} {directive operand : Token}
    (expanded : Expanded tokens)
    (spelt : ∀ token ∈ tokens, Spelt token.kind token.text.toList)
    (split : tokens = earlier ++ directive :: operand :: later)
    (others : ∀ token ∈ earlier, token.kind ≠ .directive .org)
    (sets : directive.kind = .directive .org)
    : ∃ address, wordValue? operand.text = some address ∧ Source.origin? tokens = some address := by
  obtain ⟨_, next, word⟩ := expanded.word_of_origin spelt ⟨earlier, split.symm⟩ sets
  obtain rfl := Option.some.inj next
  obtain ⟨address, word⟩ := Option.isSome_iff_exists.mp word
  refine ⟨address, word, ?_⟩
  rw [split, origin?_append others, Source.origin?, sets, word]

/-- Where the first directive that sets an origin begins a statement, the counter goes to the origin
there, and stays unless another statement moves it.
-/
theorem lastTarget?_of_first {before between others : List Statement} {directive operand : Token}
    (expanded : Expanded tokens)
    (spelt : ∀ token ∈ tokens, Spelt token.kind token.text.toList)
    (split : Assembly.statements set tokens
      = before ++ .origin directive (some operand) :: (between ++ others))
    (unset : ∀ statement ∈ before, ∀ token ∈ statement.tokens, token.kind ≠ .directive .org)
    (unmoved : ∀ statement ∈ between, statement.moves = false)
    : ∃ address,
        Source.origin? tokens = some address
        ∧ lastTarget? (before ++ .origin directive (some operand) :: between) = some address := by
  have cut : tokens = before.flatMap Statement.tokens
      ++ directive :: operand :: (between ++ others).flatMap Statement.tokens := by
    have whole : (Assembly.statements set tokens).flatMap Statement.tokens = tokens :=
      flatMap_tokens_statements tokens
    rw [split, List.flatMap_append, List.flatMap_cons] at whole
    exact whole.symm
  have member : .origin directive (some operand) ∈ Assembly.statements set tokens := by
    simp [split]
  obtain ⟨token, rest, -, started⟩ := exists_starting_of_mem member
  obtain ⟨rfl, sets, -⟩ := starting_eq_origin started
  have none : ∀ token ∈ before.flatMap Statement.tokens, token.kind ≠ .directive .org := by
    intro token inside
    obtain ⟨statement, member, inside⟩ := List.mem_flatMap.mp inside
    exact unset statement member token inside
  obtain ⟨address, word, found⟩ := origin?_of_first expanded spelt cut none sets
  refine ⟨address, found, ?_⟩
  rw [lastTarget?_append, lastTarget?_cons, lastTarget?_of_unmoved unmoved]
  simp [Statement.target?, word]

/-- A pass with a row has a first statement that emits. -/
theorem Trace.exists_first {counter : Nat} {changes : List Change}
    (trace : Trace set .assemble table counter statements changes) (listed : rows changes ≠ [])
    : ∃ front next back,
        statements = front ++ next :: back
        ∧ (∀ statement ∈ front, statement.emits = false)
        ∧ next.emits = true := by
  cases found : statements.find? Statement.emits with
  | none =>
      have silent : statements.countP Statement.emits = 0 :=
        List.countP_eq_zero.mpr (List.find?_eq_none.mp found)
      rw [← trace.length_rows, List.length_eq_zero_iff] at silent
      exact absurd silent listed
  | some next =>
      obtain ⟨emitting, front, back, split, silent⟩ := List.find?_eq_some_iff_append.mp found
      refine ⟨front, next, back, split, ?_, emitting⟩
      intro statement member
      simpa using silent statement member

-----------------------------------------------------------------------------------------
-- A run
-----------------------------------------------------------------------------------------

/-- When an image loads in place. In a run that succeeds and whose rows form one block with a byte
in it, the origin is the operand of the first directive that sets one, or the base, the first row
stands at the last origin in front of it, or at the base, and the image loads in place exactly when
these are one address. That is so in a stream without an origin, and where the first directive that
sets one begins a statement in front of the first row and is followed by no other there.
-/
theorem runSource_loads {assembler : Assembler} {file code : String} {base : UInt16}
    {output : Output} (succeeded : (assembler.runSource file code base).2 = .ok output)
    (emitted : output.bytes ≠ []) (block : output.Contiguous)
    : ∃ tokens front next back row,
        (Source.expand assembler.library assembler.root file code).outcome = .ok tokens
        ∧ Assembly.statements assembler.set tokens = front ++ next :: back
        ∧ (∀ statement ∈ front, statement.emits = false)
        ∧ next.emits = true
        ∧ output.rows[0]? = some row
        ∧ (∀ earlier directive operand later,
            tokens = earlier ++ directive :: operand :: later
            → (∀ token ∈ earlier, token.kind ≠ .directive .org)
            → directive.kind = .directive .org
            → wordValue? operand.text = some output.origin)
        ∧ ((∀ token ∈ tokens, token.kind ≠ .directive .org) → output.origin = base)
        ∧ row.address = (lastTarget? front).getD base
        ∧ (output.LoadsInPlace ↔ output.origin = row.address)
        ∧ ((∀ token ∈ tokens, token.kind ≠ .directive .org) → output.LoadsInPlace)
        ∧ ∀ before directive operand between,
            front = before ++ .origin directive (some operand) :: between
            → (∀ statement ∈ before, ∀ token ∈ statement.tokens, token.kind ≠ .directive .org)
            → (∀ statement ∈ between, statement.moves = false)
            → output.LoadsInPlace := by
  obtain ⟨tokens, log, expanded, assembled⟩ := expand_of_runSource succeeded
  obtain ⟨firsts, seconds, passes, -, rfl⟩ := twoPass_eq_ok_iff.mp assembled
  have settled := Source.expanded_of_expand expanded
  have spelt token member := (Source.spelt_of_mem_expand expanded token member).1
  obtain ⟨front, next, back, split, silent, emitting⟩ :=
    passes.assemble.exists_first fun none => emitted (by simp [outputOf, none])
  have trace := passes.assemble
  rw [split] at trace
  obtain ⟨row, listed, placed⟩ := trace.first_address silent emitting
  have inPlace := loadsInPlace_iff listed rfl emitted block
  refine ⟨tokens, front, next, back, row, expanded, split, silent, emitting, listed, ?_, ?_,
    placed, inPlace, ?_, ?_⟩
  · intro earlier directive operand later split others sets
    obtain ⟨address, word, found⟩ := origin?_of_first settled spelt split others sets
    simp [outputOf, word, found]
  · intro unset
    simp [outputOf, origin?_of_unset unset]
  · intro unset
    have unmoved : ∀ statement ∈ front, statement.moves = false := by
      intro statement member
      have inside : statement ∈ Assembly.statements assembler.set tokens := by
        simp [split, member]
      exact unmoved_of_unset unset inside
    rw [inPlace, placed, lastTarget?_of_unmoved unmoved]
    simp [outputOf, origin?_of_unset unset]
  · intro before directive operand between shape others unmoved
    rw [shape, List.append_assoc] at split
    obtain ⟨address, found, last⟩ := lastTarget?_of_first settled spelt split others unmoved
    rw [inPlace, placed, shape, last]
    simp [outputOf, found]

/-- What is put out for two data statements behind an origin. -/
def movedOutput : Output where
  origin := 0x0801
  bytes := [0x01, 0x02, 0x03]
  symbols := {}
  rows :=
    [⟨0x0801, [0x01], ".byte $01", none, ⟨"t", 0, 11⟩⟩,
      ⟨0x0802, [0x02, 0x03], ".word $0203", none, ⟨"t", 0, 21⟩⟩]

/-- What is put out for two data statements with an origin between them, which leaves the counter
where it is.
-/
def displacedOutput : Output where
  origin := 0xC001
  bytes := [0x01, 0x02]
  symbols := {}
  rows :=
    [⟨0xC000, [0x01], ".byte $01", none, ⟨"main.asm", 0, 0⟩⟩,
      ⟨0xC001, [0x02], ".byte $02", none, ⟨"main.asm", 2, 0⟩⟩]

theorem runSource_loads_moved
    : (smallAssembler.runSource "t" ".org $0801 .byte $01 .word $0203" 0xC000).2 = .ok movedOutput
      ∧ movedOutput.Contiguous
      ∧ movedOutput.LoadsInPlace := by
  have evaluated : (smallAssembler.runSource "t" ".org $0801 .byte $01 .word $0203"
      0xC000).2.toOption = some movedOutput := by
    decide +kernel
  have succeeded := eq_ok_of_toOption evaluated
  have block : movedOutput.Contiguous := by
    simp [Output.Contiguous, movedOutput, Row.Follows]
  obtain ⟨_, _, _, _, row, -, -, -, -, listed, -, -, -, inPlace, -⟩ :=
    runSource_loads succeeded (List.cons_ne_nil _ _) block
  obtain rfl := Option.some.inj listed
  exact ⟨succeeded, block, inPlace.mpr rfl⟩

/-- The rows form one block at the base, and the header is the origin in the middle of it. -/
theorem runSource_loads_displaced
    : (cpuAssembler.runSource "main.asm" ".byte $01\n.org $C001\n.byte $02" 0xC000).2
        = .ok displacedOutput
      ∧ displacedOutput.bytes ≠ []
      ∧ displacedOutput.Contiguous
      ∧ displacedOutput.rows.map (·.address) = [0xC000, 0xC001]
      ∧ displacedOutput.origin = 0xC001
      ∧ displacedOutput.image = [0x01, 0xC0, 0x01, 0x02]
      ∧ ¬ displacedOutput.LoadsInPlace := by
  have evaluated : (cpuAssembler.runSource "main.asm" ".byte $01\n.org $C001\n.byte $02"
      0xC000).2.toOption = some displacedOutput := by
    decide +kernel
  have block : displacedOutput.Contiguous := by
    simp [Output.Contiguous, displacedOutput, Row.Follows]
  refine ⟨eq_ok_of_toOption evaluated, List.cons_ne_nil _ _, block, rfl, rfl, rfl, ?_⟩
  rw [loadsInPlace_iff rfl rfl (List.cons_ne_nil _ _) block]
  decide

end Asm6510.Assembly
