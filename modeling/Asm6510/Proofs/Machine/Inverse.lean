import Asm6510.Proofs.Machine.Built

/-! Decoding and looking up are inverse to each other. The index of a set that is built holds the
opcodes of its instructions and nothing else, so each opcode stands for one instruction in one mode.
-/

namespace Asm6510.Machine

variable {set : InstructionSet} {instruction : Instruction} {mnemonic : String} {mode : Mode}
  {opcode : UInt8}

-----------------------------------------------------------------------------------------
-- Instructions whose modes can be told apart
-----------------------------------------------------------------------------------------

/-- Each mode of an instruction is bound once, and an implied instruction has no other mode. -/
structure Instruction.Orderly (instruction : Instruction) : Prop where
  distinct : (instruction.modes.map (·.1)).Nodup
  alone : instruction.isImplied = true → ∃ opcode, instruction.modes = [(.implied, opcode)]

namespace Instruction

theorem mem_modes_of_opcode? (found : instruction.opcode? mode = some opcode)
    : (mode, opcode) ∈ instruction.modes := by
  obtain ⟨before, after, split, -⟩ := List.lookup_eq_some_iff.mp found
  rw [split]
  exact List.mem_append_right before List.mem_cons_self

theorem Orderly.opcode?_of_mem (orderly : instruction.Orderly)
    (bound : (mode, opcode) ∈ instruction.modes)
    : instruction.opcode? mode = some opcode := by
  obtain ⟨other, found⟩ := Option.isSome_iff_exists.mp (supports_of_mem bound)
  have listed := mem_modes_of_opcode? found
  have same := List.inj_on_of_nodup_map orderly.distinct listed bound rfl
  rw [found, (Prod.mk.inj same).2]

theorem orderly_unbound (mnemonic description : String)
    : (unbound mnemonic description).Orderly := by
  constructor
  · exact List.nodup_nil
  · intro implied
    cases implied

/-- A new mode keeps the modes apart. It keeps an implied instruction alone, since there are no
other modes or neither it nor they are implied.
-/
theorem Orderly.withMode (orderly : instruction.Orderly) (new : instruction.supports mode = false)
    (room : instruction.modes = [] ∨ instruction.isImplied = false ∧ mode ≠ .implied)
    : (instruction.withMode mode opcode).Orderly := by
  constructor
  · simp only [Instruction.withMode, List.map_append, List.map_cons, List.map_nil]
    apply orderly.distinct.append (List.nodup_singleton mode)
    intro used listed added
    obtain rfl := List.mem_singleton.mp added
    obtain ⟨bound, member, rfl⟩ := List.mem_map.mp listed
    rw [supports_of_mem member] at new
    cases new
  · intro implied
    obtain ⟨used, found⟩ := Option.isSome_iff_exists.mp implied
    rcases List.mem_append.mp (mem_modes_of_opcode? found) with old | added
    · rcases room with empty | ⟨unimplied, -⟩
      · rw [empty] at old
        cases old
      · have supported := supports_of_mem old
        rw [← isImplied, unimplied] at supported
        cases supported
    · obtain ⟨rfl, rfl⟩ := Prod.mk.inj (List.mem_singleton.mp added)
      rcases room with empty | ⟨-, other⟩
      · exact ⟨used, by rw [Instruction.withMode, empty, List.nil_append]⟩
      · exact absurd rfl other

end Instruction

-----------------------------------------------------------------------------------------
-- Sets whose index holds nothing else
-----------------------------------------------------------------------------------------

/-- The index holds nothing but the opcodes of the instructions, whose modes can be told apart. -/
structure Matched (set : InstructionSet) : Prop where
  indexed : Indexed set
  backed
    : ∀ pair ∈ set.opcodes.pairs, ∃ instruction ∈ set.instructions,
        instruction.mnemonic = pair.2.mnemonic ∧ (pair.2.mode, pair.1) ∈ instruction.modes
  orderly : ∀ instruction ∈ set.instructions, instruction.Orderly

/-- What is found under a mnemonic is a stored instruction that has it. -/
theorem mem_of_lookup (found : set.lookup mnemonic = some instruction)
    : instruction ∈ set.instructions ∧ instruction.mnemonic = mnemonic :=
  ⟨List.mem_of_find?_eq_some found, by simpa using List.find?_some found⟩

theorem Matched.refuse (matched : Matched set) (refusal : Refusal)
    : Matched (set.refuse refusal).1 :=
  ⟨matched.indexed.refuse refusal, matched.backed, matched.orderly⟩

theorem Matched.register (matched : Matched set) (mnemonic description : String)
    : Matched (set.register mnemonic description).1 := by
  have indexed := matched.indexed.register mnemonic description
  rcases register_cases set mnemonic description with ⟨refusal, refused⟩ | ⟨-, registered⟩
  · rw [refused]
    exact matched.refuse refusal
  · rw [registered] at indexed ⊢
    refine ⟨indexed, ?_, ?_⟩
    · intro pair listed
      obtain ⟨instruction, member, owner⟩ := matched.backed pair listed
      exact ⟨instruction, List.mem_append_left _ member, owner⟩
    · intro instruction member
      rcases List.mem_append.mp member with old | new
      · exact matched.orderly instruction old
      · obtain rfl := List.mem_singleton.mp new
        exact Instruction.orderly_unbound mnemonic description

/-- Binding adds one pair to the index and the mode that backs it; what it drops from the index is
no loss.
-/
theorem Matched.bind (matched : Matched set) (mnemonic : String) (mode : Mode) (opcode : UInt8)
    : Matched (set.bind mnemonic mode opcode).1 := by
  have indexed := matched.indexed.bind mnemonic mode opcode
  rcases bind_cases set mnemonic mode opcode with ⟨refusal, refused⟩ | ⟨admitted, bound⟩
  · rw [refused]
    exact matched.refuse refusal
  · rw [bound] at indexed ⊢
    obtain ⟨target, found, unsupported, room, -⟩ := admitted
    obtain ⟨stored, named⟩ := mem_of_lookup found
    refine ⟨indexed, ?_, ?_⟩
    · intro pair listed
      rcases List.mem_append.mp listed with kept | new
      · obtain ⟨old, member, owner, backing⟩ := matched.backed pair (List.mem_filter.mp kept).1
        refine ⟨old.extended mnemonic mode opcode, List.mem_map_of_mem member, ?_, ?_⟩
        · rw [Instruction.mnemonic_extended, owner]
        · exact Instruction.mem_modes_extended.mpr (Or.inl backing)
      · obtain rfl := List.mem_singleton.mp new
        refine ⟨target.extended mnemonic mode opcode, List.mem_map_of_mem stored, ?_, ?_⟩
        · rw [Instruction.mnemonic_extended, named]
        · exact Instruction.mem_modes_extended.mpr (Or.inr ⟨named, rfl⟩)
    · intro instruction member
      obtain ⟨old, listed, rfl⟩ := List.mem_map.mp member
      unfold Instruction.extended
      split
      · -- No instruction but the one that was looked up has the mnemonic.
        rename_i same
        have lookedUp := matched.indexed.lookup_of_mem listed
        rw [show old.mnemonic = mnemonic by simpa using same, found] at lookedUp
        obtain rfl := Option.some.inj lookedUp
        exact (matched.orderly target stored).withMode unsupported room
      · exact matched.orderly old listed

/-- The index of a set that is built holds its opcodes and nothing else. -/
theorem Built.matched (built : Built set)
    : Matched set := by
  induction built with
  | empty =>
      refine ⟨Built.empty.indexed, ?_, ?_⟩
      · intro pair listed
        cases listed
      · intro instruction member
        cases member
  | register built mnemonic description ih => exact ih.register mnemonic description
  | bind built mnemonic mode opcode ih => exact ih.bind mnemonic mode opcode

-----------------------------------------------------------------------------------------
-- Both ways lead to the same instruction
-----------------------------------------------------------------------------------------

namespace Matched

/-- An instruction that an opcode decodes to is found under its mnemonic with that opcode. -/
theorem lookup_of_decode (matched : Matched set)
    (decoded : set.decode opcode = some (instruction, mode))
    : set.lookup instruction.mnemonic = some instruction
      ∧ instruction.opcode? mode = some opcode := by
  obtain ⟨owner, owned, found⟩ := Option.bind_eq_some_iff.mp decoded
  obtain ⟨known, lookedUp, same⟩ := Option.bind_eq_some_iff.mp found
  obtain ⟨rfl, rfl⟩ := Prod.mk.inj (Option.some.inj same)
  obtain ⟨before, after, split, -⟩ := List.lookup_eq_some_iff.mp owned
  obtain ⟨backing, member, named, bound⟩ := matched.backed (opcode, owner) (by simp [split])
  have stored := matched.indexed.lookup_of_mem member
  rw [named, lookedUp] at stored
  obtain rfl := Option.some.inj stored
  exact ⟨named ▸ lookedUp, (matched.orderly known member).opcode?_of_mem bound⟩

theorem decode_of_lookup (matched : Matched set) (found : set.lookup mnemonic = some instruction)
    (bound : instruction.opcode? mode = some opcode)
    : set.decode opcode = some (instruction, mode) :=
  matched.indexed.decode_of_mem (mem_of_lookup found).1 (Instruction.mem_modes_of_opcode? bound)

end Matched

/-- Decoding an opcode gives an instruction and a mode exactly if that instruction is found under
its mnemonic and has the opcode in that mode. So no opcode belongs to two of them; every stored
instruction is found under its own mnemonic; and an instruction that supports the implied mode has
that mode alone.
-/
theorem decode_inverts_lookup {set : InstructionSet} (built : Built set)
    : (∀ opcode mnemonic mode instruction,
        set.decode opcode = some (instruction, mode) ∧ instruction.mnemonic = mnemonic
        ↔ set.lookup mnemonic = some instruction ∧ instruction.opcode? mode = some opcode)
      ∧ (∀ opcode mnemonic mnemonic' mode mode' instruction instruction',
          set.lookup mnemonic = some instruction
          → instruction.opcode? mode = some opcode
          → set.lookup mnemonic' = some instruction'
          → instruction'.opcode? mode' = some opcode
          → mnemonic = mnemonic' ∧ mode = mode')
      ∧ (∀ mnemonic instruction,
          set.lookup mnemonic = some instruction
          ↔ instruction ∈ set.instructions ∧ instruction.mnemonic = mnemonic)
      ∧ ∀ instruction ∈ set.instructions,
          instruction.supports .implied = true
          → ∃ opcode, instruction.modes = [(.implied, opcode)] := by
  have matched := built.matched
  refine ⟨?_, ?_, ?_, ?_⟩
  · intro opcode mnemonic mode instruction
    constructor
    · rintro ⟨decoded, rfl⟩
      exact matched.lookup_of_decode decoded
    · rintro ⟨found, bound⟩
      exact ⟨matched.decode_of_lookup found bound, (mem_of_lookup found).2⟩
  · intro opcode mnemonic mnemonic' mode mode' instruction instruction' found bound found' bound'
    have decoded := matched.decode_of_lookup found bound
    rw [matched.decode_of_lookup found' bound'] at decoded
    obtain ⟨rfl, rfl⟩ := Prod.mk.inj (Option.some.inj decoded)
    exact ⟨(mem_of_lookup found).2.symm.trans (mem_of_lookup found').2, rfl⟩
  · intro mnemonic instruction
    constructor
    · exact mem_of_lookup
    · rintro ⟨member, rfl⟩
      exact matched.indexed.lookup_of_mem member
  · intro instruction member implied
    exact (matched.orderly instruction member).alone implied

/-- Entries for two instructions, and then one entry for each way to be refused. -/
def sampleEntries : List Entry :=
  [.register "LDA" "Load Accumulator with Memory",
    .register "RTS" "Return from Subroutine",
    .bind "LDA" .immediate 0xA9,
    .bind "LDA" .absolute 0xAD,
    .bind "RTS" .implied 0x60,
    .register "LDA" "again",
    .bind "XYZ" .implied 0x02,
    .bind "LDA" .immediate 0x00,
    .bind "LDA" .zeroPage 0x60,
    .bind "RTS" .absolute 0x03,
    .bind "LDA" .implied 0x04]

/-- The set built from the sample entries. -/
def sampleSet : InstructionSet :=
  (InstructionSet.empty.enterAll sampleEntries).1

theorem decode_inverts_lookup_sample
    : ∃ load back,
        sampleSet.lookup "LDA" = some load
        ∧ sampleSet.decode 0xAD = some (load, .absolute)
        ∧ sampleSet.lookup "RTS" = some back
        ∧ ∃ opcode, back.modes = [(.implied, opcode)] := by
  have built : Built sampleSet := Built.empty.enterAll sampleEntries
  obtain ⟨inverse, -, stored, implied⟩ := decode_inverts_lookup built
  have load : sampleSet.lookup "LDA"
      = some ⟨"LDA", "Load Accumulator with Memory", [(.immediate, 0xA9), (.absolute, 0xAD)]⟩ := rfl
  have back : sampleSet.lookup "RTS"
      = some ⟨"RTS", "Return from Subroutine", [(.implied, 0x60)]⟩ := rfl
  refine ⟨_, _, load, ?_, back, ?_⟩
  · exact ((inverse 0xAD "LDA" .absolute _).mpr ⟨load, rfl⟩).1
  · exact implied _ ((stored "RTS" _).mp back).1 rfl

end Asm6510.Machine
