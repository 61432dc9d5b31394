import Asm6510.Machine.InstructionSet
import Mathlib.Data.List.Nodup

/-! Instruction sets built entry by entry. Whatever is refused on the way, each mnemonic names one
instruction, and the index leads from every opcode back to the instruction and mode it was bound to.
-/

namespace Asm6510.Machine

/-- A set reached from the empty one by registering instructions and binding modes. -/
inductive Built : InstructionSet → Prop
  | empty
    : Built .empty
  | register {set : InstructionSet} (built : Built set) (mnemonic description : String)
    : Built (set.register mnemonic description).1
  | bind {set : InstructionSet} (built : Built set) (mnemonic : String) (mode : Mode)
    (opcode : UInt8)
    : Built (set.bind mnemonic mode opcode).1

/-- An entry offered to a set: an instruction to register, or an opcode to bind. -/
inductive Entry where
  | register (mnemonic description : String)
  | bind (mnemonic : String) (mode : Mode) (opcode : UInt8)
deriving DecidableEq, Repr

namespace InstructionSet

/-- Offers an entry to a set, which takes it or answers with a refusal. -/
def enter (set : InstructionSet) : Entry → InstructionSet × Option Refusal
  | .register mnemonic description => set.register mnemonic description
  | .bind mnemonic mode opcode => set.bind mnemonic mode opcode

/-- Offers entries one after the other, and collects the answers. -/
def enterAll (set : InstructionSet) : List Entry → InstructionSet × List (Option Refusal)
  | [] => (set, [])
  | entry :: rest =>
      let (next, answer) := set.enter entry
      let (last, answers) := next.enterAll rest
      (last, answer :: answers)

end InstructionSet

theorem Built.enter {set : InstructionSet} (built : Built set) (entry : Entry)
    : Built (set.enter entry).1 := by
  cases entry with
  | register mnemonic description => exact built.register mnemonic description
  | bind mnemonic mode opcode => exact built.bind mnemonic mode opcode

theorem Built.enterAll {set : InstructionSet} (built : Built set) (entries : List Entry)
    : Built (set.enterAll entries).1 := by
  induction entries generalizing set with
  | nil => exact built
  | cons entry rest ih => exact ih (built.enter entry)

/-- The index of a set knows the owner of every opcode in it, and owners can be told apart by
their mnemonics.
-/
structure Indexed (set : InstructionSet) : Prop where
  distinct : (set.instructions.map (·.mnemonic)).Nodup
  owned
    : ∀ instruction ∈ set.instructions, ∀ bound ∈ instruction.modes,
        set.opcodes.owner? bound.2 = some ⟨instruction.mnemonic, bound.1⟩

variable {set : InstructionSet} {instruction : Instruction} {mnemonic : String} {mode : Mode}
  {opcode : UInt8}

namespace OpcodeIndex

variable {index : OpcodeIndex} {owner : Owner}

/-- A new pair is found by its opcode, since older pairs with that opcode are dropped. -/
theorem owner?_insert_self
    : (index.insert opcode owner).owner? opcode = some owner := by
  refine List.lookup_eq_some_iff.mpr ⟨_, [], rfl, ?_⟩
  intro pair member
  obtain ⟨-, kept⟩ := List.mem_filter.mp member
  have other : pair.1 ≠ opcode := by
    simpa using (Bool.and_eq_true_iff.mp kept).1
  simpa using other.symm

/-- A pair that shares neither side with the new one is still found. -/
theorem owner?_insert_of_ne {other : UInt8} {owner' : Owner}
    (found : index.owner? other = some owner') (apart : other ≠ opcode) (different : owner' ≠ owner)
    : (index.insert opcode owner).owner? other = some owner' := by
  obtain ⟨before, after, split, earlier⟩ := List.lookup_eq_some_iff.mp found
  let keeps (pair : UInt8 × Owner) : Bool := pair.1 != opcode && pair.2 != owner
  have kept : keeps (other, owner') = true := by
    simp [keeps, apart, different]
  refine List.lookup_eq_some_iff.mpr
    ⟨before.filter keeps, after.filter keeps ++ [(opcode, owner)], ?_, ?_⟩
  · change index.pairs.filter keeps ++ [(opcode, owner)] = _
    rw [split, List.filter_append, List.filter_cons_of_pos kept, List.append_assoc,
      List.cons_append]
  · intro pair member
    exact earlier pair (List.mem_filter.mp member).1

end OpcodeIndex

/-- A bound mode is one that the instruction can be used in. -/
theorem Instruction.supports_of_mem {bound : Mode × UInt8} (member : bound ∈ instruction.modes)
    : instruction.supports bound.1 = true := by
  simpa [supports, opcode?] using ⟨bound.2, member⟩

/-- A mnemonic that names one instruction finds it. -/
theorem Indexed.lookup_of_mem (indexed : Indexed set) (member : instruction ∈ set.instructions)
    : set.lookup instruction.mnemonic = some instruction := by
  cases found : set.lookup instruction.mnemonic with
  | none =>
      have other := List.find?_eq_none.mp found instruction member
      simp at other
  | some first =>
      have listed := List.mem_of_find?_eq_some found
      have named : first.mnemonic = instruction.mnemonic := by
        simpa using List.find?_some found
      rw [List.inj_on_of_nodup_map indexed.distinct listed member named]

/-- Decoding an opcode gives back the instruction and mode that it is bound to. -/
theorem Indexed.decode_of_mem (indexed : Indexed set) (member : instruction ∈ set.instructions)
    (bound : (mode, opcode) ∈ instruction.modes)
    : set.decode opcode = some (instruction, mode) := by
  simp [InstructionSet.decode, indexed.owned instruction member _ bound,
    indexed.lookup_of_mem member]

-----------------------------------------------------------------------------------------
-- What an entry can do
-----------------------------------------------------------------------------------------

/-- A registration is refused, or the mnemonic is new and its instruction comes last. -/
theorem register_cases (set : InstructionSet) (mnemonic description : String)
    : (∃ refusal, set.register mnemonic description = set.refuse refusal)
      ∨ set.lookup mnemonic = none
        ∧ set.register mnemonic description
          = ({ set with
                instructions := set.instructions ++ [.unbound mnemonic description] }, none) := by
  unfold InstructionSet.register
  split
  · exact Or.inl ⟨_, rfl⟩
  · rename_i unknown
    exact Or.inr ⟨by simpa [InstructionSet.isInstruction] using unknown, rfl⟩

/-- Nothing stands against a binding: the mnemonic is registered, the mode is new to it, an
implied instruction stays alone, and nobody owns the opcode.
-/
def InstructionSet.Admits (set : InstructionSet) (mnemonic : String) (mode : Mode)
    (opcode : UInt8) : Prop :=
  ∃ instruction,
    set.lookup mnemonic = some instruction
    ∧ instruction.supports mode = false
    ∧ (instruction.modes = [] ∨ instruction.isImplied = false ∧ mode ≠ .implied)
    ∧ set.opcodes.owner? opcode = none

theorem obstacle?_eq_none_iff
    : set.obstacle? mnemonic mode opcode = none ↔ set.Admits mnemonic mode opcode := by
  unfold InstructionSet.obstacle? InstructionSet.Admits
  cases set.lookup mnemonic with
  | none => simp
  | some instruction =>
      cases supported : instruction.supports mode with
      | true => simp [supported]
      | false =>
          cases modes : instruction.modes with
          | nil => simp [supported, modes]
          | cons first rest =>
              cases implied : instruction.isImplied with
              | true => simp [supported, modes, implied]
              | false =>
                  by_cases same : mode = .implied
                  · subst same
                    simp [supported, modes, implied]
                  · simp [supported, modes, implied, same]

/-- The instruction after a binding, which adds a mode to it if it has the mnemonic. -/
def Instruction.extended (instruction : Instruction) (mnemonic : String) (mode : Mode)
    (opcode : UInt8) : Instruction :=
  if instruction.mnemonic == mnemonic then instruction.withMode mode opcode else instruction

@[simp]
theorem Instruction.mnemonic_extended
    : (instruction.extended mnemonic mode opcode).mnemonic = instruction.mnemonic := by
  unfold extended
  split <;> rfl

@[simp]
theorem Instruction.description_extended
    : (instruction.extended mnemonic mode opcode).description = instruction.description := by
  unfold extended
  split <;> rfl

/-- The modes after a binding are those before it and the one it adds. -/
theorem Instruction.mem_modes_extended {bound : Mode × UInt8}
    : bound ∈ (instruction.extended mnemonic mode opcode).modes
      ↔ bound ∈ instruction.modes ∨ instruction.mnemonic = mnemonic ∧ bound = (mode, opcode) := by
  unfold extended
  split
  · rename_i named
    simp [withMode, show instruction.mnemonic = mnemonic by simpa using named]
  · rename_i named
    simp [show instruction.mnemonic ≠ mnemonic by simpa using named]

/-- The set after a binding that nothing stands against. -/
def InstructionSet.extended (set : InstructionSet) (mnemonic : String) (mode : Mode)
    (opcode : UInt8) : InstructionSet :=
  { set with
    instructions := set.instructions.map (·.extended mnemonic mode opcode)
    opcodes := set.opcodes.insert opcode ⟨mnemonic, mode⟩ }

/-- A binding is refused, or nothing stands against it and it extends the set. -/
theorem bind_cases (set : InstructionSet) (mnemonic : String) (mode : Mode) (opcode : UInt8)
    : (∃ refusal, set.bind mnemonic mode opcode = set.refuse refusal)
      ∨ set.Admits mnemonic mode opcode
        ∧ set.bind mnemonic mode opcode = (set.extended mnemonic mode opcode, none) := by
  unfold InstructionSet.bind
  split
  · exact Or.inl ⟨_, rfl⟩
  · rename_i free
    exact Or.inr ⟨obstacle?_eq_none_iff.mp free, rfl⟩

-----------------------------------------------------------------------------------------
-- Every entry keeps the index in step
-----------------------------------------------------------------------------------------

/-- The record of refusals is no part of the index. -/
theorem Indexed.refuse (indexed : Indexed set) (refusal : Refusal)
    : Indexed (set.refuse refusal).1 :=
  ⟨indexed.distinct, indexed.owned⟩

theorem Indexed.register (indexed : Indexed set) (mnemonic description : String)
    : Indexed (set.register mnemonic description).1 := by
  rcases register_cases set mnemonic description with ⟨refusal, refused⟩ | ⟨unknown, registered⟩
  · rw [refused]
    exact indexed.refuse refusal
  · rw [registered]
    have fresh : mnemonic ∉ set.instructions.map (·.mnemonic) := by
      simpa [InstructionSet.lookup] using unknown
    constructor
    · rw [List.map_append]
      refine List.nodup_append.mpr ⟨indexed.distinct, by simp, ?_⟩
      intro first listed second new same
      obtain rfl : second = mnemonic := by simpa [Instruction.unbound] using new
      exact fresh (same ▸ listed)
    · intro instruction member bound inside
      rcases List.mem_append.mp member with old | new
      · exact indexed.owned instruction old bound inside
      · obtain rfl := List.mem_singleton.mp new
        cases inside

/-- Binding keeps the index in step: the new opcode was free, and the new owner had none. -/
theorem Indexed.bind (indexed : Indexed set) (mnemonic : String) (mode : Mode) (opcode : UInt8)
    : Indexed (set.bind mnemonic mode opcode).1 := by
  rcases bind_cases set mnemonic mode opcode with ⟨refusal, refused⟩ | ⟨admitted, bound⟩
  · rw [refused]
    exact indexed.refuse refusal
  · rw [bound]
    obtain ⟨target, found, unsupported, -, unowned⟩ := admitted
    constructor
    · simpa [InstructionSet.extended, Function.comp_def] using indexed.distinct
    · intro instruction member bound inside
      obtain ⟨old, listed, rfl⟩ := List.mem_map.mp member
      rw [Instruction.mnemonic_extended]
      rcases Instruction.mem_modes_extended.mp inside with before | ⟨rfl, rfl⟩
      · have owner := indexed.owned old listed bound before
        apply OpcodeIndex.owner?_insert_of_ne owner
        · intro taken
          rw [taken, unowned] at owner
          cases owner
        · intro equal
          obtain ⟨named, used⟩ := Owner.mk.inj equal
          have supported := Instruction.supports_of_mem before
          have same : old = target := by
            have looked := indexed.lookup_of_mem listed
            rw [named, found] at looked
            exact (Option.some.inj looked).symm
          rw [used, same, unsupported] at supported
          cases supported
      · exact OpcodeIndex.owner?_insert_self

/-- Every set that is built has an index in step with its instructions. -/
theorem Built.indexed (built : Built set)
    : Indexed set := by
  induction built with
  | empty => exact ⟨List.nodup_nil, fun instruction member => by cases member⟩
  | register built mnemonic description ih => exact ih.register mnemonic description
  | bind built mnemonic mode opcode ih => exact ih.bind mnemonic mode opcode

end Asm6510.Machine
