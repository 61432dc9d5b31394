import Asm6510.Machine.Cpu6510
import Asm6510.Proofs.Machine.Built

/-! Branches. The first pass measures a branch as two bytes whatever its operand is, which is only
right where a branch has no other mode; the 6510 is built so.
-/

namespace Asm6510.Machine

/-- An instruction that is a branch is used in no other mode. -/
def BranchAlone (instruction : Instruction) : Prop :=
  instruction.isBranch = true → ∀ bound ∈ instruction.modes, bound.1 = .relative

/-- No branch of the set has another mode. -/
def BranchesAlone (set : InstructionSet) : Prop :=
  ∀ instruction ∈ set.instructions, BranchAlone instruction

/-- Every mode of an instruction of the set is listed for its mnemonic in a table. -/
def ListedIn (table : List (String × Mode × UInt8)) (set : InstructionSet) : Prop :=
  ∀ instruction ∈ set.instructions, ∀ bound ∈ instruction.modes,
    (instruction.mnemonic, bound.1, bound.2) ∈ table

variable {table : List (String × Mode × UInt8)} {set : InstructionSet}

theorem ListedIn.register (listed : ListedIn table set) (mnemonic description : String)
    : ListedIn table (set.register mnemonic description).1 := by
  rcases register_cases set mnemonic description with ⟨refusal, refused⟩ | ⟨-, registered⟩
  · rw [refused]
    exact listed
  · rw [registered]
    intro instruction member bound inside
    rcases List.mem_append.mp member with old | new
    · exact listed instruction old bound inside
    · obtain rfl := List.mem_singleton.mp new
      cases inside

/-- Binding a mode that the table lists keeps every mode listed. -/
theorem ListedIn.bind (listed : ListedIn table set) {mnemonic : String} {mode : Mode}
    {opcode : UInt8} (entry : (mnemonic, mode, opcode) ∈ table)
    : ListedIn table (set.bind mnemonic mode opcode).1 := by
  rcases bind_cases set mnemonic mode opcode with ⟨refusal, refused⟩ | ⟨-, bound⟩
  · rw [refused]
    exact listed
  · rw [bound]
    intro instruction member bound inside
    obtain ⟨old, found, rfl⟩ := List.mem_map.mp member
    rw [Instruction.mnemonic_extended]
    rcases Instruction.mem_modes_extended.mp inside with before | ⟨rfl, rfl⟩
    · exact listed old found bound before
    · exact entry

/-- The modes of the 6510 come from its table of opcodes. -/
theorem listedIn_cpu6510
    : ListedIn Cpu6510.opcodes .cpu6510 := by
  have registered : ListedIn Cpu6510.opcodes (Cpu6510.mnemonics.foldl
      (fun set entry => (set.register entry.1 entry.2).1) InstructionSet.empty) := by
    refine List.foldlRecOn _ _ ?_ ?_
    · intro instruction member
      cases member
    · intro set listed entry _
      exact listed.register entry.1 entry.2
  refine List.foldlRecOn _ _ registered ?_
  intro set listed entry member
  exact listed.bind member

/-- The branches of the 6510 have no other mode. -/
theorem branchesAlone_cpu6510
    : BranchesAlone .cpu6510 := by
  have table : ∀ entry ∈ Cpu6510.opcodes.filter (·.2.1 == .relative), ∀ other ∈ Cpu6510.opcodes,
      other.1 = entry.1 → other.2.1 = .relative := by
    decide +kernel
  intro instruction member branch bound inside
  obtain ⟨opcode, found⟩ := Option.isSome_iff_exists.mp branch
  obtain ⟨before, after, split, -⟩ := List.lookup_eq_some_iff.mp found
  have relative := listedIn_cpu6510 instruction member (.relative, opcode) (by simp [split])
  have listed := listedIn_cpu6510 instruction member bound inside
  exact table _ (List.mem_filter.mpr ⟨relative, rfl⟩) _ listed rfl

end Asm6510.Machine
