import Asm6510.Proofs.Machine.Inverse

/-! Refused entries leave nothing behind but their record. What a set answers is what the entries
it took make of it, and what it took stays as it was taken.
-/

namespace Asm6510.Machine

variable {set next : InstructionSet} {instruction : Instruction} {entry : Entry}
  {entries : List Entry} {mnemonic : String} {mode : Mode} {opcode : UInt8}

-----------------------------------------------------------------------------------------
-- The record is written and never read
-----------------------------------------------------------------------------------------

/-- The set with another record of refusals. -/
def InstructionSet.recording (set : InstructionSet) (record : List Refusal) : InstructionSet :=
  { set with refused := record }

/-- An entry is answered alike whatever is on record, and its answer goes on record. -/
theorem enter_recording (set : InstructionSet) (record : List Refusal) (entry : Entry)
    : (set.recording record).enter entry
      = ((set.enter entry).1.recording (record ++ (set.enter entry).2.toList),
          (set.enter entry).2) := by
  cases entry with
  | register mnemonic description =>
      have same : (set.recording record).isInstruction mnemonic = set.isInstruction mnemonic := rfl
      simp only [InstructionSet.enter, InstructionSet.register, same]
      split
      · rfl
      · simp [InstructionSet.recording]
  | bind mnemonic mode opcode =>
      have same : (set.recording record).obstacle? mnemonic mode opcode
          = set.obstacle? mnemonic mode opcode := rfl
      simp only [InstructionSet.enter, InstructionSet.bind, same]
      split
      · rfl
      · simp [InstructionSet.recording]

theorem refused_enter (set : InstructionSet) (entry : Entry)
    : (set.enter entry).1.refused = set.refused ++ (set.enter entry).2.toList :=
  congrArg (·.1.refused) (enter_recording set set.refused entry)

@[simp]
theorem enterAll_cons (set : InstructionSet) (entry : Entry) (rest : List Entry)
    : set.enterAll (entry :: rest)
      = (((set.enter entry).1.enterAll rest).1,
          (set.enter entry).2 :: ((set.enter entry).1.enterAll rest).2) :=
  rfl

/-- The record grows by the refusals among the answers, in their order. -/
theorem refused_enterAll (set : InstructionSet) (entries : List Entry)
    : (set.enterAll entries).1.refused
      = set.refused ++ (set.enterAll entries).2.filterMap id := by
  induction entries generalizing set with
  | nil => simp [InstructionSet.enterAll]
  | cons entry rest ih =>
      rw [enterAll_cons, ih, refused_enter, List.append_assoc]
      cases (set.enter entry).2 with
      | none => rfl
      | some refusal => rfl

-----------------------------------------------------------------------------------------
-- Replaying what was taken
-----------------------------------------------------------------------------------------

/-- The entries that were answered without a refusal. -/
def taken (entries : List Entry) (answers : List (Option Refusal)) : List Entry :=
  ((entries.zip answers).filter (·.2.isNone)).map (·.1)

/-- An entry is refused, which touches nothing but the record, or it is taken. -/
theorem enter_cases (set : InstructionSet) (entry : Entry)
    : (∃ refusal, set.enter entry = set.refuse refusal) ∨ (set.enter entry).2 = none := by
  cases entry with
  | register mnemonic description =>
      rcases register_cases set mnemonic description with refused | ⟨-, registered⟩
      · exact Or.inl refused
      · exact Or.inr (congrArg (·.2) registered)
  | bind mnemonic mode opcode =>
      rcases bind_cases set mnemonic mode opcode with refused | ⟨-, bound⟩
      · exact Or.inl refused
      · exact Or.inr (congrArg (·.2) bound)

/-- The entries that were taken are taken again without the others, and make the same set.
Witness: induction on the entries, for any record that the replay starts with.
-/
theorem enterAll_taken (set : InstructionSet) (record : List Refusal) (entries : List Entry)
    : (set.recording record).enterAll (taken entries (set.enterAll entries).2)
      = ((set.enterAll entries).1.recording record,
          (taken entries (set.enterAll entries).2).map fun _ => none) := by
  induction entries generalizing set with
  | nil => rfl
  | cons entry rest ih =>
      rw [enterAll_cons]
      rcases enter_cases set entry with ⟨refusal, refused⟩ | accepted
      · -- The rest is entered into a set that differs in its record, which the replay leaves out.
        rw [refused]
        exact ih (set.refuse refusal).1
      · have kept : taken (entry :: rest) ((set.enter entry).2
              :: ((set.enter entry).1.enterAll rest).2)
            = entry :: taken rest ((set.enter entry).1.enterAll rest).2 := by
          simp [taken, accepted]
        have entered := enter_recording set record entry
        rw [accepted, Option.toList_none, List.append_nil] at entered
        rw [kept, enterAll_cons, entered, ih]
        rfl

-----------------------------------------------------------------------------------------
-- What was taken stands
-----------------------------------------------------------------------------------------

/-- Every instruction of a set is still found in a later one, with the same description, and with
its modes in front of those it has got since.
-/
def Grows (set next : InstructionSet) : Prop :=
  ∀ mnemonic instruction, set.lookup mnemonic = some instruction →
    ∃ later,
      next.lookup mnemonic = some later
      ∧ later.description = instruction.description
      ∧ instruction.modes <+: later.modes

theorem Grows.refl (set : InstructionSet)
    : Grows set set :=
  fun _ instruction found => ⟨instruction, found, rfl, List.prefix_refl _⟩

theorem Grows.trans {last : InstructionSet} (first : Grows set next) (second : Grows next last)
    : Grows set last := by
  intro mnemonic instruction found
  obtain ⟨later, foundLater, described, modes⟩ := first mnemonic instruction found
  obtain ⟨latest, foundLatest, describedLater, more⟩ := second mnemonic later foundLater
  exact ⟨latest, foundLatest, describedLater.trans described, modes.trans more⟩

theorem Instruction.modes_prefix_extended
    : instruction.modes <+: (instruction.extended mnemonic mode opcode).modes := by
  unfold extended
  split
  · exact List.prefix_append _ _
  · exact List.prefix_refl _

theorem lookup_extended (name : String)
    : (set.extended mnemonic mode opcode).lookup name
      = (set.lookup name).map (·.extended mnemonic mode opcode) := by
  simp only [InstructionSet.lookup, InstructionSet.extended, List.find?_map, Function.comp_def,
    Instruction.mnemonic_extended]

/-- No entry takes anything away. -/
theorem grows_enter (set : InstructionSet) (entry : Entry)
    : Grows set (set.enter entry).1 := by
  cases entry with
  | register mnemonic description =>
      rcases register_cases set mnemonic description with ⟨refusal, refused⟩ | ⟨-, registered⟩
      · rw [InstructionSet.enter, refused]
        exact Grows.refl set
      · rw [InstructionSet.enter, registered]
        intro name instruction found
        refine ⟨instruction, ?_, rfl, List.prefix_refl _⟩
        rw [InstructionSet.lookup] at found
        simp [InstructionSet.lookup, List.find?_append, found]
  | bind mnemonic mode opcode =>
      rcases bind_cases set mnemonic mode opcode with ⟨refusal, refused⟩ | ⟨-, bound⟩
      · rw [InstructionSet.enter, refused]
        exact Grows.refl set
      · rw [InstructionSet.enter, bound]
        intro name instruction found
        refine ⟨instruction.extended mnemonic mode opcode, ?_, Instruction.description_extended,
          Instruction.modes_prefix_extended⟩
        rw [lookup_extended, found, Option.map_some]

theorem grows_enterAll (set : InstructionSet) (entries : List Entry)
    : Grows set (set.enterAll entries).1 := by
  induction entries generalizing set with
  | nil => exact Grows.refl set
  | cons entry rest ih => exact (grows_enter set entry).trans (ih _)

/-- A set holds an entry: the instruction under its mnemonic and with its description, or the
opcode under its instruction and mode and the way back from it.
-/
def Entry.Stands (set : InstructionSet) : Entry → Prop
  | .register mnemonic description =>
      ∃ instruction,
        set.lookup mnemonic = some instruction
        ∧ instruction.description = description
  | .bind mnemonic mode opcode =>
      ∃ instruction,
        set.lookup mnemonic = some instruction
        ∧ instruction.opcode? mode = some opcode
        ∧ set.decode opcode = some (instruction, mode)

theorem Instruction.opcode?_of_prefix {later : Instruction}
    (grown : instruction.modes <+: later.modes) (bound : instruction.opcode? mode = some opcode)
    : later.opcode? mode = some opcode := by
  obtain ⟨more, split⟩ := grown
  rw [opcode?] at bound ⊢
  rw [← split, List.lookup_append, bound, Option.some_or]

theorem Entry.Stands.grows (stands : entry.Stands set) (grown : Grows set next)
    (built : Built next)
    : entry.Stands next := by
  cases entry with
  | register mnemonic description =>
      obtain ⟨instruction, found, described⟩ := stands
      obtain ⟨later, foundLater, describedLater, -⟩ := grown mnemonic instruction found
      exact ⟨later, foundLater, describedLater.trans described⟩
  | bind mnemonic mode opcode =>
      obtain ⟨instruction, found, bound, -⟩ := stands
      obtain ⟨later, foundLater, -, modes⟩ := grown mnemonic instruction found
      have boundLater := Instruction.opcode?_of_prefix modes bound
      exact ⟨later, foundLater, boundLater, built.matched.decode_of_lookup foundLater boundLater⟩

/-- An entry that is taken is held by the set it leads to. -/
theorem stands_enter (built : Built set) (accepted : (set.enter entry).2 = none)
    : entry.Stands (set.enter entry).1 := by
  have matched := (built.enter entry).matched
  cases entry with
  | register mnemonic description =>
      rcases register_cases set mnemonic description with ⟨refusal, refused⟩ | ⟨-, registered⟩
      · rw [InstructionSet.enter, refused] at accepted
        cases accepted
      · rw [InstructionSet.enter, registered] at matched ⊢
        have listed : Instruction.unbound mnemonic description
            ∈ set.instructions ++ [.unbound mnemonic description] := by simp
        exact ⟨_, matched.indexed.lookup_of_mem listed, rfl⟩
  | bind mnemonic mode opcode =>
      rcases bind_cases set mnemonic mode opcode with ⟨refusal, refused⟩ | ⟨admitted, bound⟩
      · rw [InstructionSet.enter, refused] at accepted
        cases accepted
      · rw [InstructionSet.enter, bound] at matched ⊢
        obtain ⟨target, found, -⟩ := admitted
        obtain ⟨stored, named⟩ := mem_of_lookup found
        have listed : target.extended mnemonic mode opcode
            ∈ (set.extended mnemonic mode opcode).instructions := List.mem_map_of_mem stored
        have lookedUp := matched.indexed.lookup_of_mem listed
        rw [Instruction.mnemonic_extended, named] at lookedUp
        have used := (matched.orderly _ listed).opcode?_of_mem
          (Instruction.mem_modes_extended.mpr (Or.inr ⟨named, rfl⟩))
        exact ⟨_, lookedUp, used, matched.decode_of_lookup lookedUp used⟩

/-- Every entry that is taken is held in the end, whatever is entered after it. -/
theorem stands_enterAll (built : Built set)
    (member : entry ∈ taken entries (set.enterAll entries).2)
    : entry.Stands (set.enterAll entries).1 := by
  induction entries generalizing set with
  | nil => cases member
  | cons first rest ih =>
      obtain ⟨⟨same, answer⟩, answered, rfl⟩ := List.mem_map.mp member
      obtain ⟨listed, accepted⟩ := List.mem_filter.mp answered
      rw [enterAll_cons, List.zip_cons_cons] at listed
      rcases List.mem_cons.mp listed with head | later
      · obtain ⟨rfl, rfl⟩ := Prod.mk.inj head
        have stands := stands_enter built (Option.isNone_iff_eq_none.mp accepted)
        exact stands.grows (grows_enterAll _ rest) (built.enterAll (same :: rest))
      · have again : same ∈ taken rest ((set.enter first).1.enterAll rest).2 :=
          List.mem_map.mpr ⟨(same, answer), List.mem_filter.mpr ⟨later, accepted⟩, rfl⟩
        exact ih (built.enter first) again

-----------------------------------------------------------------------------------------
-- When a binding is taken
-----------------------------------------------------------------------------------------

/-- An opcode is free exactly if no instruction has it in any mode. -/
theorem Matched.owner?_eq_none_iff (matched : Matched set)
    : set.opcodes.owner? opcode = none
      ↔ ∀ instruction ∈ set.instructions, ∀ mode, instruction.opcode? mode ≠ some opcode := by
  constructor
  · intro free instruction member mode bound
    have owner := matched.indexed.owned instruction member _
      (Instruction.mem_modes_of_opcode? bound)
    rw [free] at owner
    cases owner
  · intro unused
    cases owned : set.opcodes.owner? opcode with
    | none => rfl
    | some owner =>
        obtain ⟨before, after, split, -⟩ := List.lookup_eq_some_iff.mp owned
        obtain ⟨instruction, member, -, bound⟩ := matched.backed (opcode, owner) (by simp [split])
        have used := (matched.orderly instruction member).opcode?_of_mem bound
        exact absurd used (unused instruction member owner.mode)

/-- There is room for a mode: an implied one comes first, and no other joins an implied one. -/
theorem Instruction.room_iff
    : instruction.modes = [] ∨ instruction.isImplied = false ∧ mode ≠ .implied
      ↔ (mode = .implied → instruction.modes = [])
        ∧ (mode ≠ .implied → instruction.opcode? .implied = none) := by
  constructor
  · rintro (empty | ⟨unimplied, other⟩)
    · exact ⟨fun _ => empty, fun _ => by rw [opcode?, empty, List.lookup_nil]⟩
    · exact ⟨fun same => absurd same other, fun _ => by simpa [isImplied, supports] using unimplied⟩
  · rintro ⟨first, alone⟩
    by_cases same : mode = .implied
    · exact Or.inl (first same)
    · exact Or.inr ⟨by simp [isImplied, supports, alone same], same⟩

theorem bind_taken_iff
    : (set.bind mnemonic mode opcode).2 = none ↔ set.Admits mnemonic mode opcode := by
  rw [← obstacle?_eq_none_iff, InstructionSet.bind]
  cases set.obstacle? mnemonic mode opcode with
  | none => simp
  | some refusal => simp [InstructionSet.refuse]

/-- Refused entries leave no trace but their record, whatever entries are offered to the empty
set. The record holds the refusals that were answered; the set answers like the one that the taken
entries make alone; every taken entry stands; and a binding is taken exactly if its instruction is
registered and has not got the mode, no instruction has the opcode, and the implied mode neither
joins other modes nor is joined by one.
-/
theorem refusals_leave_no_trace {entries : List Entry} {set replayed : InstructionSet}
    {answers again : List (Option Refusal)}
    (offered : InstructionSet.empty.enterAll entries = (set, answers))
    (replay : InstructionSet.empty.enterAll (taken entries answers) = (replayed, again))
    : set.refused = answers.filterMap id
      ∧ ((∀ answer ∈ again, answer = none)
        ∧ replayed.instructions = set.instructions
        ∧ replayed.size = set.size
        ∧ (∀ mnemonic, replayed.lookup mnemonic = set.lookup mnemonic)
        ∧ ∀ opcode, replayed.decode opcode = set.decode opcode)
      ∧ (∀ entry ∈ taken entries answers, entry.Stands set)
      ∧ ∀ mnemonic mode opcode,
          (set.bind mnemonic mode opcode).2 = none
          ↔ ∃ instruction,
              set.lookup mnemonic = some instruction
              ∧ instruction.opcode? mode = none
              ∧ (∀ other ∈ set.instructions, ∀ used, other.opcode? used ≠ some opcode)
              ∧ (mode = .implied → instruction.modes = [])
              ∧ (mode ≠ .implied → instruction.opcode? .implied = none) := by
  have built : Built set := by
    have entered := Built.empty.enterAll entries
    rwa [offered] at entered
  refine ⟨?_, ?_, ?_, ?_⟩
  · have recorded := refused_enterAll .empty entries
    rw [offered] at recorded
    exact recorded
  · have replaying := enterAll_taken .empty [] entries
    rw [offered] at replaying
    obtain ⟨rfl, rfl⟩ := Prod.mk.inj (replay.symm.trans replaying)
    refine ⟨?_, rfl, rfl, fun _ => rfl, fun _ => rfl⟩
    intro answer member
    obtain ⟨entry, -, rfl⟩ := List.mem_map.mp member
    rfl
  · intro entry member
    have stands := @stands_enterAll .empty entry entries Built.empty
    rw [offered] at stands
    exact stands member
  · intro mnemonic mode opcode
    rw [bind_taken_iff, InstructionSet.Admits]
    simp only [built.matched.owner?_eq_none_iff, Instruction.room_iff, Instruction.supports,
      Option.isSome_eq_false_iff, Option.isNone_iff_eq_none]
    constructor
    · rintro ⟨instruction, found, unused, room, free⟩
      exact ⟨instruction, found, unused, free, room⟩
    · rintro ⟨instruction, found, unused, free, room⟩
      exact ⟨instruction, found, unused, room, free⟩

/-- What the empty set answers to the sample entries. -/
def sampleAnswers : List (Option Refusal) :=
  [none, none, none, none, none,
    some (.duplicateMnemonic "LDA"),
    some (.unknownMnemonic "XYZ"),
    some (.duplicateMode "LDA" .immediate),
    some (.duplicateOpcode 0x60 "RTS" .implied),
    some (.impliedNotAlone "RTS"),
    some (.impliedNotAlone "LDA")]

theorem refusals_leave_no_trace_sample
    : InstructionSet.empty.enterAll sampleEntries = (sampleSet, sampleAnswers)
      ∧ sampleSet.refused = sampleAnswers.filterMap id
      ∧ (InstructionSet.empty.enterAll (sampleEntries.take 5)).1.instructions
        = sampleSet.instructions
      ∧ (Entry.bind "LDA" .immediate 0xA9).Stands sampleSet
      ∧ ∀ other ∈ sampleSet.instructions, ∀ used, other.opcode? used ≠ some 0xA5 := by
  have offered : InstructionSet.empty.enterAll sampleEntries = (sampleSet, sampleAnswers) := rfl
  have replay : InstructionSet.empty.enterAll (taken sampleEntries sampleAnswers)
      = ((InstructionSet.empty.enterAll (sampleEntries.take 5)).1, List.replicate 5 none) := rfl
  obtain ⟨recorded, ⟨-, listed, -⟩, stands, binds⟩ := refusals_leave_no_trace offered replay
  obtain ⟨-, -, -, free, -⟩ := (binds "LDA" .zeroPage 0xA5).mp rfl
  refine ⟨offered, recorded, listed, ?_, free⟩
  apply stands
  simp [taken, sampleEntries, sampleAnswers]

end Asm6510.Machine
