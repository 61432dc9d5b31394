import Asm6510.Proofs.Source.Unrolling
import Mathlib.Data.Set.Card
import Mathlib.Logic.Function.Iterate

/-! Expansion step by step, with a stack of open files. Every step reads a token, opens a file or
closes one. The steps come to an end, and they end in the expansion. The open files have different
names, all but the first of them quoted in a text that was read, so that the stack never holds more
files than there are such names, and one more.
-/

namespace Asm6510.Source

/-- A file that is open: the tokens read so far, with the included files in place, and the tokens
that are left.
-/
structure OpenFile where
  name : String
  read : List Token
  left : List Token

/-- An expansion under way. -/
inductive Reading where
  /-- The file that is read, and the files around it that wait for its end, the nearest first. -/
  | reading (sources : Sources) (current : OpenFile) (outer : List OpenFile)
  /-- Nothing is left to be read, or a fault has stopped it. -/
  | ended (expansion : Expansion)

namespace Reading

/-- The stack of open files. -/
def files : Reading → List OpenFile
  | reading _ current outer => current :: outer
  | ended _ => []

/-- The names on the stack of open files. -/
def openNames (state : Reading) : List String :=
  state.files.map (·.name)

/-- Opens a file inside the files that are open. -/
def opened (sources : Sources) (file code : String) (outer : List OpenFile) : Reading :=
  reading (sources.record file code) ⟨file, [], tokens file code⟩ outer

/-- Takes the next step. A file is opened unless its name is on the stack. -/
def step (library : Library) (root : Path) : Reading → Reading
  | ended expansion => ended expansion
  | reading sources ⟨_, read, []⟩ [] => ended ⟨sources, .ok read⟩
  | reading sources ⟨_, read, []⟩ (next :: outer) =>
      reading sources { next with read := next.read ++ read } outer
  | reading sources
      ⟨file, read, ⟨.directive .includeFile, _, _⟩ :: ⟨.text name, _, place⟩ :: left⟩ outer =>
      match library.load (root.join ⟨name⟩) with
      | none => ended (.fail sources (.includeFileNotFound name) place)
      | some code =>
          if name ∈ file :: outer.map (·.name) then ended (.fail sources (.includeCycle name) place)
          else opened sources name code (⟨file, read, left⟩ :: outer)
  | reading sources ⟨_, _, ⟨.directive .includeFile, text, pos⟩ :: left⟩ _ =>
      match left with
      | other :: _ => ended (.fail sources (.invalidString text) other.pos)
      | [] => ended (.fail sources (.missingOperand text) pos)
  | reading sources ⟨file, read, ⟨.directive .org, text, pos⟩ :: left⟩ outer =>
      match left with
      | [] => ended (.fail sources (.missingOperand text) pos)
      | operand :: left =>
          if (Operand.wordValue? operand.text).isSome then
            reading sources ⟨file, read ++ [⟨.directive .org, text, pos⟩, operand], left⟩ outer
          else
            ended (.fail sources (.invalidOrgOperand operand.text) operand.pos)
  | reading sources ⟨file, read, token :: left⟩ outer =>
      reading sources ⟨file, read ++ [token], left⟩ outer

/-- Where the steps lead from a state. -/
def Leads (library : Library) (root : Path) (before after : Reading) : Prop :=
  ∃ count, (step library root)^[count] before = after

/-- The state in which a file has been read to its end, or a fault has stopped it. -/
def settled (file : String) (read : List Token) (outer : List OpenFile) (expansion : Expansion)
    : Reading :=
  match expansion.outcome with
  | .ok front => reading expansion.sources ⟨file, read ++ front, []⟩ outer
  | .error _ => ended expansion

variable {library : Library} {root : Path} {closed : List String} {before middle after : Reading}
  {file code start : String} {read stream : List Token} {outer : List OpenFile} {sources : Sources}

-----------------------------------------------------------------------------------------
-- The steps lead to the expansion
-----------------------------------------------------------------------------------------

theorem Leads.refl (before : Reading)
    : Leads library root before before :=
  ⟨0, rfl⟩

theorem Leads.trans (first : Leads library root before middle)
    (second : Leads library root middle after)
    : Leads library root before after := by
  obtain ⟨count, rfl⟩ := first
  obtain ⟨more, rfl⟩ := second
  exact ⟨more + count, Function.iterate_add_apply _ more count before⟩

/-- A step comes before the steps that follow it. -/
theorem Leads.head (rest : Leads library root (step library root before) after)
    : Leads library root before after := by
  obtain ⟨count, rfl⟩ := rest
  exact ⟨count + 1, Function.iterate_succ_apply _ count before⟩

theorem leads_step (before : Reading)
    : Leads library root before (step library root before) :=
  Leads.head (.refl _)

theorem settled_of_ok {expansion : Expansion} {front : List Token}
    (expanded : expansion.outcome = .ok front)
    : settled file read outer expansion
      = reading expansion.sources ⟨file, read ++ front, []⟩ outer := by
  rw [settled, expanded]

theorem settled_of_error {expansion : Expansion} {fault : Fault}
    (stopped : expansion.outcome = .error fault)
    : settled file read outer expansion = ended ⟨expansion.sources, .error fault⟩ := by
  obtain ⟨sources, outcome⟩ := expansion
  obtain rfl : outcome = .error fault := stopped
  rfl

theorem settled_prepend (front : List Token) (rest : Expansion)
    : settled file read outer (rest.prepend front) = settled file (read ++ front) outer rest := by
  obtain ⟨sources, outcome⟩ := rest
  cases outcome with
  | ok tail => simp [settled, Expansion.prepend, Except.map]
  | error fault => rfl

/-- A token that neither includes a file nor sets the origin is read as it is. -/
theorem step_kept {token : Token}
    (notInclude : ∀ text pos, token ≠ ⟨.directive .includeFile, text, pos⟩)
    (notOrigin : ∀ text pos, token ≠ ⟨.directive .org, text, pos⟩)
    : step library root (reading sources ⟨file, read, token :: stream⟩ outer)
      = reading sources ⟨file, read ++ [token], stream⟩ outer := by
  rw [step]
  · intro text pos _ _ _ _ same
    exact absurd same (notInclude text pos)
  · exact notInclude
  · exact notOrigin

/-- A fault has its place when it leaves the file that it comes from. -/
theorem located_of_splice
    {expandFile : (name : String) → name ∈ closed → String → Sources → Expansion} {fault : Fault}
    (stopped : (Expansion.splice library root closed expandFile stream sources).outcome
      = .error fault)
    (place : Position)
    : fault.located place = fault := by
  fun_induction Expansion.splice library root closed expandFile stream sources with
  | case1 => cases stopped
  | case3 | case9 | case11 =>
      rename_i ih
      exact ih (Expansion.prepend_eq_error stopped)
  | case4 =>
      obtain rfl := Except.error.inj stopped
      exact Fault.located_located ..
  | case2 | case5 | case6 | case7 | case8 | case10 =>
      obtain rfl := Except.error.inj stopped
      rfl

/-- The steps through a file lead to what splicing it gives, if those through the files it opens do,
and it opens the files that are not on the stack.
-/
theorem leads_splice
    {expandFile : (name : String) → name ∈ closed → String → Sources → Expansion}
    (agrees : ∀ name,
      Expansion.Includes stream name → (name ∈ closed ↔ name ∉ file :: outer.map (·.name)))
    (placed : ∀ name member code sources fault,
      (expandFile name member code sources).outcome = .error fault
      → ∀ place, fault.located place = fault)
    (opening : ∀ name member code sources read left,
      library.load (root.join ⟨name⟩) = some code
      → Leads library root (opened sources name code (⟨file, read, left⟩ :: outer))
          (settled name [] (⟨file, read, left⟩ :: outer) (expandFile name member code sources)))
    : Leads library root (reading sources ⟨file, read, stream⟩ outer)
        (settled file read outer
          (Expansion.splice library root closed expandFile stream sources)) := by
  fun_induction Expansion.splice library root closed expandFile stream sources
    generalizing read with
  | case1 sources =>
      rw [settled]
      simpa using Leads.refl _
  | case3 text pos name quotation place rest sources code loaded openable included front found =>
      rename_i ih
      have fresh := (agrees name (Expansion.includes_head ..)).mp openable
      have inside := opening name openable code sources read rest loaded
      have finished : settled name [] (⟨file, read, rest⟩ :: outer) included
          = reading included.sources ⟨name, front, []⟩ (⟨file, read, rest⟩ :: outer) :=
        settled_of_ok found
      rw [settled_prepend]
      apply Leads.head
      rw [step, loaded]
      simp only [if_neg fresh]
      refine inside.trans ?_
      rw [finished]
      exact Leads.head (ih fun name includes =>
        agrees name (includes.of_suffix (List.suffix_append [_, _] _)))
  | case4 text pos name quotation place rest sources code loaded openable included fault =>
      rename_i found
      have fresh := (agrees name (Expansion.includes_head ..)).mp openable
      have inside := opening name openable code sources read rest loaded
      have stopped : settled name [] (⟨file, read, rest⟩ :: outer) included
          = settled file read outer ⟨included.sources, .error (fault.located place)⟩ := by
        rw [placed _ _ _ _ _ found, settled_of_error found, settled_of_error rfl]
      apply Leads.head
      rw [step, loaded]
      simp only [if_neg fresh]
      exact stopped ▸ inside
  | case5 text pos name quotation place rest sources code loaded isOpen =>
      have listed : name ∈ file :: outer.map (·.name) := by
        by_contra fresh
        exact isOpen ((agrees name (Expansion.includes_head ..)).mpr fresh)
      apply Leads.head
      rw [step, loaded]
      simp only [if_pos listed]
      exact .refl _
  | case9 text pos sources operand rest word ih =>
      rw [settled_prepend]
      apply Leads.head
      rw [step, if_pos word]
      exact ih fun name includes =>
        agrees name (includes.of_suffix (List.suffix_append [_, _] _))
  | case11 token rest sources _ notInclude notOrigin ih =>
      rw [settled_prepend]
      apply Leads.head
      rw [step_kept notInclude notOrigin]
      exact ih fun name includes => agrees name (includes.of_suffix (List.suffix_cons _ _))
  | case2 | case6 | case7 | case8 | case10 =>
      refine Leads.head ?_
      simp_all [step]
      exact .refl _

/-- The steps through a file lead to its expansion, if the names that can still be opened are those
that are not on the stack.
Witness: induction on the number of names that can still be opened.
-/
theorem leads_expandFile (member : code ∈ start :: library.texts)
    (agrees : ∀ name ∈ includable library start,
      name ∈ closed ↔ name ∉ file :: outer.map (·.name))
    : Leads library root (opened sources file code outer)
        (settled file [] outer (Expansion.expandFile library root closed file code sources)) := by
  induction count : closed.length using Nat.strongRecOn
    generalizing closed file code outer sources with
  | ind count ih =>
      subst count
      have listed {name : String} (includes : Expansion.Includes (tokens file code) name)
          : name ∈ includable library start :=
        List.mem_flatMap.mpr ⟨code, member, mem_quotedTexts_of_includes includes⟩
      rw [Expansion.expandFile]
      refine leads_splice (fun name includes => agrees name (listed includes)) ?_ ?_
      · intro name openable code sources fault stopped place
        rw [Expansion.expandFile] at stopped
        exact located_of_splice stopped place
      · intro name openable text sources read left loaded
        refine ih _ (Expansion.length_without_lt openable)
          (List.mem_cons_of_mem _ (library.mem_texts loaded)) ?_ rfl
        intro other inside
        rw [Expansion.mem_without, agrees other inside]
        simp only [List.map_cons, List.mem_cons, not_or]
        exact and_comm

/-- The state in which a source is opened. -/
def initial (file code : String) : Reading :=
  opened Sources.empty file code []

theorem leads_ended (file : String) (expansion : Expansion)
    : Leads library root (settled file [] [] expansion) (ended expansion) := by
  obtain ⟨sources, outcome⟩ := expansion
  cases outcome with
  | ok front => exact leads_step _
  | error fault => exact .refl _

/-- The steps from a source end in its expansion. -/
theorem leads_expand (library : Library) (root : Path) (file code : String)
    : Leads library root (initial file code) (ended (expand library root file code)) := by
  refine Leads.trans (leads_expandFile (List.mem_cons_self ..) ?_) (leads_ended file _)
  intro name inside
  simp [Expansion.mem_without, inside]

-----------------------------------------------------------------------------------------
-- The depth of the stack
-----------------------------------------------------------------------------------------

/-- Open files with different names, each the name of the source or a quoted one, which can include
files of quoted names only.
-/
structure Nested (source : String) (quoted : Set String) (files : List OpenFile) : Prop where
  distinct : (files.map (·.name)).Nodup
  named : ∀ opened ∈ files, opened.name = source ∨ opened.name ∈ quoted
  includes : ∀ opened ∈ files, ∀ name, Expansion.Includes opened.left name → name ∈ quoted

variable {source : String} {quoted : Set String} {left rest : List Token} {current : OpenFile}

theorem nested_nil
    : Nested source quoted [] :=
  ⟨List.nodup_nil, by simp, by simp⟩

/-- A file that is closed leaves the files around it. -/
theorem Nested.tail (nested : Nested source quoted (current :: outer))
    : Nested source quoted outer :=
  ⟨(List.nodup_cons.mp nested.distinct).2,
    fun opened member => nested.named opened (.tail _ member),
    fun opened member => nested.includes opened (.tail _ member)⟩

/-- Reading on in a file changes nothing about the names. -/
theorem Nested.advance (nested : Nested source quoted (⟨file, read, left⟩ :: outer))
    (ends : rest <:+ left) (more : List Token)
    : Nested source quoted (⟨file, more, rest⟩ :: outer) := by
  refine ⟨nested.distinct, ?_, ?_⟩
  · intro opened member
    rcases List.mem_cons.mp member with rfl | member
    · exact nested.named ⟨file, read, left⟩ (.head _)
    · exact nested.named opened (.tail _ member)
  · intro opened member name includes
    rcases List.mem_cons.mp member with rfl | member
    · exact nested.includes _ (.head _) name (includes.of_suffix ends)
    · exact nested.includes opened (.tail _ member) name includes

/-- A file that is opened has a quoted name that is not on the stack. -/
theorem Nested.opened (nested : Nested source quoted outer) (fresh : file ∉ outer.map (·.name))
    (named : file = source ∨ file ∈ quoted)
    (includes : ∀ name, Expansion.Includes (tokens file code) name → name ∈ quoted)
    : Nested source quoted (opened sources file code outer).files := by
  refine ⟨List.nodup_cons.mpr ⟨fresh, nested.distinct⟩, ?_, ?_⟩
  · intro opened member
    rcases List.mem_cons.mp member with rfl | member
    · exact named
    · exact nested.named opened member
  · intro opened member
    rcases List.mem_cons.mp member with rfl | member
    · exact includes
    · exact nested.includes opened member

/-- A step keeps the names of the open files different, and quoted. -/
theorem Nested.step {state : Reading}
    (loads : ∀ path file code name,
      library.load path = some code
      → Expansion.Includes (tokens file code) name
      → name ∈ quoted)
    (nested : Nested source quoted state.files)
    : Nested source quoted (step library root state).files := by
  fun_cases Reading.step library root state with
  | case3 sources name read next outer => exact nested.tail.advance (List.suffix_refl _) _
  | case6 sources file read text pos name quotation place left outer code loaded fresh =>
      have named : name ∈ quoted :=
        nested.includes _ (.head _) name (Expansion.includes_head ..)
      have waiting := nested.advance (List.suffix_append [_, _] left) read
      exact waiting.opened fresh (.inr named) (loads _ name code · loaded)
  | case10 => exact nested.advance (List.suffix_append [_, _] _) _
  | case12 => exact nested.advance (List.suffix_cons _ _) _
  | case1 | case2 | case4 | case5 | case7 | case8 | case9 | case11 => exact nested_nil

/-- The names of the open files stay different, and quoted, in every run of steps. -/
theorem Nested.run {state : Reading}
    (loads : ∀ path file code name,
      library.load path = some code
      → Expansion.Includes (tokens file code) name
      → name ∈ quoted)
    (nested : Nested source quoted state.files) (count : Nat)
    : Nested source quoted ((Reading.step library root)^[count] state).files := by
  induction count with
  | zero => exact nested
  | succ count ih =>
      rw [Function.iterate_succ_apply']
      exact ih.step loads

/-- Different names, of which all but one are quoted, are one more than the quoted ones at most. -/
theorem Nested.length_le {state : Reading} (nested : Nested source quoted state.files)
    (finite : quoted.Finite)
    : state.openNames.length ≤ 1 + quoted.ncard := by
  have listed : (state.openNames.toFinset : Set String) ⊆ insert source quoted := by
    intro name member
    obtain ⟨opened, inside, rfl⟩ := List.mem_map.mp (List.mem_toFinset.mp member)
    exact nested.named opened inside
  calc state.openNames.length
      = state.openNames.toFinset.card := (List.toFinset_card_of_nodup nested.distinct).symm
    _ = (state.openNames.toFinset : Set String).ncard := (Set.ncard_coe_finset _).symm
    _ ≤ (insert source quoted).ncard := Set.ncard_le_ncard listed (finite.insert source)
    _ ≤ quoted.ncard + 1 := Set.ncard_insert_le source quoted
    _ = 1 + quoted.ncard := Nat.add_comm ..

end Reading

-----------------------------------------------------------------------------------------
-- Expansion ends
-----------------------------------------------------------------------------------------

/-- The texts quoted in a source, or in a text that the library holds under some path. -/
def quotable (library : Library) (code : String) : Set String :=
  { name | ∃ text, (text = code ∨ ∃ path, library.load path = some text) ∧ name ∈ quotedTexts text }

theorem finite_quotable (library : Library) (code : String)
    : (quotable library code).Finite := by
  refine (includable library code).finite_toSet.subset ?_
  rintro name ⟨text, held, quoted⟩
  refine List.mem_flatMap.mpr ⟨text, ?_, quoted⟩
  rcases held with rfl | ⟨path, loaded⟩
  · exact List.mem_cons_self ..
  · exact List.mem_cons_of_mem _ (library.mem_texts loaded)

/-- Expansion ends: finitely many steps lead from a source to its expansion, and the stack never
holds more names than there are texts quoted in the source and the library, and one more. That a
file can be reached under several names adds nothing, as each of them is quoted.
-/
theorem expand_terminates (library : Library) (root : Path) (file code : String)
    : (∃ count,
        (Reading.step library root)^[count] (.initial file code)
          = .ended (expand library root file code))
      ∧ ∀ count,
        ((Reading.step library root)^[count] (.initial file code)).openNames.length
          ≤ 1 + (quotable library code).ncard := by
  refine ⟨Reading.leads_expand library root file code, fun count => ?_⟩
  have quoted {text : String} (held : text = code ∨ ∃ path, library.load path = some text)
      (file name : String) (includes : Expansion.Includes (tokens file text) name)
      : name ∈ quotable library code :=
    ⟨text, held, mem_quotedTexts_of_includes includes⟩
  have first : Reading.Nested file (quotable library code) (Reading.initial file code).files :=
    Reading.nested_nil.opened List.not_mem_nil (.inl rfl) (quoted (.inl rfl) file)
  refine Reading.Nested.length_le (first.run ?_ count) (finite_quotable library code)
  intro path file code name loaded
  exact quoted (.inr ⟨path, loaded⟩) file name

end Asm6510.Source
