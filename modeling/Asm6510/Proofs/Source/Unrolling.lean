import Asm6510.Proofs.Source.Expanded
import Mathlib.Data.Nat.Find

/-! Files included without asking whether they are open. Where that comes to an end it gives the
expansion, and where it never ends the expansion is stopped by a cycle: the check compares names as
they are written, and yet refuses neither too little nor too much.
-/

namespace Asm6510.Source

namespace Expansion

/-- Puts the included files into the tokens of one file, whether they are open or not. `openFile`
says what opening a file gives, or gives up.
-/
def unroll (library : Library) (root : Path)
    (openFile : String → String → Sources → Option Expansion)
    : List Token → Sources → Option Expansion
  | [], sources => some ⟨sources, .ok []⟩
  | ⟨.directive .includeFile, _, _⟩ :: ⟨.text name, _, place⟩ :: rest, sources =>
      match library.load (root.join ⟨name⟩) with
      | none => some (fail sources (.includeFileNotFound name) place)
      | some code =>
          match openFile name code sources with
          | none => none
          | some ⟨after, .ok front⟩ =>
              (unroll library root openFile rest after).map (prepend front)
          | some ⟨after, .error fault⟩ => some ⟨after, .error (fault.located place)⟩
  | ⟨.directive .includeFile, text, pos⟩ :: rest, sources =>
      match rest with
      | other :: _ => some (fail sources (.invalidString text) other.pos)
      | [] => some (fail sources (.missingOperand text) pos)
  | ⟨.directive .org, text, pos⟩ :: rest, sources =>
      match rest with
      | [] => some (fail sources (.missingOperand text) pos)
      | operand :: rest =>
          if (Operand.wordValue? operand.text).isSome then
            (unroll library root openFile rest sources).map
              (prepend [⟨.directive .org, text, pos⟩, operand])
          else
            some (fail sources (.invalidOrgOperand operand.text) operand.pos)
  | token :: rest, sources => (unroll library root openFile rest sources).map (prepend [token])

attribute [local simp] unroll

/-- Expands a file without asking which files are open, and gives up where files nest deeper than
`depth`.
-/
def unrollFile (library : Library) (root : Path)
    : Nat → String → String → Sources → Option Expansion
  | 0, _, _, _ => none
  | depth + 1, file, code, sources =>
      unroll library root (unrollFile library root depth) (tokens file code)
        (sources.record file code)

/-- The cause that stopped an expansion. -/
def cause? (expansion : Expansion) : Option Cause :=
  match expansion.outcome with
  | .ok _ => none
  | .error fault => some fault.cause

/-- An expansion that was stopped by a file inside itself. -/
def IsCyclic (expansion : Expansion) : Prop :=
  ∃ name, expansion.cause? = some (.includeCycle name)

/-- Tokens with a directive that includes a file of this name. -/
def Includes (stream : List Token) (name : String) : Prop :=
  ∃ directive quoted,
    directive.kind = .directive .includeFile
    ∧ quoted.kind = .text name
    ∧ [directive, quoted] <:+: stream

variable {library : Library} {root : Path} {closed : List String}
  {openFile other : String → String → Sources → Option Expansion} {stream : List Token}
  {sources : Sources} {expansion : Expansion}

-----------------------------------------------------------------------------------------
-- One file
-----------------------------------------------------------------------------------------

theorem isCyclic_prepend {front : List Token}
    : (prepend front expansion).IsCyclic ↔ expansion.IsCyclic := by
  cases found : expansion.outcome <;> simp [IsCyclic, cause?, prepend, found, Except.map]

theorem isCyclic_located {fault : Fault} {place : Position}
    : IsCyclic ⟨sources, .error (fault.located place)⟩ ↔ IsCyclic ⟨sources, .error fault⟩ := by
  simp [IsCyclic, cause?]

/-- Where no file is asked to be closed, none is refused for being open. -/
theorem not_isCyclic_of_unroll
    (opens : ∀ name code sources opened,
      openFile name code sources = some opened → ¬ opened.IsCyclic)
    (unrolled : unroll library root openFile stream sources = some expansion)
    : ¬ expansion.IsCyclic := by
  fun_induction unroll library root openFile stream sources generalizing expansion with
  | case3 => cases unrolled
  | case4 | case9 | case11 =>
      rename_i ih
      obtain ⟨tail, remaining, rfl⟩ := Option.map_eq_some_iff.mp unrolled
      exact isCyclic_prepend.not.mpr (ih remaining)
  | case5 text pos name quotation place rest sources code loaded after fault opened =>
      cases unrolled
      exact isCyclic_located.not.mpr (opens _ _ _ _ opened)
  | case1 | case2 | case6 | case7 | case8 | case10 =>
      cases unrolled
      rintro ⟨name, stopped⟩
      cases stopped

theorem Includes.of_suffix {rest : List Token} {name : String} (includes : Includes rest name)
    (ends : rest <:+ stream)
    : Includes stream name := by
  obtain ⟨directive, quoted, opening, text, inside⟩ := includes
  exact ⟨directive, quoted, opening, text, inside.trans ends.isInfix⟩

theorem includes_head (text : String) (pos : Position) (name quotation : String)
    (place : Position) (rest : List Token)
    : Includes (⟨.directive .includeFile, text, pos⟩ :: ⟨.text name, quotation, place⟩ :: rest)
        name :=
  ⟨_, _, rfl, rfl, (List.prefix_append [_, _] rest).isInfix⟩

/-- A token that neither includes a file nor sets the origin stays where it is. -/
theorem unroll_kept {token : Token} {rest : List Token}
    (notInclude : ∀ text pos, token ≠ ⟨.directive .includeFile, text, pos⟩)
    (notOrigin : ∀ text pos, token ≠ ⟨.directive .org, text, pos⟩)
    : unroll library root openFile (token :: rest) sources
      = (unroll library root openFile rest sources).map (prepend [token]) := by
  rw [unroll]
  · intro text pos _ _ _ _ same
    exact absurd same (notInclude text pos)
  · exact notInclude
  · exact notOrigin

/-- Tokens are unrolled alike by whatever opens the files in them alike. -/
theorem unroll_transfer (unrolled : unroll library root openFile stream sources = some expansion)
    (acyclic : ¬ expansion.IsCyclic)
    (opens : ∀ name code sources opened,
      Includes stream name
      → library.load (root.join ⟨name⟩) = some code
      → openFile name code sources = some opened
      → ¬ opened.IsCyclic
      → other name code sources = some opened)
    : unroll library root other stream sources = some expansion := by
  fun_induction unroll library root openFile stream sources generalizing expansion with
  | case3 => cases unrolled
  | case4 text pos name quotation place rest sources code loaded after front opened ih =>
      obtain ⟨tail, remaining, rfl⟩ := Option.map_eq_some_iff.mp unrolled
      have others := ih remaining (isCyclic_prepend.not.mp acyclic)
        fun name code sources opened includes =>
          opens name code sources opened (includes.of_suffix (List.suffix_append [_, _] _))
      have same := opens _ _ _ _ (includes_head ..) loaded opened (by simp [IsCyclic, cause?])
      rw [unroll, loaded]
      simp only [same, others, Option.map_some]
  | case5 text pos name quotation place rest sources code loaded after fault opened =>
      cases unrolled
      have same := opens _ _ _ _ (includes_head ..) loaded opened
        (isCyclic_located.not.mp acyclic)
      rw [unroll, loaded]
      simp only [same]
  | case9 text pos sources operand rest word ih =>
      obtain ⟨tail, remaining, rfl⟩ := Option.map_eq_some_iff.mp unrolled
      have others := ih remaining (isCyclic_prepend.not.mp acyclic)
        fun name code sources opened includes =>
          opens name code sources opened (includes.of_suffix (List.suffix_append [_, _] _))
      rw [unroll, if_pos word, others, Option.map_some]
  | case11 token rest sources _ notInclude notOrigin ih =>
      obtain ⟨tail, remaining, rfl⟩ := Option.map_eq_some_iff.mp unrolled
      have others := ih remaining (isCyclic_prepend.not.mp acyclic)
        fun name code sources opened includes =>
          opens name code sources opened (includes.of_suffix (List.suffix_cons _ _))
      rw [unroll_kept notInclude notOrigin, others, Option.map_some]
  | case1 | case2 | case6 | case7 | case8 | case10 => simp_all

theorem outcome_prepend {front : List Token} {first second : Expansion}
    (same : first.outcome = second.outcome)
    : (prepend front first).outcome = (prepend front second).outcome := by
  rw [prepend, prepend, same]

/-- Whether and to what tokens are unrolled does not depend on what was read before. -/
theorem unroll_sources
    (opens : ∀ name code before sources opened,
      openFile name code before = some opened
      → ∃ again, openFile name code sources = some again ∧ again.outcome = opened.outcome)
    {before : Sources} (unrolled : unroll library root openFile stream before = some expansion)
    (sources : Sources)
    : ∃ again, unroll library root openFile stream sources = some again
        ∧ again.outcome = expansion.outcome := by
  fun_induction unroll library root openFile stream before generalizing expansion sources with
  | case3 => cases unrolled
  | case4 text pos name quotation place rest before code loaded after front opened ih =>
      obtain ⟨tail, remaining, rfl⟩ := Option.map_eq_some_iff.mp unrolled
      obtain ⟨⟨next, _⟩, reopened, rfl⟩ := opens _ _ _ sources _ opened
      obtain ⟨again, others, same⟩ := ih remaining next
      refine ⟨prepend front again, ?_, outcome_prepend same⟩
      rw [unroll, loaded]
      simp only [reopened, others, Option.map_some]
  | case5 text pos name quotation place rest before code loaded after fault opened =>
      cases unrolled
      obtain ⟨⟨next, _⟩, reopened, rfl⟩ := opens _ _ _ sources _ opened
      refine ⟨⟨next, .error (fault.located place)⟩, ?_, rfl⟩
      rw [unroll, loaded]
      simp only [reopened]
  | case9 text pos before operand rest word ih =>
      obtain ⟨tail, remaining, rfl⟩ := Option.map_eq_some_iff.mp unrolled
      obtain ⟨again, others, same⟩ := ih remaining sources
      exact ⟨_, by rw [unroll, if_pos word, others, Option.map_some], outcome_prepend same⟩
  | case11 token rest before _ notInclude notOrigin ih =>
      obtain ⟨tail, remaining, rfl⟩ := Option.map_eq_some_iff.mp unrolled
      obtain ⟨again, others, same⟩ := ih remaining sources
      exact ⟨_, by rw [unroll_kept notInclude notOrigin, others, Option.map_some],
        outcome_prepend same⟩
  | case1 => exact ⟨_, by rw [unroll], by cases unrolled; rfl⟩
  | case2 | case6 | case7 | case8 | case10 => cases unrolled; simp_all [fail]

/-- Tokens whose included files can all be unrolled can be unrolled. -/
theorem isSome_unroll
    (opens : ∀ name code sources,
      Includes stream name
      → library.load (root.join ⟨name⟩) = some code
      → (openFile name code sources).isSome = true)
    : (unroll library root openFile stream sources).isSome = true := by
  fun_induction unroll library root openFile stream sources with
  | case3 text pos name quotation place rest sources code loaded unopened =>
      simpa [unopened] using opens _ _ sources (includes_head ..) loaded
  | case4 | case9 =>
      rename_i ih
      rw [Option.isSome_map]
      exact ih fun name code sources includes =>
        opens name code sources (includes.of_suffix (List.suffix_append [_, _] _))
  | case11 token rest sources _ notInclude notOrigin ih =>
      rw [Option.isSome_map]
      exact ih fun name code sources includes =>
        opens name code sources (includes.of_suffix (List.suffix_cons _ _))
  | case1 | case2 | case5 | case6 | case7 | case8 | case10 => rfl

/-- Opens a file as an expansion does, and gives up where the file is open already. -/
def guarded (closed : List String)
    (expandFile : (name : String) → name ∈ closed → String → Sources → Expansion)
    (name code : String) (sources : Sources) : Option Expansion :=
  if openable : name ∈ closed then some (expandFile name openable code sources) else none

/-- An unrolling that gives an expansion, or gives up where the expansion is stopped by a cycle. -/
def Agrees (unrolled : Option Expansion) (expansion : Expansion) : Prop :=
  unrolled = some expansion ∨ unrolled = none ∧ expansion.IsCyclic

theorem Agrees.prepend {unrolled : Option Expansion} (agrees : Agrees unrolled expansion)
    (front : List Token)
    : Agrees (unrolled.map (prepend front)) (expansion.prepend front) := by
  rcases agrees with rfl | ⟨rfl, cyclic⟩
  · exact .inl rfl
  · exact .inr ⟨rfl, isCyclic_prepend.mpr cyclic⟩

/-- An expansion unrolls its files, up to one that is open already. -/
theorem unroll_guarded
    (expandFile : (name : String) → name ∈ closed → String → Sources → Expansion)
    (stream : List Token) (sources : Sources)
    : Agrees (unroll library root (guarded closed expandFile) stream sources)
        (splice library root closed expandFile stream sources) := by
  fun_induction splice library root closed expandFile stream sources with
  | case3 text pos name quotation place rest sources code loaded openable included front found =>
      rename_i ih
      have opened : guarded closed expandFile name code sources
          = some ⟨included.sources, .ok front⟩ := by
        rw [guarded, dif_pos openable, ← found]
      rw [unroll, loaded]
      simp only [opened]
      exact ih.prepend front
  | case4 text pos name quotation place rest sources code loaded openable included fault found =>
      have opened : guarded closed expandFile name code sources
          = some ⟨included.sources, .error fault⟩ := by
        rw [guarded, dif_pos openable, ← found]
      rw [unroll, loaded]
      simp only [opened]
      exact .inl rfl
  | case5 text pos name quotation place rest sources code loaded isOpen =>
      refine .inr ⟨?_, name, rfl⟩
      rw [unroll, loaded]
      simp only [guarded, dif_neg isOpen]
  | case9 text pos sources operand rest word ih =>
      rw [unroll, if_pos word]
      exact ih.prepend _
  | case11 token rest sources _ notInclude notOrigin ih =>
      rw [unroll_kept notInclude notOrigin]
      exact ih.prepend _
  | case1 | case2 | case6 | case7 | case8 | case10 => exact .inl (by simp_all)

-----------------------------------------------------------------------------------------
-- Files inside files
-----------------------------------------------------------------------------------------

variable {file code : String} {depth : Nat}

theorem not_isCyclic_of_unrollFile
    (unrolled : unrollFile library root depth file code sources = some expansion)
    : ¬ expansion.IsCyclic := by
  induction depth generalizing file code sources expansion with
  | zero => cases unrolled
  | succ depth ih => exact not_isCyclic_of_unroll (fun _ _ _ _ opened => ih opened) unrolled

theorem unrollFile_succ
    (unrolled : unrollFile library root depth file code sources = some expansion)
    : unrollFile library root (depth + 1) file code sources = some expansion := by
  induction depth generalizing file code sources expansion with
  | zero => cases unrolled
  | succ depth ih =>
      exact unroll_transfer unrolled (not_isCyclic_of_unrollFile unrolled)
        fun _ _ _ _ _ _ opened _ => ih opened

/-- What is unrolled to some depth is the same at every greater depth. -/
theorem unrollFile_le {deeper : Nat}
    (unrolled : unrollFile library root depth file code sources = some expansion)
    (below : depth ≤ deeper)
    : unrollFile library root deeper file code sources = some expansion := by
  induction below with
  | refl => exact unrolled
  | step _ ih => exact unrollFile_succ ih

/-- How deep files nest does not depend on what was read before. -/
theorem unrollFile_sources {before : Sources}
    (unrolled : unrollFile library root depth file code before = some expansion)
    (sources : Sources)
    : ∃ again,
        unrollFile library root depth file code sources = some again
        ∧ again.outcome = expansion.outcome := by
  induction depth generalizing file code before sources expansion with
  | zero => cases unrolled
  | succ depth ih =>
      have opens (name code : String) (before sources : Sources) (opened : Expansion)
          (found : unrollFile library root depth name code before = some opened)
          : ∃ again, unrollFile library root depth name code sources = some again
              ∧ again.outcome = opened.outcome :=
        ih found sources
      exact unroll_sources opens unrolled _

/-- A file that can be unrolled can be unrolled to a least depth. -/
theorem exists_least_depth
    (unrolled : unrollFile library root depth file code sources = some expansion)
    : ∃ least ≤ depth,
        unrollFile library root least file code sources = some expansion
        ∧ ∀ less < least, ∀ before, unrollFile library root less file code before = none := by
  classical
  have ends : ∃ n, (unrollFile library root n file code sources).isSome = true :=
    ⟨depth, by simp [unrolled]⟩
  have below : Nat.find ends ≤ depth := Nat.find_le (by simp [unrolled])
  obtain ⟨found, same⟩ := Option.isSome_iff_exists.mp (Nat.find_spec ends)
  refine ⟨Nat.find ends, below, ?_, ?_⟩
  · rw [same, ← unrolled, unrollFile_le same below]
  · intro less lower before
    by_contra other
    obtain ⟨reached, shallow⟩ := Option.ne_none_iff_exists'.mp other
    obtain ⟨again, shallow, -⟩ := unrollFile_sources shallow sources
    exact Nat.find_min ends lower (by simp [shallow])

/-- The names that are not closed cannot be unrolled to less than a depth. This is what keeps an
open file out of a file that is unrolled to that depth.
-/
def OpenBeyond (library : Library) (root : Path) (names closed : List String) (depth : Nat)
    : Prop :=
  ∀ name ∈ names, name ∉ closed
    → ∀ text, library.load (root.join ⟨name⟩) = some text
    → ∀ less < depth, ∀ sources, unrollFile library root less name text sources = none

theorem mem_without {names : List String} {name other : String}
    : other ∈ without names name ↔ other ∈ names ∧ other ≠ name := by
  simp [without]

/-- A name can be opened for a file that is unrolled to its least depth. -/
theorem OpenBeyond.without {names : List String} {least : Nat} {name text : String}
    (beyond : OpenBeyond library root names closed depth) (below : least ≤ depth)
    (loaded : library.load (root.join ⟨name⟩) = some text)
    (minimal : ∀ less < least, ∀ sources, unrollFile library root less name text sources = none)
    : OpenBeyond library root names (without closed name) least := by
  intro other member opened read found less lower
  by_cases same : other = name
  · subst same
    obtain rfl := Option.some.inj (loaded.symm.trans found)
    exact minimal less lower
  · have already : other ∉ closed := fun inside => opened (mem_without.mpr ⟨inside, same⟩)
    exact beyond other member already read found less (by omega)

end Expansion

-----------------------------------------------------------------------------------------
-- The names that a text includes
-----------------------------------------------------------------------------------------

theorem map_content_scan (file other : String) (line col : Nat) (cs : List Char)
    : (scan file line col cs).map Token.content = (scan other line col cs).map Token.content := by
  fun_induction scan file line col cs with
  | case1 => simp [scan]
  | case2 col c rest blank ih => rw [scan, if_pos blank, ih]
  | case3 col c rest ink lexeme found taken ih =>
      rw [scan, if_neg ink, found]
      simp only [List.map_cons, ih]
      rfl
  | case4 col c rest ink found ih =>
      rw [scan, if_neg ink, found]
      exact ih

/-- The kinds and texts of tokens do not depend on the name of their file. -/
theorem map_content_tokens (file other code : String)
    : (tokens file code).map Token.content = (tokens other code).map Token.content := by
  simp only [tokens, List.map_flatMap, lineTokens]
  congr 1
  funext line
  exact map_content_scan file other _ _ _

/-- An included file is quoted in the text that includes it. -/
theorem mem_quotedTexts_of_includes {file code name : String}
    (includes : Expansion.Includes (tokens file code) name)
    : name ∈ quotedTexts code := by
  obtain ⟨directive, quoted, -, kind, inside⟩ := includes
  have member : quoted.content ∈ (tokens "" code).map Token.content := by
    rw [← map_content_tokens file]
    exact List.mem_map_of_mem (inside.subset (by simp))
  obtain ⟨token, found, same⟩ := List.mem_map.mp member
  have text : token.kind = .text name := (congrArg Prod.fst same).trans kind
  exact List.mem_filterMap.mpr ⟨token, found, by simp [text]⟩

namespace Expansion

-----------------------------------------------------------------------------------------
-- Expansions are unrollings
-----------------------------------------------------------------------------------------

variable {library : Library} {root : Path} {closed : List String} {sources : Sources}
  {expansion : Expansion} {file code start : String} {depth : Nat}

/-- A file is expanded as it is unrolled, if the open names are beyond its depth.
Witness: strong induction on the depth. A file inside it is unrolled to less, so it is not open, and
opening it leaves the open names beyond its own least depth.
-/
theorem expandFile_eq_of_unrollFile (member : code ∈ start :: library.texts)
    (beyond : OpenBeyond library root (includable library start) closed depth)
    (unrolled : unrollFile library root depth file code sources = some expansion)
    : expandFile library root closed file code sources = expansion := by
  induction depth using Nat.strongRecOn generalizing closed file code sources expansion with
  | ind depth ih =>
      cases depth with
      | zero => cases unrolled
      | succ depth =>
          have acyclic := not_isCyclic_of_unrollFile unrolled
          have guardedly : unroll library root
              (guarded closed fun name _ code sources =>
                expandFile library root (without closed name) name code sources)
              (tokens file code) (sources.record file code) = some expansion := by
            refine unroll_transfer unrolled acyclic ?_
            intro name text before opened includes loaded inner _
            have listed : name ∈ includable library start :=
              List.mem_flatMap.mpr ⟨code, member, mem_quotedTexts_of_includes includes⟩
            have openable : name ∈ closed := by
              by_contra isOpen
              rw [beyond name listed isOpen text loaded depth (by omega) before] at inner
              cases inner
            obtain ⟨least, below, inner, minimal⟩ := exists_least_depth inner
            have again := ih least (by omega) (List.mem_cons_of_mem _ (library.mem_texts loaded))
              (beyond.without (by omega) loaded minimal) inner
            rw [guarded, dif_pos openable, again]
          rw [expandFile]
          rcases unroll_guarded _ (tokens file code) (sources.record file code) with
            same | ⟨stopped, -⟩
          · exact Option.some.inj (same.symm.trans guardedly)
          · cases stopped.symm.trans guardedly

/-- An expansion that is stopped by no cycle has unrolled its files, which nest no deeper than there
are names.
Witness: induction on the number of names that can still be opened.
-/
theorem unrollFile_of_expandFile
    (acyclic : ¬ (expandFile library root closed file code sources).IsCyclic)
    : unrollFile library root (closed.length + 1) file code sources
      = some (expandFile library root closed file code sources) := by
  induction count : closed.length using Nat.strongRecOn generalizing closed file code sources with
  | ind count ih =>
      subst count
      rw [expandFile] at acyclic ⊢
      rcases unroll_guarded _ (tokens file code) (sources.record file code) with
        same | ⟨-, cyclic⟩
      · refine unroll_transfer same acyclic ?_
        intro name text before opened _ _ found inner
        obtain ⟨openable, rfl⟩ : ∃ openable : name ∈ closed, expandFile library root
            (without closed name) name text before = opened := by
          simpa [guarded] using found
        exact unrollFile_le (ih _ (length_without_lt openable) inner rfl)
          (length_without_lt openable)
      · exact absurd cyclic acyclic

/-- Depths that are enough for each of some names have one that is enough for all. -/
theorem exists_depth_forall {enough : Nat → String → Prop}
    (deeper : ∀ name m n, m ≤ n → enough m name → enough n name) {names : List String}
    (each : ∀ name ∈ names, ∃ depth, enough depth name)
    : ∃ depth, ∀ name ∈ names, enough depth name := by
  induction names with
  | nil => exact ⟨0, by simp⟩
  | cons first names ih =>
      obtain ⟨m, one⟩ := each first (by simp)
      obtain ⟨n, others⟩ := ih fun name member => each name (by simp [member])
      refine ⟨max m n, fun name member => ?_⟩
      rcases List.mem_cons.mp member with rfl | member
      · exact deeper _ _ _ (Nat.le_max_left m n) one
      · exact deeper _ _ _ (Nat.le_max_right m n) (others name member)

/-- A source can be unrolled if the files that it includes can, each by itself. -/
theorem exists_unrollFile
    (each : ∀ name text,
      Includes (tokens file code) name
      → library.load (root.join ⟨name⟩) = some text
      → ∃ depth, (unrollFile library root depth name text Sources.empty).isSome = true)
    (sources : Sources)
    : ∃ depth, (unrollFile library root depth file code sources).isSome = true := by
  let enough (depth : Nat) (name : String) : Prop :=
    ∀ text, Includes (tokens file code) name
      → library.load (root.join ⟨name⟩) = some text
      → ∀ sources, (unrollFile library root depth name text sources).isSome = true
  have deeper (name : String) (m n : Nat) (below : m ≤ n) (one : enough m name)
      : enough n name := by
    intro text includes loaded sources
    obtain ⟨found, unrolled⟩ := Option.isSome_iff_exists.mp (one text includes loaded sources)
    simp [unrollFile_le unrolled below]
  have alone : ∀ name ∈ quotedTexts code, ∃ depth, enough depth name := by
    intro name _
    by_cases given : Includes (tokens file code) name ∧ ∃ text,
        library.load (root.join ⟨name⟩) = some text
    · obtain ⟨includes, text, loaded⟩ := given
      obtain ⟨depth, unrolled⟩ := each name text includes loaded
      refine ⟨depth, fun other _ found sources => ?_⟩
      obtain rfl := Option.some.inj (loaded.symm.trans found)
      obtain ⟨found, unrolled⟩ := Option.isSome_iff_exists.mp unrolled
      obtain ⟨again, unrolled, -⟩ := unrollFile_sources unrolled sources
      simp [unrolled]
    · exact ⟨0, fun text includes loaded => absurd ⟨includes, text, loaded⟩ given⟩
  obtain ⟨depth, all⟩ := exists_depth_forall deeper alone
  exact ⟨depth + 1, isSome_unroll fun name text sources includes loaded =>
    all name (mem_quotedTexts_of_includes includes) text includes loaded sources⟩

end Expansion

open Expansion

/-- Cycles are found exactly. Where a source can be unrolled, to whatever depth, its expansion is
what unrolling gives, and it is stopped by a cycle exactly where unrolling never ends, under
whatever names the files of the cycle are opened. A file can be included again and again, as long as
it can be unrolled by itself. What can be loaded under the source's own name is the source.
-/
theorem expand_detects_cycles {library : Library} {root : Path} {file code : String}
    (own : ∀ text, library.load (root.join ⟨file⟩) = some text → text = code)
    : (∀ depth expansion,
        unrollFile library root depth file code Sources.empty = some expansion
        → expand library root file code = expansion)
      ∧ ((expand library root file code).IsCyclic
          ↔ ∀ depth, unrollFile library root depth file code Sources.empty = none)
      ∧ ((∀ name text,
            Includes (tokens file code) name
            → library.load (root.join ⟨name⟩) = some text
            → ∃ depth, (unrollFile library root depth name text Sources.empty).isSome = true)
          → ¬ (expand library root file code).IsCyclic) := by
  have agrees (depth : Nat) (expansion : Expansion)
      (unrolled : unrollFile library root depth file code Sources.empty = some expansion)
      : expand library root file code = expansion := by
    obtain ⟨least, -, unrolled, minimal⟩ := exists_least_depth unrolled
    refine expandFile_eq_of_unrollFile (List.mem_cons_self ..) ?_ unrolled
    -- Only the source itself is open.
    intro name member isOpen text loaded
    obtain rfl : name = file := by
      by_contra other
      exact isOpen (mem_without.mpr ⟨member, other⟩)
    obtain rfl := own text loaded
    exact minimal
  refine ⟨agrees, ⟨?_, ?_⟩, ?_⟩
  · intro cyclic depth
    by_contra other
    obtain ⟨expansion, unrolled⟩ := Option.ne_none_iff_exists'.mp other
    exact not_isCyclic_of_unrollFile unrolled (agrees depth expansion unrolled ▸ cyclic)
  · intro endless
    by_contra acyclic
    cases (unrollFile_of_expandFile acyclic).symm.trans (endless _)
  · intro each
    obtain ⟨depth, unrolled⟩ := exists_unrollFile each Sources.empty
    obtain ⟨expansion, unrolled⟩ := Option.isSome_iff_exists.mp unrolled
    exact agrees depth expansion unrolled ▸ not_isCyclic_of_unrollFile unrolled

/-- A file that includes itself under another spelling of its path, and one that includes none. -/
def spelledLibrary : Library :=
  Library.ofFiles [(⟨"lib/a"⟩, ".include \"lib//a\""), (⟨"b"⟩, ".byte $01")]

theorem expand_detects_cycles_spelled
    : (∀ depth, Expansion.unrollFile spelledLibrary ⟨""⟩ depth "lib/a" ".include \"lib//a\""
        Sources.empty = none)
      ∧ (expand spelledLibrary ⟨""⟩ "main"
          ".include \"b\" .include \"b\"").outcome.toOption.map (·.map (·.text))
        = some [".byte", "$01", ".byte", "$01"]
      ∧ ¬ (expand spelledLibrary ⟨""⟩ "main" ".include \"b\" .include \"b\"").IsCyclic := by
  have loads : spelledLibrary.load (Path.join ⟨""⟩ ⟨"lib/a"⟩) = some ".include \"lib//a\""
      ∧ spelledLibrary.load (Path.join ⟨""⟩ ⟨"main"⟩) = none := by
    decide +kernel
  refine ⟨?_, by decide +kernel, ?_⟩
  · have own (text : String) (found : spelledLibrary.load (Path.join ⟨""⟩ ⟨"lib/a"⟩) = some text)
        : text = ".include \"lib//a\"" :=
      Option.some.inj (found.symm.trans loads.1)
    have cyclic : (expand spelledLibrary ⟨""⟩ "lib/a" ".include \"lib//a\"").cause?
        = some (.includeCycle "lib//a") := by
      decide +kernel
    exact (expand_detects_cycles own).2.1.mp ⟨_, cyclic⟩
  · have own (text : String) (found : spelledLibrary.load (Path.join ⟨""⟩ ⟨"main"⟩) = some text)
        : text = ".include \"b\" .include \"b\"" := by
      cases loads.2.symm.trans found
    have unrolled : (Expansion.unrollFile spelledLibrary ⟨""⟩ 2 "main"
        ".include \"b\" .include \"b\"" Sources.empty).isSome = true := by
      decide +kernel
    intro cyclic
    rw [(expand_detects_cycles own).2.1.mp cyclic 2] at unrolled
    cases unrolled

end Asm6510.Source
