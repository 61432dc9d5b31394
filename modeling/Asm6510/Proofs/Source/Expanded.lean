import Asm6510.Proofs.Source.Rescan
import Asm6510.Source.Expansion

/-! What an expansion gives. Its tokens are tokens of the files it read, it includes nothing
more, and each origin in it has its address; expanding such tokens again changes nothing.
-/

namespace Asm6510.Source

/-- Tokens that stand for the tokens of one file, with tokens of which `holds` holds in place of
each included file.
-/
inductive Spliced (holds : List Token → Prop) : List Token → List Token → Prop
  | nil
    : Spliced holds [] []
  | included {directive name : Token} {front rest result : List Token}
    (opened : holds front) (others : Spliced holds rest result)
    : Spliced holds (directive :: name :: rest) (front ++ result)
  | origin {directive operand : Token} {rest result : List Token}
    (sets : directive.kind = .directive .org)
    (word : (Operand.wordValue? operand.text).isSome = true)
    (others : Spliced holds rest result)
    : Spliced holds (directive :: operand :: rest) (directive :: operand :: result)
  | kept {token : Token} {rest result : List Token}
    (notOrigin : token.kind ≠ .directive .org)
    (notInclude : token.kind ≠ .directive .includeFile)
    (others : Spliced holds rest result)
    : Spliced holds (token :: rest) (token :: result)

namespace Expansion

variable {library : Library} {root : Path} {closed : List String} {holds : List Token → Prop}

theorem prepend_eq_ok {front result : List Token} {rest : Expansion}
    (expanded : (prepend front rest).outcome = .ok result)
    : ∃ tail, rest.outcome = .ok tail ∧ result = front ++ tail := by
  cases found : rest.outcome with
  | error fault => simp [prepend, found, Except.map] at expanded
  | ok tail =>
      refine ⟨tail, rfl, ?_⟩
      simpa [prepend, found, Except.map, eq_comm] using expanded

theorem prepend_eq_error {front : List Token} {rest : Expansion} {fault : Fault}
    (failed : (prepend front rest).outcome = .error fault)
    : rest.outcome = .error fault := by
  cases found : rest.outcome with
  | ok tail => simp [prepend, found, Except.map] at failed
  | error other => simpa [prepend, found, Except.map] using failed

/-- A file whose includes can be opened is spliced from what opening them gives. -/
theorem spliced_of_splice
    {expandFile : (name : String) → name ∈ closed → String → Sources → Expansion}
    (opening : ∀ name member code sources front,
      (expandFile name member code sources).outcome = .ok front → holds front)
    {tokens result : List Token} {sources : Sources}
    (expanded : (splice library root closed expandFile tokens sources).outcome = .ok result)
    : Spliced holds tokens result := by
  fun_induction splice library root closed expandFile tokens sources generalizing result with
  | case1 sources =>
      obtain rfl := Except.ok.inj expanded
      exact .nil
  | case3 text pos name quoted place rest sources code loaded openable included front found =>
      rename_i ih
      obtain ⟨tail, remaining, rfl⟩ := prepend_eq_ok expanded
      exact .included (opening _ _ _ _ _ found) (ih remaining)
  | case9 text pos sources operand rest word ih =>
      obtain ⟨tail, remaining, rfl⟩ := prepend_eq_ok expanded
      exact .origin rfl word (ih remaining)
  | case11 token rest sources _ notInclude notOrigin ih =>
      obtain ⟨tail, remaining, rfl⟩ := prepend_eq_ok expanded
      apply Spliced.kept
      · intro same
        exact notOrigin token.text token.pos (by rw [← same])
      · intro same
        exact notInclude token.text token.pos (by rw [← same])
      · exact ih remaining
  | case2 | case4 | case5 | case6 | case7 | case8 | case10 => simp [fail] at expanded

/-- What holds of a file as soon as it holds of the files it includes holds of every expansion.
Witness: induction on the number of names that can still be opened.
-/
theorem of_expandFile (step : ∀ file code result, Spliced holds (tokens file code) result → holds result)
    {file code : String} {sources : Sources} {result : List Token}
    (expanded : (expandFile library root closed file code sources).outcome = .ok result)
    : holds result := by
  induction count : closed.length using Nat.strongRecOn generalizing closed file code sources result
    with
  | ind count ih =>
      subst count
      rw [expandFile] at expanded
      refine step file code result (spliced_of_splice ?_ expanded)
      intro name member code sources front opened
      exact ih _ (length_without_lt member) opened rfl

end Expansion

/-- A property of the tokens of all files is one of the tokens spliced from them. -/
theorem Spliced.forall_mem {holds : Token → Prop} {tokens result : List Token}
    (spliced : Spliced (fun front => ∀ token ∈ front, holds token) tokens result)
    (scanned : ∀ token ∈ tokens, holds token)
    : ∀ token ∈ result, holds token := by
  induction spliced with
  | nil => exact scanned
  | included opened others ih =>
      intro token member
      rcases List.mem_append.mp member with early | late
      · exact opened token early
      · exact ih (fun other found => scanned other (by simp [found])) token late
  | origin sets word others ih =>
      have rest := ih fun other found => scanned other (by simp [found])
      intro token member
      rcases List.mem_cons.mp member with rfl | member
      · exact scanned _ (by simp)
      · rcases List.mem_cons.mp member with rfl | member
        · exact scanned _ (by simp)
        · exact rest token member
  | kept notOrigin notInclude others ih =>
      have rest := ih fun other found => scanned other (by simp [found])
      intro token member
      rcases List.mem_cons.mp member with rfl | member
      · exact scanned _ (by simp)
      · exact rest token member

variable {library other : Library} {root : Path} {file code : String} {tokens others : List Token}

/-- Every token of an expansion is spelt like its kind, on one line. -/
theorem spelt_of_mem_expand (expanded : (expand library root file code).outcome = .ok tokens)
    : ∀ token ∈ tokens, Spelt token.kind token.text.toList ∧ '\n' ∉ token.text.toList := by
  let holds (token : Token) : Prop :=
    Spelt token.kind token.text.toList ∧ '\n' ∉ token.text.toList
  have step (file code : String) (result : List Token)
      (spliced : Spliced (fun front => ∀ token ∈ front, holds token) (Source.tokens file code) result)
      : ∀ token ∈ result, holds token :=
    spliced.forall_mem fun token member => spelt_of_mem_tokens member
  exact Expansion.of_expandFile step expanded

/-- Tokens that include nothing, and in which each origin has its address. -/
inductive Expanded : List Token → Prop
  | nil
    : Expanded []
  | origin {directive operand : Token} {rest : List Token}
    (sets : directive.kind = .directive .org)
    (word : (Operand.wordValue? operand.text).isSome = true) (others : Expanded rest)
    : Expanded (directive :: operand :: rest)
  | kept {token : Token} {rest : List Token} (notOrigin : token.kind ≠ .directive .org)
    (notInclude : token.kind ≠ .directive .includeFile) (others : Expanded rest)
    : Expanded (token :: rest)

theorem Expanded.append (first : Expanded tokens) (second : Expanded others)
    : Expanded (tokens ++ others) := by
  induction first with
  | nil => exact second
  | origin sets word rest ih => exact .origin sets word ih
  | kept notOrigin notInclude rest ih => exact .kept notOrigin notInclude ih

theorem Spliced.expanded (spliced : Spliced Expanded tokens others)
    : Expanded others := by
  induction spliced with
  | nil => exact .nil
  | included opened others ih => exact opened.append ih
  | origin sets word others ih => exact .origin sets word ih
  | kept notOrigin notInclude others ih => exact .kept notOrigin notInclude ih

/-- An expansion leaves nothing to expand. -/
theorem expanded_of_expand (expanded : (expand library root file code).outcome = .ok tokens)
    : Expanded tokens :=
  Expansion.of_expandFile (fun _ _ _ spliced => spliced.expanded) expanded

/-- Whether tokens are expanded does not depend on their places. -/
theorem Expanded.congr_content (expanded : Expanded tokens)
    (same : others.map Token.content = tokens.map Token.content)
    : Expanded others := by
  induction expanded generalizing others with
  | nil =>
      obtain rfl : others = [] := by simpa using same
      exact .nil
  | @origin directive operand rest sets word remaining ih =>
      obtain ⟨first, more, rfl, sameFirst, same⟩ := List.map_eq_cons_iff.mp same
      obtain ⟨second, more, rfl, sameSecond, same⟩ := List.map_eq_cons_iff.mp same
      obtain ⟨kind, -⟩ := Prod.mk.inj sameFirst
      obtain ⟨-, text⟩ := Prod.mk.inj sameSecond
      exact .origin (kind.trans sets) (by rw [text]; exact word) (ih same)
  | @kept token rest notOrigin notInclude remaining ih =>
      obtain ⟨first, more, rfl, sameFirst, same⟩ := List.map_eq_cons_iff.mp same
      obtain ⟨kind, -⟩ := Prod.mk.inj sameFirst
      exact .kept (kind.symm ▸ notOrigin) (kind.symm ▸ notInclude) (ih same)

/-- Expanded tokens are expanded to themselves, whatever could be loaded. -/
theorem Expanded.splice_eq (expanded : Expanded tokens) {closed : List String}
    (expandFile : (name : String) → name ∈ closed → String → Sources → Expansion)
    (sources : Sources)
    : Expansion.splice library root closed expandFile tokens sources = ⟨sources, .ok tokens⟩ := by
  induction expanded with
  | nil => rfl
  | @origin directive operand rest sets word remaining ih =>
      obtain ⟨kind, text, pos⟩ := directive
      obtain rfl : kind = .directive .org := sets
      rw [Expansion.splice, if_pos word, ih]
      rfl
  | @kept token rest notOrigin notInclude remaining ih =>
      obtain ⟨kind, text, pos⟩ := token
      rw [Expansion.splice, ih]
      · rfl
      · intro text' pos' name quoted place rest' same
        exact absurd (congrArg Token.kind same) notInclude
      · intro text' pos' same
        exact absurd (congrArg Token.kind same) notInclude
      · intro text' pos' same
        exact absurd (congrArg Token.kind same) notOrigin

/-- An expansion written out in one line is expanded to the same kinds and texts, under any name
and whatever could be loaded.
-/
theorem expand_flat (expanded : (expand library root file code).outcome = .ok tokens)
    (directory : Path) (name : String)
    : ∃ again,
        (expand other directory name (flat tokens)).outcome = .ok again
        ∧ again.map Token.content = tokens.map Token.content := by
  have same : (Source.tokens name (flat tokens)).map Token.content = tokens.map Token.content :=
    (rescanned_of_spelt name (spelt_of_mem_expand expanded)).same
  have settled := (expanded_of_expand expanded).congr_content same
  refine ⟨Source.tokens name (flat tokens), ?_, same⟩
  rw [expand, Expansion.expandFile, settled.splice_eq]

end Asm6510.Source
