import Asm6510.Proofs.Operand.Outline
import Asm6510.Source.Scan

/-! How each kind of token is spelt. Whatever a scan finds is spelt like its kind, so that the
text of a token says as much about the token as its kind does.
-/

namespace Asm6510.Source

open Machine (Mode Shape)
open Operand
open Text

/-- A name that is not cut: letters and digits, and no more of them than a name can have. -/
structure IsName (cs : List Char) : Prop where
  nonempty : cs ≠ []
  short : cs.length ≤ nameLimit
  plain : ∀ c ∈ cs, isAlphanumeric c = true

/-- The texts of the tokens of a kind. -/
inductive Spelt : Kind → List Char → Prop
  | directive (directive : Directive)
    : Spelt (.directive directive) directive.keyword.toList
  | text {content : List Char} (inside : '"' ∉ content)
    : Spelt (.text (String.ofList content)) ('"' :: (content ++ ['"']))
  | assignment {name gap : List Char} (named : IsName name)
    (blank : ∀ c ∈ gap, isBlank c = true)
    : Spelt (.assignment (String.ofList name)) (name ++ (gap ++ ['=']))
  | label {name : List Char} (named : IsName name)
    : Spelt (.label (String.ofList name)) (name ++ [':'])
  | name {name : List Char} (named : IsName name)
    : Spelt .ident name
  | marked {mark : Char} {name : List Char} (part : mark = '<' ∨ mark = '>')
    (named : IsName name)
    : Spelt .ident (mark :: name)
  | operand {mode : Mode} {shape : Shape} {digits : List Char}
    (member : mode ∈ Lexeme.literalModes) (shaped : mode.shape? = some shape)
    (counted : digits.length = shape.digits) (valid : digits.all Hex.isDigit = true)
    : Spelt (.operand mode) (shape.opening.toList ++ (digits ++ shape.closing.toList))

-----------------------------------------------------------------------------------------
-- Letters and digits are no blanks
-----------------------------------------------------------------------------------------

theorem isAlphanumeric_iff {c : Char}
    : isAlphanumeric c = true
      ↔ (48 ≤ c.toNat ∧ c.toNat ≤ 57) ∨ (65 ≤ c.toNat ∧ c.toNat ≤ 90)
        ∨ (97 ≤ c.toNat ∧ c.toNat ≤ 122) := by
  have ranges : isAlphanumeric c
      = ((decide (65 ≤ c.toNat ∧ c.toNat ≤ 90)
          || (decide (97 ≤ c.toNat) && decide (c.toNat ≤ 122)))
        || (decide (48 ≤ c.toNat) && decide (c.toNat ≤ 57))) :=
    rfl
  simp only [ranges, Bool.or_eq_true, Bool.and_eq_true, decide_eq_true_eq]
  omega

theorem ne_of_isAlphanumeric {c other : Char} (plain : isAlphanumeric c = true)
    (sign : isAlphanumeric other = false)
    : c ≠ other := by
  intro same
  rw [same, sign] at plain
  cases plain

/-- No letter or digit is blank. -/
theorem isBlank_of_isAlphanumeric {c : Char} (plain : isAlphanumeric c = true)
    : isBlank c = false := by
  have bounds := isAlphanumeric_iff.mp plain
  simp only [isBlank, blankRanges, List.any_cons, List.any_nil, Bool.or_false,
    Bool.or_eq_false_iff, Bool.and_eq_false_iff, decide_eq_false_iff_not]
  omega

theorem isAlphanumeric_of_isDigit {c : Char} (digit : Hex.isDigit c = true)
    : isAlphanumeric c = true := by
  have ranges : Hex.isDigit c
      = (((decide (48 ≤ c.toNat) && decide (c.toNat ≤ 57))
          || (decide (65 ≤ c.toNat) && decide (c.toNat ≤ 70)))
        || (decide (97 ≤ c.toNat) && decide (c.toNat ≤ 102))) :=
    rfl
  simp only [ranges, Bool.or_eq_true, Bool.and_eq_true, decide_eq_true_eq] at digit
  rw [isAlphanumeric_iff]
  omega

/-- Text that ends in a character that is not blank has nothing to trim. -/
theorem trimEnd_concat (cs : List Char) {c : Char} (ink : isBlank c = false)
    : trimEnd (cs ++ [c]) = cs ++ [c] := by
  simp [trimEnd, ink]

theorem trimEnd_append_blanks (cs : List Char) {gap : List Char}
    (blank : ∀ c ∈ gap, isBlank c = true)
    : trimEnd (cs ++ gap) = trimEnd cs := by
  have backwards : ∀ c ∈ gap.reverse, isBlank c = true := by
    intro c member
    exact blank c (List.mem_reverse.mp member)
  rw [trimEnd, List.reverse_append, List.dropWhile_append_of_pos backwards, trimEnd]

/-- Text without a blank has nothing to trim. -/
theorem trimEnd_of_ink {cs : List Char} (ink : ∀ c ∈ cs, isBlank c = false)
    : trimEnd cs = cs := by
  rcases List.eq_nil_or_concat' cs with rfl | ⟨front, last, rfl⟩
  · rfl
  · exact trimEnd_concat front (ink last (by simp))

-----------------------------------------------------------------------------------------
-- Names are found whole
-----------------------------------------------------------------------------------------

/-- A text with a name's length starts with a name of that length. -/
theorem nameLength?_eq_some {cs : List Char} {length : Nat}
    (found : nameLength? cs = some length)
    : ∃ name rest, cs = name ++ rest ∧ IsName name ∧ name.length = length := by
  obtain ⟨rest, split⟩ : (cs.take nameLimit).takeWhile isAlphanumeric <+: cs :=
    (List.takeWhile_prefix _).trans (List.take_prefix _ _)
  have short : ((cs.take nameLimit).takeWhile isAlphanumeric).length ≤ nameLimit :=
    Nat.le_trans (List.takeWhile_prefix isAlphanumeric).length_le (List.length_take_le _ _)
  have plain : ∀ c ∈ (cs.take nameLimit).takeWhile isAlphanumeric, isAlphanumeric c = true :=
    List.all_eq_true.mp (List.all_takeWhile)
  unfold nameLength? at found
  generalize (cs.take nameLimit).takeWhile isAlphanumeric = name at found split short plain
  cases name with
  | nil => simp at found
  | cons c name => exact ⟨c :: name, rest, split.symm, ⟨by simp, short, plain⟩, by simpa using found⟩

/-- A name that nothing continues is found whole. -/
theorem IsName.nameLength?_append {name rest : List Char} (named : IsName name)
    (ended : ∀ c ∈ rest.head?, isAlphanumeric c = false)
    : nameLength? (name ++ rest) = some name.length := by
  have stopped : (rest.take (nameLimit - name.length)).takeWhile isAlphanumeric = [] := by
    cases rest with
    | nil => simp
    | cons c rest =>
        cases nameLimit - name.length with
        | zero => simp
        | succ room => simp [ended c rfl]
  have taken : ((name ++ rest).take nameLimit).takeWhile isAlphanumeric = name := by
    rw [List.take_append, List.take_of_length_le named.short,
      List.takeWhile_append_of_pos named.plain, stopped, List.append_nil]
  unfold nameLength?
  rw [taken]
  cases name with
  | nil => exact absurd rfl named.nonempty
  | cons c name => rfl

theorem nameLength?_eq_none {c : Char} (sign : isAlphanumeric c = false) (cs : List Char)
    : nameLength? (c :: cs) = none := by
  simp [nameLength?, nameLimit, sign]

theorem IsName.exists_cons {name : List Char} (named : IsName name)
    : ∃ c rest, name = c :: rest ∧ isAlphanumeric c = true := by
  cases name with
  | nil => exact absurd rfl named.nonempty
  | cons c rest => exact ⟨c, rest, rfl, named.plain c (by simp)⟩

/-- A letter or digit is no mark. -/
theorem mark?_eq_none {c : Char} (plain : isAlphanumeric c = true) (rest : List Char)
    : Part.mark? (c :: rest) = none := by
  unfold Part.mark?
  split
  · rename_i same
    cases same
    exact absurd plain (by decide)
  · rename_i same
    cases same
    exact absurd plain (by decide)
  · rfl

theorem mark?_eq_some {c : Char} {rest : List Char} {part : Part}
    (marked : Part.mark? (c :: rest) = some part)
    : c = '<' ∨ c = '>' := by
  unfold Part.mark? at marked
  split at marked
  · rename_i same
    exact Or.inl (List.cons.inj same).1
  · rename_i same
    exact Or.inr (List.cons.inj same).1
  · simp at marked

/-- The texts of references are those of the tokens that name something. -/
theorem Spelt.isReference {cs : List Char} (spelt : Spelt .ident cs)
    : Operand.isReference (String.ofList cs) = true := by
  have whole {name : List Char} (named : IsName name) : nameLength? name = some name.length := by
    have found : nameLength? (name ++ []) = some name.length :=
      named.nameLength?_append (by simp)
    rwa [List.append_nil] at found
  cases spelt with
  | name named =>
      obtain ⟨c, rest, rfl, plain⟩ := named.exists_cons
      simp [Operand.isReference, Operand.unmarked, mark?_eq_none plain, whole named]
  | @marked mark name part named =>
      have marked : (Part.mark? (mark :: name)).isSome = true := by
        rcases part with rfl | rfl
        · rfl
        · rfl
      simp [Operand.isReference, Operand.unmarked, marked, whole named]

-----------------------------------------------------------------------------------------
-- Every form that is found is spelt like its kind
-----------------------------------------------------------------------------------------

namespace Lexeme

/-- A form that a text starts with: a token spelt like the form's kind, and the blanks after it
that the form takes as well.
-/
def Leads (lexeme : Lexeme) (cs : List Char) : Prop :=
  ∃ spelling gap rest,
    cs = spelling ++ (gap ++ rest)
    ∧ Spelt lexeme.kind spelling
    ∧ (∀ c ∈ gap, isBlank c = true)
    ∧ lexeme.length = spelling.length + gap.length

variable {cs : List Char} {lexeme : Lexeme}

theorem leads_of_directive? (found : directive? cs = some lexeme)
    : lexeme.Leads cs := by
  obtain ⟨directive, -, found⟩ := List.exists_of_findSome?_eq_some found
  split at found
  · rename_i rest opened
    split at found
    · simp at found
    · obtain rfl := Option.some.inj found
      have spelt := List.isPrefixOf?_eq_some_iff_append_eq.mp opened
      exact ⟨_, [], rest, by simp [spelt], .directive directive, by simp,
        by simp [String.length_toList]⟩
  · simp at found

theorem leads_of_quoted? (found : quoted? cs = some lexeme)
    : lexeme.Leads cs := by
  unfold quoted? at found
  split at found
  · rename_i body
    dsimp only at found
    split at found
    · rename_i closed
      obtain rfl := Option.some.inj found
      have around := List.takeWhile_append_dropWhile (p := (· != '"')) (l := body)
      have content : ∀ c ∈ body.takeWhile (· != '"'), (c != '"') = true :=
        List.all_eq_true.mp List.all_takeWhile
      have stop := List.head?_dropWhile_not (· != '"') body
      generalize body.takeWhile (· != '"') = content at *
      cases after : body.dropWhile (· != '"') with
      | nil =>
          rw [after, List.append_nil] at around
          simp [around] at closed
      | cons c rest =>
          rw [after] at around stop
          obtain rfl : c = '"' := by simpa using stop
          refine ⟨_, [], rest, by simp [← around], .text ?_, by simp, by simp⟩
          intro member
          simpa using content _ member
    · simp at found
  · simp at found

theorem leads_of_assignment? (found : assignment? cs = some lexeme)
    : lexeme.Leads cs := by
  obtain ⟨length, measured, found⟩ := Option.bind_eq_some_iff.mp found
  obtain ⟨name, after, rfl, named, rfl⟩ := nameLength?_eq_some measured
  rw [List.drop_left, List.take_left] at found
  dsimp only at found
  split at found
  · rename_i rest equals
    obtain rfl := Option.some.inj found
    refine ⟨name ++ (after.takeWhile isBlank ++ ['=']), rest.takeWhile isBlank,
      rest.dropWhile isBlank, ?_, .assignment named ?_, ?_, ?_⟩
    · have split : after = after.takeWhile isBlank ++ '=' :: rest := by
        rw [← equals, List.takeWhile_append_dropWhile]
      simp [← split]
    · exact List.all_eq_true.mp List.all_takeWhile
    · exact List.all_eq_true.mp List.all_takeWhile
    · simp [Nat.add_assoc]
  · simp at found

theorem leads_of_label? (found : label? cs = some lexeme)
    : lexeme.Leads cs := by
  obtain ⟨length, measured, found⟩ := Option.bind_eq_some_iff.mp found
  obtain ⟨name, after, rfl, named, rfl⟩ := nameLength?_eq_some measured
  rw [List.drop_left, List.take_left] at found
  split at found
  · obtain rfl := Option.some.inj found
    exact ⟨name ++ [':'], [], _, by rw [List.append_assoc]; rfl, .label named, by simp, by simp⟩
  · simp at found

theorem leads_of_ident? (found : ident? cs = some lexeme)
    : lexeme.Leads cs := by
  obtain ⟨length, measured, found⟩ := Option.bind_eq_some_iff.mp found
  obtain rfl := Option.some.inj found
  obtain ⟨name, rest, split, named, rfl⟩ := nameLength?_eq_some measured
  cases marked : Part.mark? cs with
  | none =>
      simp only [marked] at split ⊢
      exact ⟨name, [], rest, split, .name named, by simp, by simp⟩
  | some part =>
      simp only [marked] at split ⊢
      cases cs with
      | nil => cases marked
      | cons mark cs =>
          have sign := mark?_eq_some marked
          refine ⟨mark :: name, [], rest, ?_, .marked sign named, by simp, ?_⟩
          · simpa using split
          · simp [Nat.add_comm]

theorem leads_of_literal? (found : literal? cs = some lexeme)
    : lexeme.Leads cs := by
  obtain ⟨mode, member, found⟩ := List.exists_of_findSome?_eq_some found
  obtain ⟨shape, shaped, found⟩ := Option.bind_eq_some_iff.mp found
  obtain ⟨⟨digits, rest⟩, read, found⟩ := Option.bind_eq_some_iff.mp found
  obtain rfl := Option.some.inj found
  obtain ⟨rfl, counted, valid⟩ := Shape.read?_eq_some_iff.mp read
  exact ⟨_, [], rest, by simp, .operand member shaped counted valid, by simp,
    by simp [counted, String.length_toList, Nat.add_assoc]⟩

/-- Every form that is found starts the text with a token spelt like its kind. -/
theorem leads_of_find? (found : find? cs = some lexeme)
    : lexeme.Leads cs := by
  simp only [find?, Option.orElse_eq_orElse, Option.orElse_eq_or, Option.or_eq_some_iff] at found
  rcases found with found | ⟨-, found | ⟨-, found | ⟨-, found | ⟨-, found | ⟨-, found⟩⟩⟩⟩⟩
  · exact leads_of_directive? found
  · exact leads_of_quoted? found
  · exact leads_of_assignment? found
  · exact leads_of_label? found
  · exact leads_of_ident? found
  · exact leads_of_literal? found

end Lexeme

-----------------------------------------------------------------------------------------
-- Every token of a source is spelt like its kind
-----------------------------------------------------------------------------------------

/-- What holds of letters and digits and of the fixed texts of the modes holds of every character
of a literal operand.
-/
theorem forall_mem_literal (holds : Char → Bool) {mode : Mode} {shape : Shape}
    {digits : List Char} (plain : ∀ c, isAlphanumeric c = true → holds c = true)
    (around : ∀ mode ∈ Mode.all, ∀ shape ∈ mode.shape?,
      (shape.opening.toList ++ shape.closing.toList).all holds = true)
    (shaped : mode.shape? = some shape) (valid : digits.all Hex.isDigit = true)
    : ∀ c ∈ shape.opening.toList ++ (digits ++ shape.closing.toList), holds c = true := by
  have around := List.all_eq_true.mp (around mode (Mode.mem_all mode) shape shaped)
  intro c member
  rcases List.mem_append.mp member with opening | member
  · exact around c (List.mem_append_left _ opening)
  · rcases List.mem_append.mp member with digit | closing
    · exact plain c (isAlphanumeric_of_isDigit (List.all_eq_true.mp valid c digit))
    · exact around c (List.mem_append_right _ closing)

/-- The text of a token ends in a character that is not blank. -/
theorem Spelt.trimEnd_eq {kind : Kind} {cs : List Char} (spelt : Spelt kind cs)
    : trimEnd cs = cs := by
  cases spelt with
  | directive directive => cases directive <;> decide
  | @text content inside => exact trimEnd_concat ('"' :: content) (by decide)
  | @assignment name gap named blank =>
      rw [← List.append_assoc]
      exact trimEnd_concat (name ++ gap) (by decide)
  | @label name named => exact trimEnd_concat name (by decide)
  | name named =>
      apply trimEnd_of_ink
      intro c member
      exact isBlank_of_isAlphanumeric (named.plain c member)
  | @marked mark name part named =>
      apply trimEnd_of_ink
      intro c member
      rcases List.mem_cons.mp member with rfl | member
      · rcases part with rfl | rfl
        · decide
        · decide
      · exact isBlank_of_isAlphanumeric (named.plain c member)
  | operand member shaped counted valid =>
      have ink := forall_mem_literal (fun c => !isBlank c)
        (fun c plain => by simp [isBlank_of_isAlphanumeric plain]) (by decide) shaped valid
      apply trimEnd_of_ink
      intro c member
      simpa using ink c member

/-- What a form takes, its blanks aside, is spelt like its kind. -/
theorem Lexeme.Leads.spelt {lexeme : Lexeme} {cs : List Char} (leading : lexeme.Leads cs)
    : Spelt lexeme.kind (trimEnd (cs.take lexeme.length)) := by
  obtain ⟨spelling, gap, rest, rfl, spelt, blank, length⟩ := leading
  have taken : (spelling ++ (gap ++ rest)).take lexeme.length = spelling ++ gap := by
    rw [← List.append_assoc, List.take_left' (by simp [length])]
  rw [taken, trimEnd_append_blanks spelling blank, spelt.trimEnd_eq]
  exact spelt

/-- The tokens of a line are spelt like their kinds, and from characters of the line. -/
theorem spelt_of_mem_scan {file : String} {line col : Nat} {cs : List Char} {token : Token}
    (member : token ∈ scan file line col cs)
    : Spelt token.kind token.text.toList ∧ ∀ c ∈ token.text.toList, c ∈ cs := by
  fun_induction scan file line col cs with
  | case1 => simp at member
  | case2 col c rest blank ih | case4 col c rest ink missing ih =>
      obtain ⟨spelt, inside⟩ := ih member
      exact ⟨spelt, fun c found => List.mem_cons_of_mem _ (inside c found)⟩
  | case3 col c rest ink lexeme found taken ih =>
      rcases List.mem_cons.mp member with rfl | member
      · refine ⟨?_, ?_⟩
        · rw [String.toList_ofList]
          exact (Lexeme.leads_of_find? found).spelt
        · intro c inside
          rw [String.toList_ofList] at inside
          exact List.mem_of_mem_take ((trimEnd_prefix_self taken).subset inside)
      · obtain ⟨spelt, inside⟩ := ih member
        exact ⟨spelt, fun c found => List.mem_cons_of_mem _ (List.mem_of_mem_drop (inside c found))⟩

/-- What is left of a line without its comment is where the line starts. -/
theorem isPrefix_stripComment (quoted : Bool) (cs : List Char)
    : stripComment quoted cs <+: cs := by
  induction cs generalizing quoted with
  | nil => exact List.nil_prefix
  | cons c rest ih =>
      rw [stripComment]
      split
      · exact List.nil_prefix
      · exact List.cons_prefix_cons.mpr ⟨rfl, ih _⟩

/-- A line holds no line feed. -/
theorem lineFeed_notMem_lines {cs line : List Char} (member : line ∈ lines cs)
    : '\n' ∉ line := by
  fun_induction lines cs generalizing line with
  | case1 => simp at member
  | case2 rest ih | case3 rest ih =>
      rcases List.mem_cons.mp member with rfl | member
      · simp
      · exact ih member
  | case4 c rest notFeed notReturn ih =>
      have other : c ≠ '\n' := fun same => notFeed same
      cases found : lines rest with
      | nil =>
          rw [found, consLine, List.mem_singleton] at member
          simp [member, other.symm]
      | cons first others =>
          rw [found, consLine] at member
          rw [found] at ih
          rcases List.mem_cons.mp member with rfl | member
          · simp [other.symm, ih (List.mem_cons_self)]
          · exact ih (List.mem_cons_of_mem _ member)

/-- Every token of a source text is spelt like its kind, on one line. -/
theorem spelt_of_mem_tokens {file code : String} {token : Token}
    (member : token ∈ tokens file code)
    : Spelt token.kind token.text.toList ∧ '\n' ∉ token.text.toList := by
  obtain ⟨⟨cs, line⟩, numbered, member⟩ := List.mem_flatMap.mp member
  have inLines : cs ∈ lines code.toList := List.fst_mem_of_mem_zipIdx numbered
  obtain ⟨spelt, inside⟩ := spelt_of_mem_scan member
  refine ⟨spelt, fun feed => lineFeed_notMem_lines inLines ?_⟩
  exact (isPrefix_stripComment _ _).subset (inside _ feed)

end Asm6510.Source
