import Asm6510.Proofs.Source.Spelling

/-! Tokens written out and scanned again. The texts of tokens, joined by single blanks, scan to
the same kinds and texts, whichever tokens come to stand next to each other.
-/

namespace Asm6510.Source

open Machine (Mode Shape)
open Operand
open Text

/-- What can stand after a token when tokens are joined by blanks: nothing, or a blank and the
start of another token.
-/
inductive Follows : List Char → Prop
  | nil : Follows []
  | blank {c : Char} {rest : List Char} (ink : isBlank c = false) (other : c ≠ '=')
    : Follows (' ' :: c :: rest)

/-- No name goes on after a token. -/
theorem Follows.stops {rest : List Char} (follows : Follows rest)
    : ∀ c ∈ rest.head?, isAlphanumeric c = false := by
  cases follows with
  | nil => simp
  | blank ink other =>
      intro c member
      cases member
      decide

theorem Follows.dropWhile_ne {rest : List Char} (follows : Follows rest) (more : List Char)
    : rest.dropWhile isBlank ≠ '=' :: more := by
  cases follows with
  | nil => simp
  | @blank c rest ink other =>
      have space : isBlank ' ' = true := by decide
      intro same
      simp only [List.dropWhile_cons, space, if_true, ink] at same
      exact other (List.cons.inj same).1

/-- The blanks after a token are one blank at most. -/
theorem Follows.takeWhile_cases {rest : List Char} (follows : Follows rest)
    : rest = [] ∧ rest.takeWhile isBlank = []
      ∨ ∃ more, rest = ' ' :: more ∧ rest.takeWhile isBlank = [' '] := by
  cases follows with
  | nil => exact Or.inl ⟨rfl, rfl⟩
  | @blank c rest ink other =>
      have space : isBlank ' ' = true := by decide
      exact Or.inr ⟨_, rfl, by simp [space, ink]⟩

namespace Lexeme

variable {c : Char} {cs name rest : List Char}

-----------------------------------------------------------------------------------------
-- Most forms do not fit a token's text
-----------------------------------------------------------------------------------------

theorem directive?_eq_none (other : c ≠ '.')
    : directive? (c :: cs) = none := by
  apply List.findSome?_eq_none_iff.mpr
  intro directive _
  cases directive <;> simp [Directive.keyword, List.isPrefixOf?, other.symm]

theorem quoted?_eq_none (other : c ≠ '"')
    : quoted? (c :: cs) = none := by
  unfold quoted?
  split
  · rename_i same
    exact absurd (List.cons.inj same).1 other
  · rfl

/-- Without a name there is no assignment and no label. -/
theorem assignment?_eq_none_of_unnamed (unnamed : isAlphanumeric c = false)
    : assignment? (c :: cs) = none := by
  simp [assignment?, nameLength?_eq_none unnamed]

theorem label?_eq_none_of_unnamed (unnamed : isAlphanumeric c = false)
    : label? (c :: cs) = none := by
  simp [label?, nameLength?_eq_none unnamed]

theorem ident?_eq_none_of_unnamed (unnamed : isAlphanumeric c = false)
    (unmarked : Part.mark? (c :: cs) = none)
    : ident? (c :: cs) = none := by
  simp [ident?, unmarked, nameLength?_eq_none unnamed]

/-- A name without an equals sign after it is not assigned. -/
theorem assignment?_eq_none_of_named (named : IsName name)
    (stops : ∀ c ∈ rest.head?, isAlphanumeric c = false)
    (other : ∀ more, rest.dropWhile isBlank ≠ '=' :: more)
    : assignment? (name ++ rest) = none := by
  simp only [assignment?, named.nameLength?_append stops, List.drop_left, Option.bind_eq_bind,
    Option.bind_some]

theorem label?_eq_none_of_named (named : IsName name)
    (stops : ∀ c ∈ rest.head?, isAlphanumeric c = false)
    (other : ∀ more, rest ≠ ':' :: more)
    : label? (name ++ rest) = none := by
  simp only [label?, named.nameLength?_append stops, List.drop_left, Option.bind_eq_bind,
    Option.bind_some]

/-- The outline of a literal's mode is not the beginning of the outline of a mode that is tried
later, and no outline holds a blank. So the digits and what follows cannot be misread.
-/
theorem literalModes_pairwise
    : literalModes.Pairwise fun earlier later =>
        ∀ shape ∈ earlier.shape?, ∀ other ∈ later.shape?,
          ¬ shape.outline <+: other.outline := by
  decide

theorem blank_notMem_outline {mode : Mode} {shape : Shape} (shaped : mode.shape? = some shape)
    : ' ' ∉ shape.outline := by
  have all : ∀ mode ∈ Mode.all, ∀ shape ∈ mode.shape?, ' ' ∉ shape.outline := by
    decide
  exact all mode (Mode.mem_all mode) shape shaped

-----------------------------------------------------------------------------------------
-- The form of a token's kind fits its text
-----------------------------------------------------------------------------------------

theorem find?_directive (directive : Directive) (stops : ∀ c ∈ rest.head?, isAlphanumeric c = false)
    : find? (directive.keyword.toList ++ rest)
      = some ⟨directive.keyword.length, .directive directive⟩ := by
  have ended : rest.head?.any isAlphanumeric = false := by
    cases found : rest.head? with
    | none => rfl
    | some c => exact stops c found
  have first : directive? (directive.keyword.toList ++ rest)
      = some ⟨directive.keyword.length, .directive directive⟩ := by
    cases directive <;>
      simp [directive?, Directive.all, Directive.keyword, List.isPrefixOf?, ended]
  simp [find?, first]

/-- A quoted text takes its two quotes and what is between them. -/
theorem take_quotation (content rest : List Char)
    : ('"' :: (content ++ '"' :: rest)).take (content.length + 2)
      = '"' :: (content ++ ['"']) := by
  have around : '"' :: (content ++ '"' :: rest) = '"' :: (content ++ ['"']) ++ rest := by simp
  rw [around, List.take_left' (by simp)]

/-- A quoted text is found up to its closing quote. -/
theorem quoted?_text {content : List Char} (inside : '"' ∉ content)
    : quoted? ('"' :: (content ++ '"' :: rest))
      = some ⟨content.length + 2, .text (String.ofList content)⟩ := by
  have plain : ∀ c ∈ content, (c != '"') = true := by
    intro c member
    rw [bne_iff_ne]
    intro same
    exact inside (same ▸ member)
  have taken : (content ++ '"' :: rest).takeWhile (· != '"') = content := by
    rw [List.takeWhile_append_of_pos plain]
    simp
  simp [quoted?, taken]

theorem find?_text {content : List Char} (inside : '"' ∉ content)
    : find? ('"' :: (content ++ '"' :: rest))
      = some ⟨content.length + 2, .text (String.ofList content)⟩ := by
  simp [find?, directive?_eq_none, quoted?_text inside]

/-- A name rules out all forms before those of names. -/
theorem find?_named (named : IsName name)
    : find? (name ++ rest)
      = (assignment? (name ++ rest)
          <|> label? (name ++ rest) <|> ident? (name ++ rest) <|> literal? (name ++ rest)) := by
  obtain ⟨c, more, rfl, plain⟩ := named.exists_cons
  have dotless : c ≠ '.' := ne_of_isAlphanumeric plain (by decide)
  have quoteless : c ≠ '"' := ne_of_isAlphanumeric plain (by decide)
  simp only [find?, List.cons_append, directive?_eq_none dotless, quoted?_eq_none quoteless]
  rfl

theorem find?_assignment (named : IsName name) {gap : List Char}
    (blank : ∀ c ∈ gap, isBlank c = true)
    : find? (name ++ (gap ++ '=' :: rest))
      = some ⟨name.length + gap.length + 1 + (rest.takeWhile isBlank).length,
          .assignment (String.ofList name)⟩ := by
  have stops : ∀ c ∈ (gap ++ '=' :: rest).head?, isAlphanumeric c = false := by
    cases gap with
    | nil =>
        intro c member
        cases member
        decide
    | cons d gap =>
        intro c member
        cases member
        by_contra plain
        have ink := isBlank_of_isAlphanumeric (by simpa using plain)
        rw [blank d (by simp)] at ink
        cases ink
  have equals : isBlank '=' = false := by decide
  have taken : (gap ++ '=' :: rest).takeWhile isBlank = gap := by
    rw [List.takeWhile_append_of_pos blank]
    simp [equals]
  have dropped : (gap ++ '=' :: rest).dropWhile isBlank = '=' :: rest := by
    rw [List.dropWhile_append_of_pos blank]
    simp [equals]
  have first : assignment? (name ++ (gap ++ '=' :: rest))
      = some ⟨name.length + gap.length + 1 + (rest.takeWhile isBlank).length,
          .assignment (String.ofList name)⟩ := by
    simp only [assignment?, named.nameLength?_append stops, List.drop_left, List.take_left,
      taken, dropped, Option.bind_eq_bind, Option.bind_some]
  rw [find?_named named, first]
  rfl

theorem find?_label (named : IsName name)
    : find? (name ++ ':' :: rest) = some ⟨name.length + 1, .label (String.ofList name)⟩ := by
  have stops : ∀ c ∈ (':' :: rest).head?, isAlphanumeric c = false := by
    intro c member
    cases member
    decide
  have colon : isBlank ':' = false := by decide
  have unassigned : assignment? (name ++ ':' :: rest) = none :=
    assignment?_eq_none_of_named named stops fun more same => by simp [colon] at same
  have first : label? (name ++ ':' :: rest)
      = some ⟨name.length + 1, .label (String.ofList name)⟩ := by
    simp only [label?, named.nameLength?_append stops, List.drop_left, List.take_left,
      Option.bind_eq_bind, Option.bind_some]
  rw [find?_named named, unassigned, first]
  rfl

theorem find?_name (named : IsName name) (follows : Follows rest)
    : find? (name ++ rest) = some ⟨name.length, .ident⟩ := by
  have unassigned : assignment? (name ++ rest) = none :=
    assignment?_eq_none_of_named named follows.stops follows.dropWhile_ne
  have unlabelled : label? (name ++ rest) = none :=
    label?_eq_none_of_named named follows.stops fun more same => by cases follows <;> cases same
  have first : ident? (name ++ rest) = some ⟨name.length, .ident⟩ := by
    have unmarked : Part.mark? (name ++ rest) = none := by
      obtain ⟨c, more, rfl, plain⟩ := named.exists_cons
      exact mark?_eq_none plain _
    simp [ident?, unmarked, named.nameLength?_append follows.stops]
  rw [find?_named named, unassigned, unlabelled, first]
  rfl

theorem find?_marked {mark : Char} (part : mark = '<' ∨ mark = '>') (named : IsName name)
    (stops : ∀ c ∈ rest.head?, isAlphanumeric c = false)
    : find? (mark :: (name ++ rest)) = some ⟨name.length + 1, .ident⟩ := by
  have marked : (Part.mark? (mark :: (name ++ rest))).isSome = true := by
    rcases part with rfl | rfl
    · rfl
    · rfl
  have first : ident? (mark :: (name ++ rest)) = some ⟨name.length + 1, .ident⟩ := by
    simp [ident?, marked, named.nameLength?_append stops, Nat.add_comm]
  have others : isAlphanumeric mark = false ∧ mark ≠ '.' ∧ mark ≠ '"' := by
    rcases part with rfl | rfl
    · decide
    · decide
  simp only [find?, directive?_eq_none others.2.1, quoted?_eq_none others.2.2,
    assignment?_eq_none_of_unnamed others.1, label?_eq_none_of_unnamed others.1, first]
  rfl

theorem outline_literal {mode : Mode} {shape : Shape} {digits : List Char}
    (shaped : mode.shape? = some shape) (counted : digits.length = shape.digits)
    (valid : digits.all Hex.isDigit = true)
    : Machine.outline (shape.opening.toList ++ (digits ++ shape.closing.toList))
      = shape.outline := by
  let text := String.ofList (shape.opening.toList ++ (digits ++ shape.closing.toList))
  have fits : shape.fits text = true :=
    Shape.fits_iff.mpr ⟨digits, String.toList_ofList, counted, valid⟩
  simpa [text] using (Shape.fits_iff_outline (Mode.shape?_plain shaped)).mp fits

/-- A shape whose outline is not a beginning of the text's is not read off the text. What follows
the text is of no help, since it starts with a blank.
-/
theorem read?_eq_none {mode : Mode} {shape : Shape} (shaped : mode.shape? = some shape)
    (follows : Follows rest) (other : ¬ shape.outline <+: Machine.outline cs)
    : shape.read? (cs ++ rest) = none := by
  by_contra found
  obtain ⟨⟨digits, after⟩, read⟩ := Option.ne_none_iff_exists'.mp found
  obtain ⟨spelt, counted, valid⟩ := Shape.read?_eq_some_iff.mp read
  have outlined : Machine.outline cs ++ Machine.outline rest
      = shape.outline ++ Machine.outline after := by
    rw [← outline_literal shaped counted valid]
    simpa [Machine.outline] using congrArg (List.map Machine.blot) spelt
  rcases List.append_eq_append_iff.mp outlined with ⟨more, longer, tail⟩ | ⟨more, shorter, -⟩
  · -- The outline goes on past the text, so it holds the blank that follows.
    cases follows with
    | nil =>
        obtain ⟨rfl, -⟩ := List.append_eq_nil_iff.mp tail.symm
        exact other ⟨[], by simpa using longer⟩
    | blank ink unequal =>
        cases more with
        | nil => exact other ⟨[], by simpa using longer⟩
        | cons d more =>
            have space : Machine.blot ' ' = d := (List.cons.inj tail).1
            have member : ' ' ∈ shape.outline := by
              rw [longer, ← space]
              exact List.mem_append_right _ (List.mem_cons_self)
            exact blank_notMem_outline shaped member
  · exact other ⟨more, shorter.symm⟩

/-- A literal is read in its own mode: the modes tried before have other outlines. -/
theorem literal?_append {mode : Mode} {shape : Shape} {digits : List Char}
    (member : mode ∈ literalModes) (shaped : mode.shape? = some shape)
    (counted : digits.length = shape.digits) (valid : digits.all Hex.isDigit = true)
    (follows : Follows rest)
    : literal? (shape.opening.toList ++ (digits ++ (shape.closing.toList ++ rest)))
      = some ⟨shape.opening.length + shape.digits + shape.closing.length, .operand mode⟩ := by
  obtain ⟨before, after, split⟩ := List.append_of_mem member
  refine List.findSome?_eq_some_iff.mpr ⟨before, mode, after, split, ?_, ?_⟩
  · have read : shape.read? (shape.opening.toList ++ (digits ++ (shape.closing.toList ++ rest)))
        = some (digits, rest) := Shape.read?_eq_some_iff.mpr ⟨rfl, counted, valid⟩
    simp [shaped, read]
  · -- A mode tried before would have to read past the end of the literal.
    intro earlier early
    cases found : earlier.shape? with
    | none => rfl
    | some other =>
        have distinct := literalModes_pairwise
        rw [split] at distinct
        have unlike := (List.pairwise_append.mp distinct).2.2 earlier early mode (by simp)
          other found shape shaped
        rw [← outline_literal shaped counted valid] at unlike
        have missing := read?_eq_none found follows unlike
        simp only [List.append_assoc] at missing
        simp [missing]

theorem find?_operand {mode : Mode} {shape : Shape} {digits : List Char}
    (member : mode ∈ literalModes) (shaped : mode.shape? = some shape)
    (counted : digits.length = shape.digits) (valid : digits.all Hex.isDigit = true)
    (follows : Follows rest)
    : find? (shape.opening.toList ++ (digits ++ (shape.closing.toList ++ rest)))
      = some ⟨shape.opening.length + shape.digits + shape.closing.length, .operand mode⟩ := by
  have all : ∀ mode ∈ Mode.all, ∀ shape ∈ mode.shape?,
      shape.opening.toList.head?.any (fun c =>
        !isAlphanumeric c && c != '.' && c != '"' && c != '<' && c != '>') = true := by
    decide
  obtain ⟨c, head, signs⟩ :=
    (Option.any_eq_true _ _).mp (all mode (Mode.mem_all mode) shape shaped)
  simp only [Bool.and_eq_true, Bool.not_eq_true', bne_iff_ne] at signs
  obtain ⟨⟨⟨⟨unnamed, dotless⟩, quoteless⟩, notLow⟩, notHigh⟩ := signs
  have first := literal?_append member shaped counted valid follows
  obtain ⟨more, opening⟩ : ∃ more, shape.opening.toList = c :: more := by
    exact List.head?_eq_some_iff.mp head
  rw [opening, List.cons_append] at first ⊢
  have unmarked (cs : List Char) : Part.mark? (c :: cs) = none := by
    cases found : Part.mark? (c :: cs) with
    | none => rfl
    | some part =>
        rcases mark?_eq_some found with low | high
        · exact absurd low notLow
        · exact absurd high notHigh
  simp only [find?, directive?_eq_none dotless, quoted?_eq_none quoteless,
    assignment?_eq_none_of_unnamed unnamed, label?_eq_none_of_unnamed unnamed,
    ident?_eq_none_of_unnamed unnamed (unmarked _), first]
  rfl

end Lexeme

/-- A token's text is found again as a token of its kind. An assignment takes the blank after it
along.
-/
theorem Spelt.find?_append {kind : Kind} {cs rest : List Char} (spelt : Spelt kind cs)
    (follows : Follows rest)
    : ∃ gap after,
        rest = gap ++ after
        ∧ (gap = [] ∨ gap = [' '])
        ∧ Lexeme.find? (cs ++ rest) = some ⟨cs.length + gap.length, kind⟩ := by
  cases spelt with
  | directive directive =>
      refine ⟨[], rest, rfl, Or.inl rfl, ?_⟩
      rw [Lexeme.find?_directive directive follows.stops, ← String.length_toList]
      rfl
  | text inside =>
      refine ⟨[], rest, rfl, Or.inl rfl, ?_⟩
      simpa using Lexeme.find?_text inside
  | @assignment name gap named blank =>
      have found : Lexeme.find? (name ++ (gap ++ '=' :: rest)) = _ :=
        Lexeme.find?_assignment named blank
      refine ⟨rest.takeWhile isBlank, rest.dropWhile isBlank,
        List.takeWhile_append_dropWhile.symm, ?_, ?_⟩
      · rcases follows.takeWhile_cases with ⟨-, taken⟩ | ⟨-, -, taken⟩
        · exact Or.inl taken
        · exact Or.inr taken
      · simpa [Nat.add_assoc] using found
  | label named =>
      refine ⟨[], rest, rfl, Or.inl rfl, ?_⟩
      simpa using Lexeme.find?_label named
  | name named => exact ⟨[], rest, rfl, Or.inl rfl, Lexeme.find?_name named follows⟩
  | marked part named =>
      refine ⟨[], rest, rfl, Or.inl rfl, ?_⟩
      simpa using Lexeme.find?_marked part named follows.stops
  | operand member shaped counted valid =>
      refine ⟨[], rest, rfl, Or.inl rfl, ?_⟩
      have found := Lexeme.find?_operand member shaped counted valid follows
      simpa [counted, String.length_toList, Nat.add_assoc] using found

/-- A token starts with a character that is neither blank nor an equals sign. -/
theorem Spelt.exists_cons {kind : Kind} {cs : List Char} (spelt : Spelt kind cs)
    : ∃ c rest, cs = c :: rest ∧ isBlank c = false ∧ c ≠ '=' := by
  have named {name : List Char} (named : IsName name)
      : ∃ c rest, name = c :: rest ∧ isBlank c = false ∧ c ≠ '=' := by
    obtain ⟨c, rest, rfl, plain⟩ := named.exists_cons
    exact ⟨c, rest, rfl, isBlank_of_isAlphanumeric plain, ne_of_isAlphanumeric plain (by decide)⟩
  cases spelt with
  | directive directive => cases directive <;> exact ⟨'.', _, rfl, by decide, by decide⟩
  | text inside => exact ⟨'"', _, rfl, by decide, by decide⟩
  | assignment name blank =>
      obtain ⟨c, rest, rfl, ink, other⟩ := named name
      exact ⟨c, _, rfl, ink, other⟩
  | label name =>
      obtain ⟨c, rest, rfl, ink, other⟩ := named name
      exact ⟨c, _, rfl, ink, other⟩
  | name name => exact named name
  | marked part named =>
      rcases part with rfl | rfl
      · exact ⟨'<', _, rfl, by decide, by decide⟩
      · exact ⟨'>', _, rfl, by decide, by decide⟩
  | @operand mode shape digits member shaped counted valid =>
      have all : ∀ mode ∈ Mode.all, ∀ shape ∈ mode.shape?,
          shape.opening.toList.head?.any (fun c => !isBlank c && c != '=') = true := by
        decide
      obtain ⟨c, head, signs⟩ :=
        (Option.any_eq_true _ _).mp (all mode (Mode.mem_all mode) shape shaped)
      simp only [Bool.and_eq_true, Bool.not_eq_true', bne_iff_ne] at signs
      obtain ⟨ink, other⟩ := signs
      obtain ⟨more, opening⟩ := List.head?_eq_some_iff.mp head
      exact ⟨c, _, by rw [opening]; rfl, ink, other⟩

-----------------------------------------------------------------------------------------
-- Tokens on one line are scanned again
-----------------------------------------------------------------------------------------

/-- A token without its place. -/
def Token.content (token : Token) : Kind × String :=
  (token.kind, token.text)

/-- Texts joined by single blanks. -/
def joined : List String → List Char
  | [] => []
  | [text] => text.toList
  | text :: next :: rest => text.toList ++ ' ' :: joined (next :: rest)

theorem toList_intercalate_blank (texts : List String)
    : (String.intercalate " " texts).toList = joined texts := by
  fun_induction joined texts with
  | case1 => simp
  | case2 text => simp
  | case3 text next rest ih => simp [ih]

/-- Scanning a token's text gives the token back, and goes on after it or after the blank. -/
theorem scan_spelt (file : String) (line col : Nat) {kind : Kind} {cs rest : List Char}
    (spelt : Spelt kind cs) (follows : Follows rest)
    : ∃ next after,
        (rest = after ∨ rest = ' ' :: after)
        ∧ scan file line col (cs ++ rest)
          = ⟨kind, String.ofList cs, ⟨file, line, col⟩⟩ :: scan file line next after := by
  obtain ⟨gap, after, rfl, blank, found⟩ := spelt.find?_append follows
  obtain ⟨c, more, rfl, ink, -⟩ := spelt.exists_cons
  have blanks : ∀ d ∈ gap, isBlank d = true := by
    rcases blank with rfl | rfl
    · simp
    · simp only [List.mem_singleton, forall_eq]
      decide
  have length : (c :: more ++ gap).length = (c :: more).length + gap.length :=
    List.length_append
  have taken : (c :: more ++ (gap ++ after)).take ((c :: more).length + gap.length)
      = c :: more ++ gap := by
    rw [← List.append_assoc, List.take_left' length]
  have dropped : (more ++ (gap ++ after)).drop ((c :: more).length + gap.length - 1) = after := by
    rw [← List.append_assoc, List.drop_left' (by simp)]
  have text : trimEnd (c :: more ++ gap) = c :: more := by
    rw [trimEnd_append_blanks _ blanks, spelt.trimEnd_eq]
  refine ⟨col + byteLength (c :: more ++ gap), after, ?_, ?_⟩
  · rcases blank with rfl | rfl
    · exact Or.inl rfl
    · exact Or.inr rfl
  · rw [List.cons_append] at found taken
    rw [List.cons_append, scan, ink]
    simp only [found, taken, dropped, text]
    rfl

/-- What follows a token in joined texts is nothing, or a blank and the other texts. -/
theorem joined_cons (text : String) {tokens : List Token}
    (spelt : ∀ token ∈ tokens, Spelt token.kind token.text.toList)
    : ∃ rest,
        joined (text :: tokens.map (·.text)) = text.toList ++ rest
        ∧ Follows rest
        ∧ (tokens = [] ∧ rest = [] ∨ rest = ' ' :: joined (tokens.map (·.text))) := by
  cases tokens with
  | nil => exact ⟨[], by simp [joined], .nil, Or.inl ⟨rfl, rfl⟩⟩
  | cons next tokens =>
      refine ⟨' ' :: joined ((next :: tokens).map (·.text)), rfl, ?_, Or.inr rfl⟩
      obtain ⟨c, more, split, ink, other⟩ := (spelt next (by simp)).exists_cons
      cases tokens with
      | nil =>
          simp only [List.map_cons, List.map_nil, joined, split]
          exact .blank ink other
      | cons third tokens =>
          simp only [List.map_cons, joined, split, List.cons_append]
          exact .blank ink other

/-- Joined tokens scan to the same kinds and texts.
Witness: induction on the tokens; each is found again, and a blank is skipped.
-/
theorem map_content_scan_joined (file : String) (line col : Nat) {tokens : List Token}
    (spelt : ∀ token ∈ tokens, Spelt token.kind token.text.toList)
    : (scan file line col (joined (tokens.map (·.text)))).map Token.content
      = tokens.map Token.content := by
  induction tokens generalizing col with
  | nil => simp [joined, scan]
  | cons token tokens ih =>
      have others : ∀ token ∈ tokens, Spelt token.kind token.text.toList :=
        fun other member => spelt other (by simp [member])
      obtain ⟨rest, split, follows, ends⟩ := joined_cons token.text others
      obtain ⟨next, after, gap, scanned⟩ := scan_spelt file line col (spelt token (by simp)) follows
      have remaining : (scan file line next after).map Token.content
          = tokens.map Token.content := by
        rcases ends with ⟨rfl, rfl⟩ | rfl
        · obtain rfl : after = [] := by simpa [eq_comm] using gap
          simp [scan]
        · rcases gap with rfl | same
          · have space : isBlank ' ' = true := by decide
            rw [scan, if_pos space]
            exact ih _ others
          · obtain rfl := (List.cons.inj same).2
            exact ih _ others
      rw [List.map_cons, split, scanned, List.map_cons, remaining, String.ofList_toList]
      rfl

-----------------------------------------------------------------------------------------
-- The line is the whole text, without comments
-----------------------------------------------------------------------------------------

/-- Whether a character starts neither a comment nor a quotation. -/
def isPlain (c : Char) : Bool :=
  c != ';' && c != '"'

theorem stripComment_append_of_plain {cs : List Char} (plain : ∀ c ∈ cs, isPlain c = true)
    (rest : List Char)
    : stripComment false (cs ++ rest) = cs ++ stripComment false rest := by
  induction cs with
  | nil => rfl
  | cons c cs ih =>
      obtain ⟨notComment, notQuote⟩ : c ≠ ';' ∧ c ≠ '"' := by
        simpa [isPlain] using plain c (by simp)
      have others := ih fun c member => plain c (by simp [member])
      simp [stripComment, notComment, notQuote, others]

theorem stripComment_append_of_quoted {cs : List Char} (inside : '"' ∉ cs) (rest : List Char)
    : stripComment true (cs ++ rest) = cs ++ stripComment true rest := by
  induction cs with
  | nil => rfl
  | cons c cs ih =>
      have notQuote : c ≠ '"' := fun same => inside (by simp [same])
      have others := ih fun member => inside (by simp [member])
      simp [stripComment, notQuote, others]

/-- Neither a semicolon nor a quote is blank. -/
theorem isPlain_of_isBlank {c : Char} (blank : isBlank c = true)
    : isPlain c = true := by
  by_contra special
  simp only [isPlain, Bool.and_eq_true, bne_iff_ne, not_and_or, not_not] at special
  rcases special with rfl | rfl
  · exact absurd blank (by decide)
  · exact absurd blank (by decide)

theorem isPlain_of_isAlphanumeric {c : Char} (plain : isAlphanumeric c = true)
    : isPlain c = true := by
  have notComment : c ≠ ';' := ne_of_isAlphanumeric plain (by decide)
  have notQuote : c ≠ '"' := ne_of_isAlphanumeric plain (by decide)
  simp [isPlain, notComment, notQuote]

/-- A token's text is quoted, or holds neither a semicolon nor a quote. -/
theorem Spelt.plain_or_quoted {kind : Kind} {cs : List Char} (spelt : Spelt kind cs)
    : (∀ c ∈ cs, isPlain c = true) ∨ ∃ content, '"' ∉ content ∧ cs = '"' :: (content ++ ['"']) := by
  cases spelt with
  | directive directive =>
      have plain : directive.keyword.toList.all isPlain = true := by
        cases directive <;> decide
      exact .inl (List.all_eq_true.mp plain)
  | @text content inside => exact .inr ⟨content, inside, rfl⟩
  | @assignment name gap named blank =>
      refine .inl fun c member => ?_
      rcases List.mem_append.mp member with member | member
      · exact isPlain_of_isAlphanumeric (named.plain c member)
      · rcases List.mem_append.mp member with member | equals
        · exact isPlain_of_isBlank (blank c member)
        · obtain rfl := List.mem_singleton.mp equals
          decide
  | label named =>
      refine .inl fun c member => ?_
      rcases List.mem_append.mp member with member | colon
      · exact isPlain_of_isAlphanumeric (named.plain c member)
      · obtain rfl := List.mem_singleton.mp colon
        decide
  | name named => exact .inl fun c member => isPlain_of_isAlphanumeric (named.plain c member)
  | marked part named =>
      refine .inl fun c member => ?_
      rcases List.mem_cons.mp member with rfl | member
      · rcases part with rfl | rfl
        · decide
        · decide
      · exact isPlain_of_isAlphanumeric (named.plain c member)
  | operand member shaped counted valid =>
      exact .inl (forall_mem_literal isPlain (fun _ => isPlain_of_isAlphanumeric) (by decide)
        shaped valid)

/-- A quoted text is kept, whatever it holds. -/
theorem stripComment_quotation {content : List Char} (inside : '"' ∉ content) (rest : List Char)
    : stripComment false ('"' :: (content ++ '"' :: rest))
      = '"' :: (content ++ '"' :: stripComment false rest) := by
  have opening (cs : List Char) : stripComment false ('"' :: cs) = '"' :: stripComment true cs :=
    rfl
  have closing : stripComment true ('"' :: rest) = '"' :: stripComment false rest :=
    rfl
  rw [opening, stripComment_append_of_quoted inside, closing]

/-- A token's text ends outside quotes, and holds a semicolon only inside them. -/
theorem Spelt.stripComment_append {kind : Kind} {cs : List Char} (spelt : Spelt kind cs)
    (rest : List Char)
    : stripComment false (cs ++ rest) = cs ++ stripComment false rest := by
  rcases spelt.plain_or_quoted with plain | ⟨content, inside, rfl⟩
  · exact stripComment_append_of_plain plain rest
  · simpa using stripComment_quotation inside rest

theorem stripComment_joined {tokens : List Token}
    (spelt : ∀ token ∈ tokens, Spelt token.kind token.text.toList)
    : stripComment false (joined (tokens.map (·.text))) = joined (tokens.map (·.text)) := by
  induction tokens with
  | nil => rfl
  | cons token tokens ih =>
      have others : ∀ token ∈ tokens, Spelt token.kind token.text.toList :=
        fun other member => spelt other (by simp [member])
      obtain ⟨rest, split, -, ends⟩ := joined_cons token.text others
      rw [List.map_cons, split, (spelt token (by simp)).stripComment_append]
      rcases ends with ⟨-, rfl⟩ | rfl
      · rfl
      · have space (cs : List Char) : stripComment false (' ' :: cs) = ' ' :: stripComment false cs :=
          rfl
        rw [space, ih others]

/-- A text without a line feed is one line, if it is not empty. -/
theorem lines_of_feedless {cs : List Char} (feedless : '\n' ∉ cs)
    : lines cs = if cs = [] then [] else [cs] := by
  fun_induction lines cs with
  | case1 => rfl
  | case2 rest ih => simp at feedless
  | case3 rest ih => simp at feedless
  | case4 c rest notFeed notReturn ih =>
      have found := ih fun member => feedless (List.mem_cons_of_mem _ member)
      rw [found]
      split
      · rename_i empty
        simp [consLine, empty]
      · simp [consLine]

theorem lineFeed_notMem_joined {texts : List String}
    (feedless : ∀ text ∈ texts, '\n' ∉ text.toList)
    : '\n' ∉ joined texts := by
  fun_induction joined texts with
  | case1 => simp
  | case2 text => exact feedless text (by simp)
  | case3 text next rest ih =>
      have first := feedless text (by simp)
      have others := ih fun text member => feedless text (by simp_all)
      simp [first, others]

/-- The texts of tokens in one line, with a blank between each two. -/
def flat (tokens : List Token) : String :=
  String.intercalate " " (tokens.map (·.text))

/-- Written out, the tokens fill one line at most, and it scans to their kinds and texts again. -/
structure Rescanned (file : String) (tokens : List Token) : Prop where
  short : (lines (flat tokens).toList).length ≤ 1
  same : (Source.tokens file (flat tokens)).map Token.content = tokens.map Token.content

/-- Tokens spelt like their kinds are read back under any name. -/
theorem rescanned_of_spelt (file : String) {tokens : List Token}
    (spelt : ∀ token ∈ tokens,
      Spelt token.kind token.text.toList ∧ '\n' ∉ token.text.toList)
    : Rescanned file tokens := by
  have feedless : '\n' ∉ joined (tokens.map (·.text)) := by
    apply lineFeed_notMem_joined
    intro text member
    obtain ⟨token, found, rfl⟩ := List.mem_map.mp member
    exact (spelt token found).2
  have single := lines_of_feedless feedless
  rw [← toList_intercalate_blank, ← flat] at single
  constructor
  · rw [single]
    split <;> simp
  · have scanned := map_content_scan_joined file 0 0 fun token member => (spelt token member).1
    have uncommented := stripComment_joined fun token member => (spelt token member).1
    rw [← toList_intercalate_blank, ← flat] at scanned uncommented
    rw [Source.tokens, single]
    split
    · rename_i empty
      rw [empty] at scanned
      simpa [scan] using scanned
    · simpa [lineTokens, uncommented] using scanned

/-- The tokens of a source are scanned from their texts again, and so are those of any number of
sources one after the other, whichever tokens come to stand next to each other.
-/
theorem tokens_rescanned (name : String)
    : (∀ file code, Rescanned name (tokens file code))
      ∧ ∀ sources : List (String × String),
          Rescanned name (sources.flatMap fun source => tokens source.1 source.2) := by
  constructor
  · intro file code
    apply rescanned_of_spelt
    intro token member
    exact spelt_of_mem_tokens member
  · intro sources
    apply rescanned_of_spelt
    intro token member
    obtain ⟨source, -, scanned⟩ := List.mem_flatMap.mp member
    exact spelt_of_mem_tokens scanned

end Asm6510.Source
