import Asm6510.Proofs.Source.Slices
import Mathlib.Algebra.Ring.Parity

/-! Semicolons and quotes. A comment is looked for by counting quotes, and a quoted text by looking
for its closing quote. The two agree wherever a quote is closed: a semicolon between two quotes is
in a quoted text, and any other ends its line. Behind a quote that nothing closes they do not.
-/

namespace Asm6510.Source

open Text

/-- A place of a line, given by the text before it, that is neither in a comment nor quoted. -/
structure Bare (before : List Char) : Prop where
  uncut : stripComment false before = before
  closed : Even (before.count '"')

/-- A place of a line, between two texts, that is not in a comment and behind a quote that nothing
closes.
-/
structure Unclosed (before after : List Char) : Prop where
  uncut : stripComment false before = before
  opened : Odd (before.count '"')
  endless : '"' ∉ after

variable {file : String} {line col : Nat} {cs before content after rest : List Char} {c : Char}

-----------------------------------------------------------------------------------------
-- Where comments start
-----------------------------------------------------------------------------------------

/-- A text without a comment is kept, and leaves the quotation as it is if it holds an even number
of quotes.
-/
theorem stripComment_append {quoted : Bool} (uncut : stripComment quoted before = before)
    (rest : List Char)
    : stripComment quoted (before ++ rest)
      = before ++ stripComment (if Even (before.count '"') then quoted else !quoted) rest := by
  induction before generalizing quoted with
  | nil => simp
  | cons c before ih =>
      rw [stripComment] at uncut
      split at uncut
      · cases uncut
      · rename_i kept
        have others := ih (List.cons.inj uncut).2
        rw [List.cons_append, stripComment, if_neg kept, others]
        by_cases quote : c = '"'
        · by_cases even : Even (before.count '"')
          · simp [quote, even, Nat.even_add_one]
          · simp [quote, even, Nat.even_add_one]
        · simp [quote]

/-- A text that has a comment is cut there, whatever follows it. -/
theorem stripComment_append_of_cut {quoted : Bool} (cut : stripComment quoted before ≠ before)
    (rest : List Char)
    : stripComment quoted (before ++ rest) = stripComment quoted before := by
  induction before generalizing quoted with
  | nil => exact absurd rfl cut
  | cons c before ih =>
      rw [List.cons_append, stripComment, stripComment]
      rw [stripComment] at cut
      split
      · rfl
      · rename_i kept
        rw [if_neg kept] at cut
        rw [ih fun whole => cut (by rw [whole])]

/-- A quoted text that opens outside comments and quotes is kept. -/
theorem Bare.stripComment_eq (bare : Bare before) (inside : '"' ∉ content) (after : List Char)
    : stripComment false (before ++ '"' :: (content ++ '"' :: after))
      = before ++ '"' :: (content ++ '"' :: stripComment false after) := by
  rw [stripComment_append bare.uncut, if_pos bare.closed, stripComment_quotation inside]

-----------------------------------------------------------------------------------------
-- Where quoted texts are found
-----------------------------------------------------------------------------------------

/-- Only a quotation takes a quote. -/
theorem Lexeme.quote_notMem_taken {lexeme : Lexeme} (other : c ≠ '"')
    (found : Lexeme.find? (c :: rest) = some lexeme)
    : '"' ∉ (c :: rest).take lexeme.length := by
  obtain ⟨spelling, gap, left, split, spelt, blank, counted⟩ := Lexeme.leads_of_find? found
  have taken : (c :: rest).take lexeme.length = spelling ++ gap := by
    rw [split, ← List.append_assoc, List.take_left' (by simp [counted])]
  have plain : ∀ sign ∈ spelling ++ gap, isPlain sign = true := by
    intro sign member
    rcases List.mem_append.mp member with member | member
    · rcases spelt.plain_or_quoted with plain | ⟨content, -, rfl⟩
      · exact plain sign member
      · exact absurd (List.cons.inj split).1 other
    · exact isPlain_of_isBlank (blank sign member)
  rw [taken]
  intro quote
  exact absurd (plain _ quote) (by decide)

/-- A quote that opens a quotation in a text with an even number of quotes is closed in it. -/
theorem exists_closing (closed : Even (('"' :: before).count '"'))
    : ∃ content more, before = content ++ '"' :: more ∧ '"' ∉ content ∧ Even (more.count '"') := by
  rw [List.count_cons_self, Nat.even_add_one] at closed
  have quote : '"' ∈ before := by
    by_contra missing
    rw [List.count_eq_zero_of_not_mem missing] at closed
    exact closed Even.zero
  obtain ⟨content, more, rfl, inside⟩ := List.eq_append_cons_of_mem quote
  refine ⟨content, more, rfl, inside, ?_⟩
  rw [List.count_append, List.count_eq_zero_of_not_mem inside, List.count_cons_self, Nat.zero_add,
    Nat.even_add_one, not_not] at closed
  exact closed

/-- A form that is found outside quotes ends outside quotes, before the next quotation opens. -/
theorem Lexeme.exists_of_closed {lexeme : Lexeme}
    (found : Lexeme.find? (c :: (before ++ '"' :: rest)) = some lexeme)
    (closed : Even ((c :: before).count '"'))
    : ∃ more,
        c :: before = (c :: (before ++ '"' :: rest)).take lexeme.length ++ more
        ∧ Even (more.count '"') := by
  by_cases quote : c = '"'
  · subst quote
    obtain ⟨content, more, rfl, inside, even⟩ := exists_closing closed
    refine ⟨more, ?_, even⟩
    rw [List.append_assoc, List.cons_append, Lexeme.find?_text inside] at found
    obtain rfl := Option.some.inj found
    rw [List.append_assoc, List.cons_append, Lexeme.take_quotation]
    simp
  · have missing := Lexeme.quote_notMem_taken quote found
    have split : (c :: (before ++ '"' :: rest)).take lexeme.length
          ++ (before ++ '"' :: rest).drop (lexeme.length - 1)
        = (c :: before) ++ '"' :: rest :=
      Lexeme.take_append_of_find? found
    rcases mem_front_or_behind split with ⟨more, taken⟩ | ⟨more, whole, -⟩
    · exact absurd (by simp [taken]) missing
    · refine ⟨more, whole, ?_⟩
      rwa [whole, List.count_append, List.count_eq_zero_of_not_mem missing, Nat.zero_add] at closed

/-- The token of a quoted text. -/
def quotation (content : List Char) (pos : Position) : Token :=
  ⟨.text (String.ofList content), String.ofList ('"' :: (content ++ ['"'])), pos⟩

/-- A quoted text that opens outside quotes is a token.
Witness: induction on the scan, which comes by the opening quote outside quotes.
-/
theorem quotation_mem_scan (split : cs = before ++ '"' :: (content ++ '"' :: after))
    (inside : '"' ∉ content) (closed : Even (before.count '"'))
    : quotation content ⟨file, line, col + byteLength before⟩ ∈ scan file line col cs := by
  -- A character that is passed is no quote, so that it leaves the number of quotes as it is.
  have passed {col : Nat} {first : Char} {before : List Char} (other : first ≠ '"')
      (closed : Even ((first :: before).count '"'))
      : Even (before.count '"')
        ∧ col + byteLength (first :: before) = col + first.utf8Size + byteLength before := by
    rw [List.count_cons_of_ne other] at closed
    rw [byteLength_cons, ← Nat.add_assoc]
    exact ⟨closed, rfl⟩
  fun_induction scan file line col cs generalizing before with
  | case1 => simp at split
  | case2 col first rest blank ih =>
      have other : first ≠ '"' := by
        rintro rfl
        exact absurd blank (by decide)
      cases before with
      | nil => exact absurd (List.cons.inj split).1 other
      | cons _ before =>
          rw [List.cons_append] at split
          obtain ⟨rfl, rfl⟩ := List.cons.inj split
          obtain ⟨even, counted⟩ := passed other closed
          rw [counted]
          exact ih rfl even
  | case3 col first rest ink lexeme found taken =>
      rename_i ih
      cases before with
      | nil =>
          obtain ⟨rfl, rfl⟩ := List.cons.inj split
          obtain rfl := Option.some.inj ((Lexeme.find?_text inside).symm.trans found)
          have whole : taken = '"' :: (content ++ ['"']) := Lexeme.take_quotation content after
          rw [whole, (Spelt.text inside).trimEnd_eq]
          exact .head _
      | cons _ before =>
          rw [List.cons_append] at split
          obtain ⟨rfl, rfl⟩ := List.cons.inj split
          obtain ⟨more, whole, even⟩ := Lexeme.exists_of_closed found closed
          have left : (before ++ '"' :: (content ++ '"' :: after)).drop (lexeme.length - 1)
              = more ++ '"' :: (content ++ '"' :: after) := by
            refine List.append_cancel_left ((Lexeme.take_append_of_find? found).trans ?_)
            rw [← List.append_assoc, ← whole]
            rfl
          rw [whole, byteLength_append, ← Nat.add_assoc]
          exact .tail _ (ih left even)
  | case4 col first rest ink missing ih =>
      cases before with
      | nil =>
          obtain ⟨rfl, rfl⟩ := List.cons.inj split
          cases (Lexeme.find?_text inside).symm.trans missing
      | cons _ before =>
          rw [List.cons_append] at split
          obtain ⟨rfl, rfl⟩ := List.cons.inj split
          have other : first ≠ '"' := by
            rintro rfl
            obtain ⟨other, more, rfl, closing, -⟩ := exists_closing closed
            rw [List.append_assoc, List.cons_append] at missing
            cases (Lexeme.find?_text closing).symm.trans missing
          obtain ⟨even, counted⟩ := passed other closed
          rw [counted]
          exact ih rfl even

/-- A quoted text that opens outside comments and quotes is a token of its line. -/
theorem Bare.quotation_mem (bare : Bare before) (inside : '"' ∉ content) (after : List Char)
    : quotation content ⟨file, line, byteLength before⟩
      ∈ lineTokens file line (before ++ '"' :: (content ++ '"' :: after)) := by
  rw [lineTokens, bare.stripComment_eq inside, ← Nat.zero_add (byteLength before)]
  exact quotation_mem_scan rfl inside bare.closed

-----------------------------------------------------------------------------------------
-- Semicolons
-----------------------------------------------------------------------------------------

theorem uncut_of_append {quoted : Bool}
    (uncut : stripComment quoted (before ++ rest) = before ++ rest)
    : stripComment quoted before = before := by
  by_contra cut
  rw [stripComment_append_of_cut cut] at uncut
  have shorter := (isPrefix_stripComment quoted before).length_le
  rw [uncut, List.length_append] at shorter
  have nothing : rest = [] := List.eq_nil_of_length_eq_zero (by omega)
  rw [nothing, List.append_nil] at uncut
  exact cut uncut

/-- Behind an odd number of quotes, the last of them opens a quotation. -/
theorem exists_opening (opened : Odd (before.count '"'))
    : ∃ front content,
        before = front ++ '"' :: content ∧ '"' ∉ content ∧ Even (front.count '"') := by
  have quote : '"' ∈ before.reverse := by
    by_contra missing
    rw [← List.count_reverse, List.count_eq_zero_of_not_mem missing] at opened
    exact absurd opened (by decide)
  obtain ⟨content, front, split, inside⟩ := List.eq_append_cons_of_mem quote
  have outside : '"' ∉ content.reverse := by
    rwa [List.mem_reverse]
  have whole : before = front.reverse ++ '"' :: content.reverse := by
    rw [← List.reverse_reverse before, split]
    simp
  refine ⟨front.reverse, content.reverse, whole, outside, ?_⟩
  rw [whole, List.count_append, List.count_cons_self, List.count_eq_zero_of_not_mem outside,
    Nat.zero_add, Nat.odd_add_one, Nat.not_odd_iff_even] at opened
  exact opened

/-- A semicolon outside comments, behind an odd number of quotes and before another one, is in a
quoted text.
-/
theorem exists_quotation (uncut : stripComment false before = before)
    (opened : Odd (before.count '"')) (closing : '"' ∈ after)
    : ∃ content pos,
        quotation content pos ∈ lineTokens file line (before ++ ';' :: after)
        ∧ (quotation content pos).Covers (byteLength before) := by
  obtain ⟨front, opening, rfl, inside, even⟩ := exists_opening opened
  obtain ⟨ending, tail, rfl, outside⟩ := List.eq_append_cons_of_mem closing
  have bare : Bare front := ⟨uncut_of_append uncut, even⟩
  have whole : '"' ∉ opening ++ ';' :: ending := by
    simp [inside, outside]
  have split : front ++ '"' :: opening ++ ';' :: (ending ++ '"' :: tail)
      = front ++ '"' :: ((opening ++ ';' :: ending) ++ '"' :: tail) := by
    simp
  refine ⟨opening ++ ';' :: ending, ⟨file, line, byteLength front⟩, ?_, ?_⟩
  · rw [split]
    exact bare.quotation_mem whole tail
  · simp only [Token.Covers, quotation, String.toList_ofList, byteLength_cons, byteLength_append]
    have size : 0 < ';'.utf8Size := by decide
    omega

/-- A token starts before the comment. -/
theorem col_le_of_mem_lineTokens {token : Token} (member : token ∈ lineTokens file line cs)
    : token.pos.col ≤ byteLength (stripComment false cs) := by
  obtain ⟨before, after, split, placed⟩ := place_of_mem_scan member
  rw [placed, split, byteLength_append, Nat.zero_add]
  exact Nat.le_add_right ..

/-- Semicolons and quotes on a line. No token starts behind a semicolon that is in no quoted text,
unless it is behind a quote that nothing closes. A quotation that opens outside comments and quotes
is kept whatever it holds, and is one token.
-/
theorem lineTokens_comments (file : String) (line : Nat) (cs : List Char)
    : (∀ before after,
        cs = before ++ ';' :: after
        → ¬ Unclosed before after
        → (∀ token ∈ lineTokens file line cs, ∀ content,
            token.kind = .text content
            → ¬ token.Covers (byteLength before))
        → ∀ token ∈ lineTokens file line cs, token.pos.col ≤ byteLength before)
      ∧ ∀ before content after,
        cs = before ++ '"' :: (content ++ '"' :: after)
        → '"' ∉ content
        → Bare before
        → before ++ '"' :: (content ++ ['"']) <+: stripComment false cs
          ∧ quotation content ⟨file, line, byteLength before⟩ ∈ lineTokens file line cs := by
  refine ⟨?_, ?_⟩
  · intro before after split closed uncovered token member
    refine (col_le_of_mem_lineTokens member).trans ?_
    subst split
    by_cases uncut : stripComment false before = before
    · by_cases even : Even (before.count '"')
      · rw [stripComment_append uncut, if_pos even]
        exact Nat.le_of_eq (by simp [stripComment])
      · have odd := Nat.not_even_iff_odd.mp even
        have closing : '"' ∈ after := by
          by_contra endless
          exact closed ⟨uncut, odd, endless⟩
        obtain ⟨content, pos, found, covered⟩ := exists_quotation uncut odd closing
        exact absurd covered (uncovered _ found _ rfl)
    · obtain ⟨comment, whole⟩ := isPrefix_stripComment false before
      rw [stripComment_append_of_cut uncut]
      have shorter := congrArg byteLength whole
      rw [byteLength_append] at shorter
      omega
  · intro before content after split inside bare
    subst split
    refine ⟨?_, bare.quotation_mem inside after⟩
    rw [bare.stripComment_eq inside]
    exact ⟨stripComment false after, by simp⟩

/-- A semicolon in a quoted text, and one that starts a comment. -/
def commentedLine : List Char :=
  ".string \"a;b\" ; c".toList

theorem lineTokens_comments_string
    : (∀ token ∈ lineTokens "" 0 commentedLine, token.pos.col ≤ 14)
      ∧ ".string \"a;b\"".toList <+: stripComment false commentedLine
      ∧ quotation "a;b".toList ⟨"", 0, 8⟩ ∈ lineTokens "" 0 commentedLine := by
  have whole := lineTokens_comments "" 0 commentedLine
  have uncovered : ∀ token ∈ lineTokens "" 0 commentedLine, ¬ token.Covers 14 := by
    decide +kernel
  refine ⟨?_, ?_⟩
  · refine whole.1 ".string \"a;b\" ".toList " c".toList rfl ?_ ?_
    · intro unclosed
      exact absurd unclosed.opened (by decide)
    · intro token member _ _
      exact uncovered token member
  · exact whole.2 ".string ".toList "a;b".toList " ; c".toList rfl (by decide) ⟨rfl, by decide⟩

/-- Behind a quote that nothing closes, a semicolon is in no quoted text, and still a token starts
behind it.
-/
theorem lineTokens_unclosed
    : ¬ ∀ before after,
        "\"; x".toList = before ++ ';' :: after
        → (∀ token ∈ lineTokens "" 0 "\"; x".toList, ∀ content,
            token.kind = .text content
            → ¬ token.Covers (byteLength before))
        → ∀ token ∈ lineTokens "" 0 "\"; x".toList, token.pos.col ≤ byteLength before := by
  intro ends
  have found : lineTokens "" 0 "\"; x".toList = [⟨.ident, "x", ⟨"", 0, 3⟩⟩] := by
    decide +kernel
  rw [found] at ends
  have early := ends ['"'] [' ', 'x'] rfl (by simp) _ (.head _)
  exact absurd early (by decide)

end Asm6510.Source
