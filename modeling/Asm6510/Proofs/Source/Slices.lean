import Asm6510.Proofs.Source.Offsets

/-! Tokens as slices of their source. The tokens of a text stand in it one behind the other, each of
them byte for byte, and what they leave out is blank, is a comment, or starts nothing.
-/

namespace Asm6510.Source

open Text

/-- Whether a byte of its line belongs to a token. -/
def Token.Covers (token : Token) (offset : Nat) : Prop :=
  token.pos.col ≤ offset ∧ offset < token.pos.col + byteLength token.text.toList

instance (token : Token) (offset : Nat) : Decidable (token.Covers offset) :=
  inferInstanceAs (Decidable (_ ∧ _))

/-- Whether a token ends before another one starts, on an earlier line or on the same one. -/
def Token.Precedes (first second : Token) : Prop :=
  first.pos.line < second.pos.line
  ∨ first.pos.line = second.pos.line
    ∧ first.pos.col + byteLength first.text.toList ≤ second.pos.col

/-- Tokens that are slices of a source. -/
structure Sliced (file code : String) (tokens : List Token) : Prop where
  /-- They follow each other and do not overlap. -/
  ordered : tokens.Pairwise Token.Precedes
  /-- Each is some text, which the bytes of its line show from its column on. -/
  faithful
    : ∀ token ∈ tokens,
        token.pos.file = file
        ∧ token.text ≠ ""
        ∧ ∃ line,
          (linesOf code)[token.pos.line]? = some line
          ∧ encode token.text <+: (encode line).drop token.pos.col
  /-- A character in none of them is blank, or in the comment, or nothing starts there. -/
  complete
    : ∀ number line before c after,
        (linesOf code)[number]? = some line
        → line.toList = before ++ c :: after
        → (∀ token ∈ tokens, token.pos.line = number → ¬ token.Covers (byteLength before))
        → isBlank c = true
          ∨ (stripComment false line.toList).length ≤ before.length
          ∨ Lexeme.find? ((stripComment false line.toList).drop before.length) = none

-----------------------------------------------------------------------------------------
-- Bytes
-----------------------------------------------------------------------------------------

theorem length_encode (text : String)
    : (encode text).length = byteLength text.toList := by
  rw [encode]
  induction text.toList with
  | nil => rfl
  | cons c cs ih =>
      rw [List.flatMap_cons, List.length_append, String.length_utf8EncodeChar, ih, byteLength_cons]

/-- A text behind some characters starts in the bytes behind their bytes. -/
theorem encode_isPrefix_drop {line text : String} {before after : List Char}
    (split : line.toList = before ++ (text.toList ++ after))
    : encode text <+: (encode line).drop (byteLength before) := by
  have bytes : encode line
      = encode (String.ofList before) ++ (encode text ++ encode (String.ofList after)) := by
    simp [encode, split]
  have front : (encode (String.ofList before)).length = byteLength before := by
    rw [length_encode, String.toList_ofList]
  rw [bytes, List.drop_left' front]
  exact List.prefix_append ..

-----------------------------------------------------------------------------------------
-- Characters in the front of a text, or behind it
-----------------------------------------------------------------------------------------

theorem mem_front_or_behind {front back before after : List Char} {c : Char}
    (split : front ++ back = before ++ c :: after)
    : (∃ more, front = before ++ c :: more)
      ∨ ∃ more, before = front ++ more ∧ back = more ++ c :: after := by
  rcases List.append_eq_append_iff.mp split with behind | ⟨more, rfl, rest⟩
  · exact .inr behind
  · cases more with
    | nil => exact .inr ⟨[], by simp, rest.symm⟩
    | cons _ more =>
        obtain ⟨rfl, -⟩ := List.cons.inj rest
        exact .inl ⟨more, rfl⟩

/-- Only blanks are cut off at the end of a text. -/
theorem trimEnd_append_gap (cs : List Char)
    : ∃ gap, trimEnd cs ++ gap = cs ∧ ∀ c ∈ gap, isBlank c = true := by
  refine ⟨(cs.reverse.takeWhile isBlank).reverse, ?_, ?_⟩
  · rw [trimEnd, ← List.reverse_append, List.takeWhile_append_dropWhile, List.reverse_reverse]
  · intro c member
    exact List.all_eq_true.mp List.all_takeWhile c (List.mem_reverse.mp member)

-----------------------------------------------------------------------------------------
-- Tokens of a line
-----------------------------------------------------------------------------------------

/-- Each token of a line is found behind all that the tokens before it have taken. -/
theorem pairwise_scan (file : String) (line col : Nat) (cs : List Char)
    : (scan file line col cs).Pairwise Token.Precedes := by
  fun_induction scan file line col cs with
  | case1 => exact .nil
  | case2 col c rest blank ih | case4 col c rest ink missing ih => exact ih
  | case3 col c rest ink lexeme found taken ih =>
      refine .cons (fun token member => .inr ?_) ih
      obtain ⟨before, after, -, placed⟩ := place_of_mem_scan member
      obtain ⟨blanks, trimmed⟩ := trimEnd_prefix_self taken
      have shorter := congrArg byteLength trimmed
      rw [byteLength_append] at shorter
      rw [placed, String.toList_ofList]
      refine ⟨rfl, ?_⟩
      change col + byteLength (trimEnd taken) ≤ col + byteLength taken + byteLength before
      omega

/-- A character of a text that no token covers is blank, or nothing starts there. -/
theorem blank_or_find?_eq_none {file : String} {line col : Nat} {cs before after : List Char}
    {c : Char}
    (split : cs = before ++ c :: after)
    (uncovered : ∀ token ∈ scan file line col cs, ¬ token.Covers (col + byteLength before))
    : isBlank c = true ∨ Lexeme.find? (c :: after) = none := by
  fun_induction scan file line col cs generalizing before with
  | case1 => simp at split
  | case2 col first rest blank ih =>
      cases before with
      | nil =>
          obtain ⟨rfl, rfl⟩ := List.cons.inj split
          exact .inl blank
      | cons _ before =>
          obtain ⟨rfl, rfl⟩ := List.cons.inj split
          refine ih rfl ?_
          simpa [Nat.add_assoc] using uncovered
  | case4 col first rest ink missing ih =>
      cases before with
      | nil =>
          obtain ⟨rfl, rfl⟩ := List.cons.inj split
          exact .inr missing
      | cons _ before =>
          obtain ⟨rfl, rfl⟩ := List.cons.inj split
          refine ih rfl ?_
          simpa [Nat.add_assoc] using uncovered
  | case3 col first rest ink lexeme found taken =>
      -- The character is in the token's text, or in the blanks behind it, or in what is left.
      rename_i ih
      obtain ⟨gap, trimmed, blank⟩ := trimEnd_append_gap taken
      have whole : trimEnd taken ++ (gap ++ rest.drop (lexeme.length - 1))
          = before ++ c :: after := by
        rw [← List.append_assoc, trimmed, ← split]
        exact Lexeme.take_append_of_find? found
      rcases mem_front_or_behind whole with ⟨more, inside⟩ | ⟨more, rfl, behind⟩
      · refine absurd ⟨Nat.le_add_right .., ?_⟩ (uncovered _ (.head _))
        have size := c.utf8Size_pos
        have counted := congrArg byteLength inside
        rw [byteLength_append, byteLength_cons] at counted
        rw [String.toList_ofList]
        change col + byteLength before < col + byteLength (trimEnd taken)
        omega
      · rcases mem_front_or_behind behind with ⟨others, inside⟩ | ⟨others, rfl, left⟩
        · exact .inl (blank c (by simp [inside]))
        · refine ih left fun token member => ?_
          have later := uncovered token (.tail _ member)
          rwa [← List.append_assoc, trimmed, byteLength_append, ← Nat.add_assoc] at later

/-- A character of a line that no token covers is blank, or in the comment, or nothing starts
there.
-/
theorem blank_or_comment_or_find?_eq_none {file : String} {number : Nat}
    {line before after : List Char} {c : Char} (split : line = before ++ c :: after)
    (uncovered : ∀ token ∈ lineTokens file number line, ¬ token.Covers (byteLength before))
    : isBlank c = true
      ∨ (stripComment false line).length ≤ before.length
      ∨ Lexeme.find? ((stripComment false line).drop before.length) = none := by
  obtain ⟨comment, whole⟩ := isPrefix_stripComment false line
  rcases mem_front_or_behind (whole.trans split) with ⟨more, inside⟩ | ⟨more, rfl, -⟩
  · rw [← Nat.zero_add (byteLength before)] at uncovered
    rcases blank_or_find?_eq_none inside uncovered with blank | missing
    · exact .inl blank
    · refine .inr (.inr ?_)
      rwa [inside, List.drop_left]
  · refine .inr (.inl ?_)
    rw [List.length_append]
    exact Nat.le_add_right ..

-----------------------------------------------------------------------------------------
-- Tokens of a text
-----------------------------------------------------------------------------------------

/-- Every line has its tokens among those of the text. -/
theorem mem_tokens_of_mem_lineTokens {file code line : String} {number : Nat} {token : Token}
    (listed : (linesOf code)[number]? = some line)
    (member : token ∈ lineTokens file number line.toList)
    : token ∈ tokens file code := by
  rw [linesOf, List.getElem?_map] at listed
  obtain ⟨cs, numbered, rfl⟩ := Option.map_eq_some_iff.mp listed
  rw [String.toList_ofList] at member
  exact List.mem_flatMap.mpr ⟨(cs, number), List.mk_mem_zipIdx_iff_getElem?.mpr numbered, member⟩

theorem pairwise_tokens (file code : String)
    : (tokens file code).Pairwise Token.Precedes := by
  have numbered : ((lines code.toList).zipIdx.map Prod.snd).Pairwise (· < ·) := by
    rw [List.zipIdx_map_snd]
    exact List.pairwise_lt_range' _
  refine List.pairwise_flatMap.mpr ⟨fun line _ => pairwise_scan .., ?_⟩
  refine (List.pairwise_map.mp numbered).imp ?_
  intro first second earlier token member other later
  obtain ⟨_, _, -, placed⟩ := place_of_mem_scan member
  obtain ⟨_, _, -, placedLater⟩ := place_of_mem_scan later
  refine .inl ?_
  rw [placed, placedLater]
  exact earlier

/-- The tokens of a text are slices of it, and every cut of the scan by offsets is between two
characters.
-/
theorem tokens_sliced (file code : String)
    : Offsets.tokens file code = some (tokens file code)
      ∧ Sliced file code (tokens file code) := by
  refine ⟨Offsets.tokens_eq file code, pairwise_tokens file code, ?_, ?_⟩
  · intro token member
    obtain ⟨sameFile, line, before, after, listed, split, counted⟩ := place_of_mem_tokens member
    obtain ⟨c, rest, spelling, -⟩ := (spelt_of_mem_tokens member).1.exists_cons
    refine ⟨sameFile, ?_, line, listed, counted ▸ encode_isPrefix_drop split⟩
    intro empty
    simp [empty] at spelling
  · intro number line before c after listed split uncovered
    have alone : ∀ token ∈ lineTokens file number line.toList,
        ¬ token.Covers (byteLength before) := by
      intro token member
      obtain ⟨_, _, -, placed⟩ := place_of_mem_scan member
      exact uncovered token (mem_tokens_of_mem_lineTokens listed member) (by rw [placed])
    exact blank_or_comment_or_find?_eq_none split alone

end Asm6510.Source
