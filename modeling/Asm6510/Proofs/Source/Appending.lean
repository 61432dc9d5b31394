import Asm6510.Proofs.Source.Unrolling

/-! Text appended on a new line. The tokens of a source stay what they are when more lines follow,
even where the line feed completes the end of a line, and so does its expansion.
-/

namespace Asm6510.Source

open Machine (Shape)
open Operand
open Text

-----------------------------------------------------------------------------------------
-- A blank behind a line
-----------------------------------------------------------------------------------------

variable {blank : Char}

theorem isAlphanumeric_of_isBlank (white : isBlank blank = true)
    : isAlphanumeric blank = false := by
  rw [Bool.eq_false_iff]
  intro plain
  rw [isBlank_of_isAlphanumeric plain] at white
  cases white

/-- A character that ends a run is no part of it. -/
theorem takeWhile_concat {holds : Char → Bool} (stops : holds blank = false) (cs : List Char)
    : (cs ++ [blank]).takeWhile holds = cs.takeWhile holds := by
  induction cs with
  | nil => simp [stops]
  | cons c cs ih => simp [List.takeWhile_cons, ih]

theorem nameLength?_concat (white : isBlank blank = true) (cs : List Char)
    : nameLength? (cs ++ [blank]) = nameLength? cs := by
  have stops := isAlphanumeric_of_isBlank white
  have same : ((cs ++ [blank]).take nameLimit).takeWhile isAlphanumeric
      = (cs.take nameLimit).takeWhile isAlphanumeric := by
    by_cases short : cs.length < nameLimit
    · have whole : (cs ++ [blank]).length ≤ nameLimit := by simpa using Nat.succ_le_of_lt short
      rw [List.take_of_length_le whole, List.take_of_length_le (Nat.le_of_lt short),
        takeWhile_concat stops]
    · rw [List.take_append_of_le_length (by omega)]
  rw [nameLength?, nameLength?, same]

theorem length_le_of_nameLength? {cs : List Char} {length : Nat}
    (found : nameLength? cs = some length)
    : length ≤ cs.length := by
  obtain ⟨name, rest, rfl, -, rfl⟩ := nameLength?_eq_some found
  simp

/-- A blank behind a text lies behind whatever the text starts with, unless that has blanks. -/
theorem exists_of_concat_eq (white : isBlank blank = true) {fixed cs rest : List Char}
    (ink : ∀ c ∈ fixed, isBlank c = false) (split : cs ++ [blank] = fixed ++ rest)
    : ∃ front, rest = front ++ [blank] ∧ cs = fixed ++ front := by
  rcases List.eq_nil_or_concat' rest with rfl | ⟨front, last, rfl⟩
  · have member : blank ∈ fixed := by
      rw [List.append_nil] at split
      simp [← split]
    rw [ink blank member] at white
    cases white
  · rw [← List.append_assoc] at split
    obtain ⟨same, ended⟩ := List.append_inj' split rfl
    exact ⟨front, by rw [ended], same⟩

namespace Lexeme

variable {cs : List Char}

theorem directive?_concat (white : isBlank blank = true) (cs : List Char)
    : directive? (cs ++ [blank]) = directive? cs := by
  unfold directive?
  congr 1
  funext directive
  have inked : (directive.keyword.toList.all fun c => !isBlank c) = true := by
    cases directive <;> decide
  have ink : ∀ c ∈ directive.keyword.toList, isBlank c = false := by
    simpa only [List.all_eq_true, Bool.not_eq_true'] using inked
  have opened : directive.keyword.toList.isPrefixOf? (cs ++ [blank])
      = (directive.keyword.toList.isPrefixOf? cs).map (· ++ [blank]) := by
    apply Option.ext
    intro rest
    simp only [List.isPrefixOf?_eq_some_iff_append_eq, Option.map_eq_some_iff]
    constructor
    · intro split
      obtain ⟨front, rfl, rfl⟩ := exists_of_concat_eq white ink split.symm
      exact ⟨front, rfl, rfl⟩
    · rintro ⟨front, rfl, rfl⟩
      simp
  rw [opened]
  cases directive.keyword.toList.isPrefixOf? cs with
  | none => rfl
  | some rest =>
      cases rest with
      | nil => simp [isAlphanumeric_of_isBlank white]
      | cons c rest => rfl

theorem quoted?_concat (white : isBlank blank = true) (cs : List Char)
    : quoted? (cs ++ [blank]) = quoted? cs := by
  have other : blank ≠ '"' := by
    rintro rfl
    exact absurd white (by decide)
  cases cs with
  | nil => exact quoted?_eq_none other
  | cons c body =>
      by_cases quote : c = '"'
      · subst quote
        have counted : (body.takeWhile (· != '"')).length ≤ body.length :=
          (List.takeWhile_prefix _).length_le
        simp only [quoted?, List.cons_append, List.takeWhile_append, List.takeWhile_cons,
          List.takeWhile_nil, List.length_append]
        by_cases whole : (body.takeWhile (· != '"')).length = body.length
        · simp [whole, other]
        · have closed : (body.takeWhile (· != '"')).length < body.length := by omega
          simp [whole, closed, Nat.lt_succ_of_lt closed]
      · rw [List.cons_append, quoted?_eq_none quote, quoted?_eq_none quote]

/-- The blanks that follow an assignment are taken with it, so that the form grows by a blank
where it takes all of the text.
-/
theorem assignment?_concat (white : isBlank blank = true) (cs : List Char)
    : assignment? (cs ++ [blank]) = assignment? cs
      ∨ ∃ lexeme,
          assignment? cs = some lexeme
          ∧ lexeme.length = cs.length
          ∧ assignment? (cs ++ [blank]) = some { lexeme with length := lexeme.length + 1 } := by
  unfold assignment?
  rw [nameLength?_concat white]
  cases found : nameLength? cs with
  | none => exact .inl rfl
  | some name =>
      have short := length_le_of_nameLength? found
      have counted : (cs.drop name).length = cs.length - name := List.length_drop
      simp only [Option.bind_eq_bind, Option.bind_some, List.drop_append_of_le_length short,
        List.take_append_of_le_length short]
      generalize cs.drop name = after at counted ⊢
      have around := List.takeWhile_append_dropWhile (p := isBlank) (l := after)
      cases left : after.dropWhile isBlank with
      | nil => simp [List.dropWhile_append, left, white]
      | cons c rest =>
          rw [left] at around
          have gap : (after ++ [blank]).takeWhile isBlank = after.takeWhile isBlank := by
            rw [List.takeWhile_append, if_neg]
            intro whole
            have length := congrArg List.length around
            simp only [List.length_append, List.length_cons] at length
            omega
          have kept : (after ++ [blank]).dropWhile isBlank = c :: (rest ++ [blank]) := by
            rw [List.dropWhile_append, left]
            rfl
          rw [kept, gap]
          by_cases equals : c = '='
          · subst equals
            by_cases whole : (rest.takeWhile isBlank).length = rest.length
            · refine .inr ⟨_, rfl, ?_, ?_⟩
              · have length := congrArg List.length around
                simp only [List.length_append, List.length_cons] at length
                simp only [whole]
                omega
              · simp [List.takeWhile_append, whole, white, Nat.add_assoc]
            · refine .inl ?_
              simp [List.takeWhile_append, whole]
          · refine .inl ?_
            simp [equals]

theorem label?_concat (white : isBlank blank = true) (cs : List Char)
    : label? (cs ++ [blank]) = label? cs := by
  have other : blank ≠ ':' := by
    rintro rfl
    exact absurd white (by decide)
  unfold label?
  rw [nameLength?_concat white]
  cases found : nameLength? cs with
  | none => rfl
  | some name =>
      have short := length_le_of_nameLength? found
      simp only [Option.bind_eq_bind, Option.bind_some, List.drop_append_of_le_length short,
        List.take_append_of_le_length short]
      cases cs.drop name with
      | nil => simp [other]
      | cons c rest =>
          by_cases colon : c = ':'
          · subst colon
            rfl
          · simp [colon]

theorem mark?_concat (white : isBlank blank = true) (cs : List Char)
    : Part.mark? (cs ++ [blank]) = Part.mark? cs := by
  cases cs with
  | nil =>
      cases marked : Part.mark? [blank] with
      | none => exact marked
      | some part =>
          rcases mark?_eq_some marked with rfl | rfl
          · exact absurd white (by decide)
          · exact absurd white (by decide)
  | cons c cs =>
      unfold Part.mark?
      split <;> split <;> simp_all

theorem ident?_concat (white : isBlank blank = true) (cs : List Char)
    : ident? (cs ++ [blank]) = ident? cs := by
  unfold ident?
  rw [mark?_concat white]
  cases marked : Part.mark? cs with
  | none => simp only [Option.isSome_none, Bool.false_eq_true, if_false, List.drop_zero,
      nameLength?_concat white]
  | some part =>
      have nonempty : 1 ≤ cs.length := by
        cases cs with
        | nil => cases marked
        | cons c cs => simp
      simp only [Option.isSome_some, if_true, List.drop_append_of_le_length nonempty,
        nameLength?_concat white]

theorem literal?_concat (white : isBlank blank = true) (cs : List Char)
    : literal? (cs ++ [blank]) = literal? cs := by
  unfold literal?
  congr 1
  funext mode
  cases shaped : mode.shape? with
  | none => rfl
  | some shape =>
      have found : (shape.read? (cs ++ [blank])).isSome = (shape.read? cs).isSome := by
        rw [Bool.eq_iff_iff, Option.isSome_iff_exists, Option.isSome_iff_exists]
        constructor
        · rintro ⟨⟨digits, rest⟩, read⟩
          obtain ⟨split, counted, valid⟩ := Shape.read?_eq_some_iff.mp read
          have ink := forall_mem_literal (fun c => !isBlank c)
            (fun c plain => by simp [isBlank_of_isAlphanumeric plain]) (by decide) shaped valid
          have split : cs ++ [blank]
              = (shape.opening.toList ++ (digits ++ shape.closing.toList)) ++ rest := by
            simpa using split
          obtain ⟨front, rfl, rfl⟩ :=
            exists_of_concat_eq white (fun c member => by simpa using ink c member) split
          exact ⟨(digits, front), Shape.read?_eq_some_iff.mpr ⟨by simp, counted, valid⟩⟩
        · rintro ⟨⟨digits, rest⟩, read⟩
          obtain ⟨rfl, counted, valid⟩ := Shape.read?_eq_some_iff.mp read
          exact ⟨(digits, rest ++ [blank]),
            Shape.read?_eq_some_iff.mpr ⟨by simp, counted, valid⟩⟩
      simp only [Option.bind_eq_bind, Option.bind_some]
      generalize shape.read? (cs ++ [blank]) = longer at found ⊢
      generalize shape.read? cs = shorter at found ⊢
      cases longer <;> cases shorter <;> first | rfl | cases found

/-- A blank behind a text is of no use to any form but an assignment, which takes it along. -/
theorem find?_concat (white : isBlank blank = true) (cs : List Char)
    : find? (cs ++ [blank]) = find? cs
      ∨ ∃ lexeme,
          find? cs = some lexeme
          ∧ lexeme.length = cs.length
          ∧ find? (cs ++ [blank]) = some { lexeme with length := lexeme.length + 1 } := by
  simp only [find?, directive?_concat white, quoted?_concat white, label?_concat white,
    ident?_concat white, literal?_concat white]
  cases directive? cs with
  | some lexeme => exact .inl rfl
  | none =>
      cases quoted? cs with
      | some lexeme => exact .inl rfl
      | none =>
          rcases assignment?_concat white cs with same | ⟨lexeme, found, whole, longer⟩
          · rw [same]
            exact .inl rfl
          · rw [found, longer]
            exact .inr ⟨lexeme, rfl, whole, rfl⟩

end Lexeme

/-- A blank behind a line adds no token to it and changes none. -/
theorem scan_concat (white : isBlank blank = true) (file : String) (line col : Nat)
    (cs : List Char)
    : scan file line col (cs ++ [blank]) = scan file line col cs := by
  fun_induction scan file line col cs with
  | case1 => simp [scan, white]
  | case2 col c rest space ih => rw [List.cons_append, scan, if_pos space, ih]
  | case3 col c rest ink lexeme found taken ih =>
      have short : lexeme.length ≤ (c :: rest).length := by
        obtain ⟨spelling, gap, after, split, -, -, length⟩ := Lexeme.leads_of_find? found
        rw [split, length]
        simp only [List.length_append]
        omega
      rw [List.cons_append, scan, if_neg ink]
      rcases Lexeme.find?_concat white (c :: rest) with same | ⟨other, found', whole, longer⟩
      · rw [List.cons_append] at same
        have taken' : (c :: (rest ++ [blank])).take lexeme.length = taken :=
          List.take_append_of_le_length short
        have left : (rest ++ [blank]).drop (lexeme.length - 1)
            = rest.drop (lexeme.length - 1) ++ [blank] := by
          apply List.drop_append_of_le_length
          rw [List.length_cons] at short
          omega
        simp only [same, found, taken', left, ih]
      · -- The assignment takes the whole line, and now the blank as well.
        obtain rfl : lexeme = other := Option.some.inj (found.symm.trans found')
        rw [List.cons_append] at longer
        have taken' : (c :: (rest ++ [blank])).take (lexeme.length + 1) = taken ++ [blank] := by
          rw [whole, List.take_of_length_le (by simp)]
          simp [taken, whole]
        have left : rest.drop (lexeme.length - 1) = [] := by simp [whole]
        have left' : (rest ++ [blank]).drop (lexeme.length + 1 - 1) = [] := by simp [whole]
        have trimmed : trimEnd (taken ++ [blank]) = trimEnd taken :=
          trimEnd_append_blanks taken (by simpa using white)
        simp only [longer, taken', trimmed, left, left', scan]
  | case4 col c rest ink missing ih =>
      rw [List.cons_append, scan, if_neg ink]
      rcases Lexeme.find?_concat white (c :: rest) with same | ⟨other, found', -, -⟩
      · rw [List.cons_append] at same
        rw [same, missing]
        exact ih
      · rw [missing] at found'
        cases found'

theorem stripComment_concat {c : Char} (other : c ≠ ';') (quoted : Bool) (cs : List Char)
    : stripComment quoted (cs ++ [c]) = stripComment quoted cs
      ∨ stripComment quoted (cs ++ [c]) = stripComment quoted cs ++ [c] := by
  induction cs generalizing quoted with
  | nil => simp [stripComment, other]
  | cons d cs ih =>
      simp only [List.cons_append, stripComment]
      split
      · exact .inl rfl
      · rcases ih (if d = '"' then !quoted else quoted) with same | longer
        · exact .inl (by rw [same])
        · exact .inr (by rw [longer, List.cons_append])

/-- A carriage return at the end of a line makes no difference to its tokens. -/
theorem lineTokens_concat_return (file : String) (line : Nat) (cs : List Char)
    : lineTokens file line (cs ++ ['\r']) = lineTokens file line cs := by
  unfold lineTokens
  have other : '\r' ≠ ';' := by decide
  rcases stripComment_concat other false cs with same | longer
  · rw [same]
  · rw [longer, scan_concat (by decide)]

-----------------------------------------------------------------------------------------
-- Lines behind a text
-----------------------------------------------------------------------------------------

/-- A character that ends no line belongs to the first, also when a line feed follows later. -/
theorem lines_cons_feed {c : Char} {rest : List Char} (notFeed : c ≠ '\n')
    (notReturn : ∀ more, c = '\r' → rest ≠ '\n' :: more) (inner : ¬ (c = '\r' ∧ rest = []))
    (more : List Char)
    : lines (c :: (rest ++ '\n' :: more)) = consLine c (lines (rest ++ '\n' :: more)) := by
  rw [lines]
  · exact fun same => notFeed same
  · rintro others rfl split
    cases rest with
    | nil => exact inner ⟨rfl, rfl⟩
    | cons d rest =>
        obtain ⟨rfl, -⟩ := List.cons.inj split
        exact notReturn rest rfl rfl

/-- What a line feed does to the last line of a text: it ends the line, takes a carriage return
off it, or ends an empty line of its own.
-/
theorem lines_concat_feed (cs : List Char)
    : ∃ front last,
        lines (cs ++ ['\n']) = front ++ [last]
        ∧ (lines cs = front ∧ last = []
          ∨ lines cs = front ++ [last]
          ∨ lines cs = front ++ [last ++ ['\r']]) := by
  fun_induction lines cs with
  | case1 => exact ⟨[], [], rfl, .inl ⟨rfl, rfl⟩⟩
  | case2 rest ih | case3 rest ih =>
      obtain ⟨front, last, ended, before⟩ := ih
      refine ⟨[] :: front, last, by simp [lines, ended], ?_⟩
      simpa using before
  | case4 c rest notFeed notReturn ih =>
      by_cases lone : c = '\r' ∧ rest = []
      · obtain ⟨rfl, rfl⟩ := lone
        exact ⟨[], [], rfl, .inr (.inr rfl)⟩
      · obtain ⟨front, last, ended, before⟩ := ih
        rw [List.cons_append, lines_cons_feed notFeed notReturn lone, ended]
        -- The character goes to the first line, which is the last one if it is the only one.
        cases front with
        | nil =>
            refine ⟨[], c :: last, rfl, ?_⟩
            rcases before with ⟨same, rfl⟩ | same | same
            · exact .inr (.inl (by rw [same]; rfl))
            · exact .inr (.inl (by rw [same]; rfl))
            · exact .inr (.inr (by rw [same]; rfl))
        | cons first front =>
            refine ⟨(c :: first) :: front, last, rfl, ?_⟩
            rcases before with ⟨same, rfl⟩ | same | same
            · exact .inl ⟨by rw [same]; rfl, rfl⟩
            · exact .inr (.inl (by rw [same]; rfl))
            · exact .inr (.inr (by rw [same]; rfl))

/-- A line feed separates the lines before it from those behind it. -/
theorem lines_append_feed (cs ds : List Char)
    : lines (cs ++ '\n' :: ds) = lines (cs ++ ['\n']) ++ lines ds := by
  fun_induction lines cs with
  | case1 => rfl
  | case2 rest ih | case3 rest ih => simp [lines, ih]
  | case4 c rest notFeed notReturn ih =>
      by_cases lone : c = '\r' ∧ rest = []
      · obtain ⟨rfl, rfl⟩ := lone
        rfl
      · obtain ⟨front, last, ended, -⟩ := lines_concat_feed rest
        rw [List.cons_append, List.cons_append, lines_cons_feed notFeed notReturn lone,
          lines_cons_feed notFeed notReturn lone, ih, ended]
        cases front <;> rfl

theorem tokens_eq (file code : String)
    : tokens file code
      = (lines code.toList).zipIdx.flatMap
          fun numbered => lineTokens file numbered.2 numbered.1 :=
  rfl

/-- The tokens of a text come first among those of the text with more lines behind it. -/
theorem tokens_prefix_append (file first second : String)
    : tokens file first <+: tokens file (first ++ "\n" ++ second) := by
  obtain ⟨front, last, ended, before⟩ := lines_concat_feed first.toList
  have longer : lines (first ++ "\n" ++ second).toList
      = front ++ ([last] ++ lines second.toList) := by
    have spelt : (first ++ "\n" ++ second).toList = first.toList ++ '\n' :: second.toList := by
      simp
    rw [spelt, lines_append_feed, ended, List.append_assoc]
  have shorter : tokens file first
      = front.zipIdx.flatMap (fun numbered => lineTokens file numbered.2 numbered.1)
        ++ lineTokens file front.length last := by
    rw [tokens_eq]
    rcases before with ⟨same, rfl⟩ | same | same
    · rw [same]
      simp [lineTokens, stripComment, scan]
    · rw [same, List.zipIdx_append]
      simp
    · rw [same, List.zipIdx_append]
      simp [lineTokens_concat_return]
  rw [shorter, tokens_eq, longer, List.zipIdx_append, List.flatMap_append, List.zipIdx_append,
    List.flatMap_append, ← List.append_assoc]
  refine List.IsPrefix.trans ?_ (List.prefix_append _ _)
  simp

-----------------------------------------------------------------------------------------
-- Expansions of longer texts
-----------------------------------------------------------------------------------------

namespace Expansion

variable {library : Library} {root : Path} {closed others : List String} {front : List Token}
  {sources : Sources} {result : List Token}

/-- Tokens put in front of an expansion of more tokens. -/
theorem prepend_prepend (first second : List Token) (rest : Expansion)
    : prepend first (prepend second rest) = prepend (first ++ second) rest := by
  obtain ⟨sources, outcome⟩ := rest
  cases outcome with
  | error fault => rfl
  | ok tokens => simp [prepend, Except.map]

/-- A token that neither includes a file nor sets the origin is kept. -/
theorem splice_kept
    {expandFile : (name : String) → name ∈ closed → String → Sources → Expansion} {token : Token}
    {rest : List Token}
    (notInclude : ∀ text pos, token ≠ ⟨.directive .includeFile, text, pos⟩)
    (notOrigin : ∀ text pos, token ≠ ⟨.directive .org, text, pos⟩)
    : splice library root closed expandFile (token :: rest) sources
      = prepend [token] (splice library root closed expandFile rest sources) := by
  rw [splice]
  · exact fun text pos name quotation place others same _ => notInclude text pos same
  · exact notInclude
  · exact notOrigin

/-- Tokens that can be spliced are spliced alike when others follow. -/
theorem splice_append
    {expandFile : (name : String) → name ∈ closed → String → Sources → Expansion}
    (spliced : (splice library root closed expandFile front sources).outcome = .ok result)
    (back : List Token)
    : ∃ after,
        splice library root closed expandFile (front ++ back) sources
          = prepend result (splice library root closed expandFile back after) := by
  fun_induction splice library root closed expandFile front sources generalizing result with
  | case1 sources =>
      obtain rfl := Except.ok.inj spliced
      refine ⟨sources, ?_⟩
      simp only [List.nil_append]
      cases splice library root closed expandFile back sources with
      | mk sources outcome => cases outcome <;> simp [prepend, Except.map]
  | case3 text pos name quoted place rest sources code loaded openable included front found =>
      rename_i ih
      obtain ⟨tail, remaining, rfl⟩ := prepend_eq_ok spliced
      obtain ⟨after, same⟩ := ih remaining
      refine ⟨after, ?_⟩
      have found : (expandFile name openable code sources).outcome = .ok front := found
      simp only [List.cons_append, splice, loaded, openable, dite_true, found]
      rw [same, prepend_prepend]
  | case9 text pos sources operand rest word ih =>
      obtain ⟨tail, remaining, rfl⟩ := prepend_eq_ok spliced
      obtain ⟨after, same⟩ := ih remaining
      refine ⟨after, ?_⟩
      rw [List.cons_append, List.cons_append, splice, if_pos word, same, prepend_prepend]
  | case11 token rest sources included notInclude notOrigin ih =>
      obtain ⟨tail, remaining, rfl⟩ := prepend_eq_ok spliced
      obtain ⟨after, same⟩ := ih remaining
      refine ⟨after, ?_⟩
      rw [List.cons_append, splice_kept notInclude notOrigin, same, prepend_prepend]
  | case2 | case4 | case5 | case6 | case7 | case8 | case10 => simp [fail] at spliced

/-- What can be spliced while few names can be opened is spliced alike while more can, whatever
was read before.
-/
theorem splice_widen
    {expandFile : (name : String) → name ∈ closed → String → Sources → Expansion}
    {expandFile' : (name : String) → name ∈ others → String → Sources → Expansion}
    (wider : ∀ name ∈ closed, name ∈ others)
    (opening
      : ∀ name member code before before' opened,
          (expandFile name member code before).outcome = .ok opened
          → (expandFile' name (wider name member) code before').outcome = .ok opened)
    (spliced : (splice library root closed expandFile front sources).outcome = .ok result)
    (sources' : Sources)
    : (splice library root others expandFile' front sources').outcome = .ok result := by
  fun_induction splice library root closed expandFile front sources
    generalizing result sources' with
  | case1 sources => exact spliced
  | case3 text pos name quoted place rest sources code loaded openable included front found =>
      rename_i ih
      obtain ⟨tail, remaining, rfl⟩ := prepend_eq_ok spliced
      have opened := opening _ _ _ _ sources' _ found
      simp only [splice, loaded, wider name openable, dite_true, opened, prepend, ih remaining]
      rfl
  | case9 text pos sources operand rest word ih =>
      obtain ⟨tail, remaining, rfl⟩ := prepend_eq_ok spliced
      rw [splice, if_pos word, prepend, ih remaining]
      rfl
  | case11 token rest sources included notInclude notOrigin ih =>
      obtain ⟨tail, remaining, rfl⟩ := prepend_eq_ok spliced
      rw [splice_kept notInclude notOrigin, prepend, ih remaining]
      rfl
  | case2 | case4 | case5 | case6 | case7 | case8 | case10 => simp [fail] at spliced

theorem without_subset (wider : ∀ name ∈ closed, name ∈ others) (opened : String)
    : ∀ name ∈ without closed opened, name ∈ without others opened := by
  intro name listed
  obtain ⟨member, different⟩ := mem_without.mp listed
  exact mem_without.mpr ⟨wider name member, different⟩

/-- A file that can be expanded is expanded alike while more names can be opened.
Witness: induction on the number of names that can be opened.
-/
theorem expandFile_widen (wider : ∀ name ∈ closed, name ∈ others) {file code : String}
    (expanded : (expandFile library root closed file code sources).outcome = .ok result)
    (sources' : Sources)
    : (expandFile library root others file code sources').outcome = .ok result := by
  induction count : closed.length using Nat.strongRecOn
    generalizing closed others file code sources sources' result with
  | ind count ih =>
      subst count
      rw [expandFile] at expanded ⊢
      refine splice_widen wider ?_ expanded _
      intro name member code before before' opened found
      exact ih _ (length_without_lt member) (without_subset wider name) found before' rfl

end Expansion

/-- The expansion of a text comes first in the expansion of the text with more lines behind it. -/
theorem expand_prefix_append {library : Library} {root : Path} {file first second : String}
    {earlier whole : List Token}
    (expanded : (expand library root file first).outcome = .ok earlier)
    (longer : (expand library root file (first ++ "\n" ++ second)).outcome = .ok whole)
    : earlier <+: whole := by
  have wider : ∀ name ∈ includable library first,
      name ∈ includable library (first ++ "\n" ++ second) := by
    intro name listed
    obtain ⟨code, loaded, quoted⟩ := List.mem_flatMap.mp listed
    rcases List.mem_cons.mp loaded with rfl | loaded
    · have quoted := ((tokens_prefix_append "" code second).filterMap _).subset quoted
      exact List.mem_flatMap.mpr ⟨_, List.mem_cons_self, quoted⟩
    · exact List.mem_flatMap.mpr ⟨code, List.mem_cons_of_mem _ loaded, quoted⟩
  have wider := Expansion.without_subset wider file
  obtain ⟨back, split⟩ := tokens_prefix_append file first second
  rw [expand, Expansion.expandFile] at expanded
  rw [expand, Expansion.expandFile, ← split] at longer
  -- Opening more names changes nothing for the first text, whose tokens come first.
  have widened : (Expansion.splice library root _
      (fun name _ code before =>
        Expansion.expandFile library root (Expansion.without _ name) name code before)
      (tokens file first) (Sources.empty.record file (first ++ "\n" ++ second))).outcome
        = .ok earlier :=
    Expansion.splice_widen wider
      (fun name member code before before' opened found =>
        Expansion.expandFile_widen (Expansion.without_subset wider name) found before')
      expanded _
  obtain ⟨after, same⟩ := Expansion.splice_append widened back
  rw [same] at longer
  obtain ⟨later, -, rfl⟩ := Expansion.prepend_eq_ok longer
  exact List.prefix_append _ _

end Asm6510.Source
