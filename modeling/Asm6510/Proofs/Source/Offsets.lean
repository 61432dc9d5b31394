import Asm6510.Proofs.Source.Places
import Mathlib.Data.List.TakeWhile

/-! Scanning by offsets. Here a text is cut at bytes that are counted or found in it, and a cut
inside a character, or behind the end of the text, is no cut. Every cut that a scan makes is one
between two characters, and the scan ends with the tokens of the text.
-/

namespace Asm6510.Source.Offsets

open Machine (Mode Shape)
open Operand (nameLength? Part)
open Text

/-- The text before a byte and the text from it on, if a character starts there or the text ends. -/
def cut? : Nat → List Char → Option (List Char × List Char)
  | 0, cs => some ([], cs)
  | _ + 1, [] => none
  | offset + 1, c :: rest =>
      if c.utf8Size ≤ offset + 1 then
        (cut? (offset + 1 - c.utf8Size) rest).map fun (front, back) => (c :: front, back)
      else
        none

/-- The byte where a character stands for the first time. -/
def offsetOf? (wanted : Char) : List Char → Option Nat
  | [] => none
  | c :: rest => if c = wanted then some 0 else (offsetOf? wanted rest).map (c.utf8Size + ·)

/-- A token's form found at the start of a text: the bytes it takes, and its kind. -/
structure Span where
  bytes : Nat
  kind : Kind

-----------------------------------------------------------------------------------------
-- The forms in bytes. One that cuts its text answers nothing if there is no such cut
-----------------------------------------------------------------------------------------

/-- A keyword that no letter or digit continues. -/
def directive? (cs : List Char) : Option Span :=
  Directive.all.findSome? fun directive =>
    match directive.keyword.toList.isPrefixOf? cs with
    | some rest =>
        if rest.head?.any isAlphanumeric then none
        else some ⟨byteLength directive.keyword.toList, .directive directive⟩
    | none => none

/-- Text up to the next quote. -/
def quoted? : List Char → Option (Option Span)
  | '"' :: body =>
      match offsetOf? '"' body with
      | none => some none
      | some stop => do
          let (content, _) ← cut? stop body
          return some ⟨stop + 2, .text (String.ofList content)⟩
  | _ => some none

/-- A name and an equals sign. The name is cut off behind as many bytes as it has characters, and
the blanks are what the text is longer by than without them.
-/
def assignment? (cs : List Char) : Option (Option Span) :=
  match nameLength? cs with
  | none => some none
  | some length => do
      let (name, after) ← cut? length cs
      let spaced := byteLength after - byteLength (after.dropWhile isBlank)
      match after.dropWhile isBlank with
      | '=' :: rest =>
          let trailing := byteLength rest - byteLength (rest.dropWhile isBlank)
          return some ⟨length + spaced + 1 + trailing, .assignment (String.ofList name)⟩
      | _ => return none

/-- A name with a colon right after it. -/
def label? (cs : List Char) : Option (Option Span) :=
  match nameLength? cs with
  | none => some none
  | some length => do
      let (name, after) ← cut? length cs
      match after with
      | ':' :: _ => return some ⟨length + 1, .label (String.ofList name)⟩
      | _ => return none

/-- A name, behind the mark if there is one. -/
def ident? (cs : List Char) : Option (Option Span) := do
  let mark := if (Part.mark? cs).isSome then 1 else 0
  let (_, rest) ← cut? mark cs
  return (nameLength? rest).map fun length => ⟨mark + length, .ident⟩

/-- A literal of a shape. A text that cannot be cut behind the digits has no such literal. -/
def literalOf? (shape : Shape) (cs : List Char) : Option Nat := do
  let body ← shape.opening.toList.isPrefixOf? cs
  let (digits, rest) ← cut? shape.digits body
  if digits.all Hex.isDigit then
    let _ ← shape.closing.toList.isPrefixOf? rest
    return shape.byteLength
  else
    none

/-- A literal operand. -/
def literal? (cs : List Char) : Option Span :=
  Lexeme.literalModes.findSome? fun mode => do
    let shape ← mode.shape?
    let bytes ← literalOf? shape cs
    return ⟨bytes, .operand mode⟩

/-- The first of several answers that has a form, if no answer before it fails. -/
def first : List (Option (Option Span)) → Option (Option Span)
  | [] => some none
  | none :: _ => none
  | some none :: rest => first rest
  | some (some span) :: _ => some (some span)

/-- The token's form at the start of a text. -/
def find? (cs : List Char) : Option (Option Span) :=
  first [some (directive? cs), quoted? cs, assignment? cs, label? cs, ident? cs, some (literal? cs)]

-----------------------------------------------------------------------------------------
-- Lines and sources
-----------------------------------------------------------------------------------------

/-- The byte where the comment of a line starts, counted on from `offset`. -/
def comment? (quoted : Bool) (offset : Nat) : List Char → Option Nat
  | [] => none
  | c :: rest =>
      if c = ';' && !quoted then some offset
      else comment? (if c = '"' then !quoted else quoted) (offset + c.utf8Size) rest

/-- A line up to its comment. -/
def strip (cs : List Char) : Option (List Char) :=
  match comment? false 0 cs with
  | some offset => (cut? offset cs).map (·.1)
  | none => some cs

/-- The tokens of a line from a byte on, if every cut is one and no more than `rounds` rounds are
needed.
-/
def scan (file : String) (line : Nat) (cs : List Char) : (rounds offset : Nat) → Option (List Token)
  | 0, _ => none
  | rounds + 1, offset => do
      let (_, left) ← cut? offset cs
      match left with
      | [] => return []
      | c :: _ =>
          if isBlank c then
            scan file line cs rounds (offset + c.utf8Size)
          else
            match ← find? left with
            | some span =>
                let (taken, _) ← cut? span.bytes left
                let tokens ← scan file line cs rounds (offset + span.bytes)
                return ⟨span.kind, String.ofList (trimEnd taken), ⟨file, line, offset⟩⟩ :: tokens
            | none => scan file line cs rounds (offset + c.utf8Size)

/-- The tokens of a line. Every round takes a byte at least. -/
def lineTokens (file : String) (line : Nat) (cs : List Char) : Option (List Token) := do
  let stripped ← strip cs
  scan file line stripped (byteLength stripped + 1) 0

/-- The tokens of a source text. -/
def tokens (file code : String) : Option (List Token) := do
  let found ← (lines code.toList).zipIdx.mapM fun (cs, line) => lineTokens file line cs
  return found.flatten

-----------------------------------------------------------------------------------------
-- Cuts between characters
-----------------------------------------------------------------------------------------

/-- A cut behind as many bytes as the front has is one between the characters. -/
theorem cut?_append (front back : List Char)
    : cut? (byteLength front) (front ++ back) = some (front, back) := by
  induction front with
  | nil => simp [cut?]
  | cons c front ih =>
      obtain ⟨size, counted⟩ := Nat.exists_eq_add_of_lt c.utf8Size_pos
      have length : byteLength (c :: front) = (size + byteLength front) + 1 := by
        rw [byteLength_cons]
        omega
      have left : size + byteLength front + 1 - c.utf8Size = byteLength front := by omega
      rw [length, List.cons_append, cut?, if_pos (by omega), left, ih]
      rfl

theorem eq_append_of_cut? {offset : Nat} {cs front back : List Char}
    (found : cut? offset cs = some (front, back))
    : cs = front ++ back ∧ byteLength front = offset := by
  fun_induction cut? offset cs generalizing front with
  | case1 cs =>
      obtain ⟨rfl, rfl⟩ := Prod.mk.inj (Option.some.inj found)
      exact ⟨rfl, rfl⟩
  | case2 => cases found
  | case3 offset c rest fits ih =>
      obtain ⟨⟨tail, _⟩, cutting, same⟩ := Option.map_eq_some_iff.mp found
      obtain ⟨rfl, rfl⟩ := Prod.mk.inj same
      obtain ⟨rfl, counted⟩ := ih cutting
      refine ⟨rfl, ?_⟩
      rw [byteLength_cons, counted]
      omega
  | case4 => cases found

example : cut? 1 ['é', 'a'] = none := by decide

/-- Characters of one byte each. -/
theorem byteLength_of_narrow {cs : List Char} (narrow : ∀ c ∈ cs, c.utf8Size = 1)
    : byteLength cs = cs.length := by
  induction cs with
  | nil => rfl
  | cons c cs ih =>
      rw [byteLength_cons, narrow c (.head _), ih fun c member => narrow c (.tail _ member),
        List.length_cons, Nat.add_comm]

theorem utf8Size_of_isAlphanumeric {c : Char} (plain : isAlphanumeric c = true)
    : c.utf8Size = 1 := by
  refine Char.utf8Size_eq_one_iff.mpr ?_
  have narrow : c.toNat ≤ 127 := by
    have := isAlphanumeric_iff.mp plain
    omega
  exact narrow

theorem byteLength_of_isName {name : List Char} (named : IsName name)
    : byteLength name = name.length :=
  byteLength_of_narrow fun c member => utf8Size_of_isAlphanumeric (named.plain c member)

theorem byteLength_of_isDigit {digits : List Char} (valid : digits.all Hex.isDigit = true)
    : byteLength digits = digits.length := by
  refine byteLength_of_narrow fun c member => ?_
  exact utf8Size_of_isAlphanumeric (isAlphanumeric_of_isDigit (List.all_eq_true.mp valid c member))

/-- What a text is longer by than without the blanks in front of it are those blanks. -/
theorem byteLength_sub_dropWhile (cs : List Char)
    : byteLength cs - byteLength (cs.dropWhile isBlank) = byteLength (cs.takeWhile isBlank) := by
  have around := congrArg byteLength (List.takeWhile_append_dropWhile (p := isBlank) (l := cs))
  rw [byteLength_append] at around
  omega

theorem byteLength_toList (text : String)
    : byteLength text.toList = text.utf8ByteSize := by
  have measured (cs : List Char) : (String.ofList cs).utf8ByteSize = byteLength cs := by
    induction cs with
    | nil => rfl
    | cons c cs ih =>
        have split : String.ofList (c :: cs) = String.singleton c ++ String.ofList cs := by
          rw [String.singleton_eq_ofList, ← String.ofList_append]
          rfl
        rw [split, String.utf8ByteSize_append, String.utf8ByteSize_singleton, ih, byteLength_cons]
  rw [← measured, String.ofList_toList]

theorem offsetOf?_append {wanted : Char} {cs : List Char} (missing : wanted ∉ cs)
    (rest : List Char)
    : offsetOf? wanted (cs ++ wanted :: rest) = some (byteLength cs) := by
  induction cs with
  | nil => simp [offsetOf?]
  | cons c cs ih =>
      obtain ⟨other, missing⟩ := not_or.mp (List.mem_cons.not.mp missing)
      rw [List.cons_append, offsetOf?, if_neg (Ne.symm other), ih missing]
      rfl

theorem offsetOf?_eq_none {wanted : Char} {cs : List Char} (missing : wanted ∉ cs)
    : offsetOf? wanted cs = none := by
  induction cs with
  | nil => rfl
  | cons c cs ih =>
      obtain ⟨other, missing⟩ := not_or.mp (List.mem_cons.not.mp missing)
      rw [offsetOf?, if_neg (Ne.symm other), ih missing]
      rfl

-----------------------------------------------------------------------------------------
-- The forms in bytes are the forms in characters
-----------------------------------------------------------------------------------------

/-- A form found in characters, measured in the bytes of the text it is found in. -/
def Span.of (cs : List Char) (lexeme : Lexeme) : Span :=
  ⟨byteLength (cs.take lexeme.length), lexeme.kind⟩

theorem Span.of_append (taken rest : List Char) {length : Nat} (counted : length = taken.length)
    (kind : Kind)
    : Span.of (taken ++ rest) ⟨length, kind⟩ = ⟨byteLength taken, kind⟩ := by
  rw [Span.of, List.take_left' counted.symm]

theorem directive?_eq (cs : List Char)
    : directive? cs = (Lexeme.directive? cs).map (Span.of cs) := by
  rw [directive?, Lexeme.directive?, List.map_findSome?]
  congr 1
  funext directive
  rw [Function.comp_apply]
  cases opened : directive.keyword.toList.isPrefixOf? cs with
  | none => rfl
  | some rest =>
      obtain rfl := List.isPrefixOf?_eq_some_iff_append_eq.mp opened
      dsimp only
      split
      · rfl
      · rw [Option.map_some, Span.of_append _ _ String.length_toList.symm]

theorem quoted?_eq (cs : List Char)
    : quoted? cs = some ((Lexeme.quoted? cs).map (Span.of cs)) := by
  unfold quoted?
  split
  · rename_i body
    by_cases closed : '"' ∈ body
    · obtain ⟨content, after, rfl, inside⟩ := List.eq_append_cons_of_mem closed
      have bytes : byteLength ('"' :: (content ++ ['"'])) = byteLength content + 2 := by
        simp only [byteLength_append, byteLength_cons, byteLength_nil,
          show '"'.utf8Size = 1 from rfl]
        omega
      rw [Lexeme.quoted?_text inside, Option.map_some, Span.of, Lexeme.take_quotation, bytes]
      simp only [offsetOf?_append inside, cut?_append]
      rfl
    · have taken : body.takeWhile (· != '"') = body := by
        refine List.takeWhile_eq_self_iff.mpr fun c member => bne_iff_ne.mpr ?_
        rintro rfl
        exact closed member
      simp [Lexeme.quoted?, offsetOf?_eq_none closed, taken]
  · simp [Lexeme.quoted?]

theorem assignment?_eq (cs : List Char)
    : assignment? cs = some ((Lexeme.assignment? cs).map (Span.of cs)) := by
  unfold assignment? Lexeme.assignment?
  cases measured : nameLength? cs with
  | none => rfl
  | some length =>
      obtain ⟨name, after, rfl, named, rfl⟩ := nameLength?_eq_some measured
      have cutting := cut?_append name after
      have whole := List.takeWhile_append_dropWhile (p := isBlank) (l := after)
      rw [byteLength_of_isName named] at cutting
      simp only [cutting, Option.bind_eq_bind, Option.bind_some, List.drop_left, List.take_left,
        byteLength_sub_dropWhile]
      cases behind : after.dropWhile isBlank with
      | nil => rfl
      | cons sign rest =>
          by_cases equals : sign = '='
          · subst equals
            rw [behind] at whole
            generalize after.takeWhile isBlank = gap at whole ⊢
            subst whole
            have around : name ++ (gap ++ '=' :: rest)
                = (name ++ (gap ++ '=' :: rest.takeWhile isBlank)) ++ rest.dropWhile isBlank := by
              simp
            have length : name.length + gap.length + 1 + (rest.takeWhile isBlank).length
                = (name ++ (gap ++ '=' :: rest.takeWhile isBlank)).length := by
              simp only [List.length_append, List.length_cons]
              omega
            have bytes : name.length + byteLength gap + 1 + byteLength (rest.takeWhile isBlank)
                = byteLength (name ++ (gap ++ '=' :: rest.takeWhile isBlank)) := by
              simp only [byteLength_append, byteLength_cons, byteLength_of_isName named,
                show '='.utf8Size = 1 from rfl]
              omega
            change some (some _) = some (some (Span.of _ _))
            rw [around, Span.of_append _ _ length, ← bytes]
          · simp [equals]

theorem label?_eq (cs : List Char)
    : label? cs = some ((Lexeme.label? cs).map (Span.of cs)) := by
  unfold label? Lexeme.label?
  cases measured : nameLength? cs with
  | none => rfl
  | some length =>
      obtain ⟨name, after, rfl, named, rfl⟩ := nameLength?_eq_some measured
      have cutting := cut?_append name after
      rw [byteLength_of_isName named] at cutting
      simp only [cutting, Option.bind_eq_bind, Option.bind_some, List.drop_left, List.take_left]
      cases after with
      | nil => rfl
      | cons sign rest =>
          by_cases colon : sign = ':'
          · subst colon
            have around : name ++ ':' :: rest = (name ++ [':']) ++ rest := by simp
            have bytes : name.length + 1 = byteLength (name ++ [':']) := by
              simp [byteLength_of_isName named, show ':'.utf8Size = 1 from rfl]
            change some (some _) = some (some (Span.of _ _))
            rw [around, Span.of_append _ _ (by simp), ← bytes]
          · simp [colon]

theorem ident?_eq (cs : List Char)
    : ident? cs = some ((Lexeme.ident? cs).map (Span.of cs)) := by
  -- The mark in front of the name, which takes as many bytes as characters.
  obtain ⟨front, rest, rfl, counted, bytes⟩ : ∃ front rest,
      cs = front ++ rest
      ∧ (if (Part.mark? cs).isSome then 1 else 0) = front.length
      ∧ byteLength front = front.length := by
    cases marked : Part.mark? cs with
    | none => exact ⟨[], cs, rfl, by simp, rfl⟩
    | some part =>
        cases cs with
        | nil => cases marked
        | cons mark rest =>
            refine ⟨[mark], rest, rfl, by simp, ?_⟩
            rcases mark?_eq_some marked with rfl | rfl
            · rfl
            · rfl
  have cutting := cut?_append front rest
  rw [bytes] at cutting
  unfold ident? Lexeme.ident?
  simp only [counted, cutting, Option.bind_eq_bind, Option.bind_some, List.drop_left]
  cases measured : nameLength? rest with
  | none => rfl
  | some length =>
      obtain ⟨name, after, rfl, named, rfl⟩ := nameLength?_eq_some measured
      change some (some _) = some (some (Span.of _ _))
      rw [← List.append_assoc, Span.of_append _ _ (by simp), byteLength_append, bytes,
        byteLength_of_isName named]

/-- Digits take a byte each, so that a cut behind as many bytes as there are digits is one behind
the digits.
-/
theorem literalOf?_eq (shape : Shape) (cs : List Char)
    : literalOf? shape cs = (shape.read? cs).map fun _ => shape.byteLength := by
  unfold literalOf? Shape.read?
  cases shape.opening.toList.isPrefixOf? cs with
  | none => rfl
  | some body =>
      simp only [Option.bind_eq_bind, Option.bind_some]
      split
      · rename_i found
        obtain ⟨counted, valid⟩ := Bool.and_eq_true_iff.mp found
        have cutting := cut?_append (body.take shape.digits) (body.drop shape.digits)
        rw [List.take_append_drop, byteLength_of_isDigit valid, of_decide_eq_true counted]
          at cutting
        simp only [cutting, Option.bind_some, if_pos valid]
        cases shape.closing.toList.isPrefixOf? (body.drop shape.digits) with
        | none => rfl
        | some rest => rfl
      · rename_i missing
        cases cutting : cut? shape.digits body with
        | none => rfl
        | some halves =>
            obtain ⟨digits, rest⟩ := halves
            obtain ⟨rfl, counted⟩ := eq_append_of_cut? cutting
            have invalid : ¬ digits.all Hex.isDigit = true := by
              intro valid
              rw [byteLength_of_isDigit valid] at counted
              rw [← counted, List.take_left] at missing
              simp [valid] at missing
            rw [Option.bind_some, if_neg invalid]
            rfl

theorem literal?_eq (cs : List Char)
    : literal? cs = (Lexeme.literal? cs).map (Span.of cs) := by
  rw [literal?, Lexeme.literal?, List.map_findSome?]
  congr 1
  funext mode
  rw [Function.comp_apply]
  cases shaped : mode.shape? with
  | none => rfl
  | some shape =>
      simp only [Option.bind_eq_bind, Option.bind_some, literalOf?_eq]
      cases read : shape.read? cs with
      | none => rfl
      | some parts =>
          obtain ⟨rfl, counted, valid⟩ := Shape.read?_eq_some_iff.mp read
          have length : shape.opening.length + shape.digits + shape.closing.length
              = (shape.opening.toList ++ parts.1 ++ shape.closing.toList).length := by
            simp [counted, String.length_toList, Nat.add_assoc]
          change some _ = some (Span.of _ _)
          rw [← List.append_assoc, ← List.append_assoc, Span.of_append _ _ length]
          simp [byteLength_toList, byteLength_of_isDigit valid, counted, Shape.byteLength,
            Nat.add_assoc]

theorem first_cons {answers : List (Option (Option Span))} {others : Option Span}
    (found : Option Span) (rest : first answers = some others)
    : first (some found :: answers) = some (found.or others) := by
  cases found with
  | none => exact rest
  | some span => rfl

/-- Every form is found as it is in characters, and no cut fails. -/
theorem find?_eq (cs : List Char)
    : find? cs = some ((Lexeme.find? cs).map (Span.of cs)) := by
  unfold find? Lexeme.find?
  rw [directive?_eq, quoted?_eq, assignment?_eq, label?_eq, ident?_eq, literal?_eq]
  simp only [Option.orElse_eq_orElse, Option.orElse_eq_or, Option.map_or]
  refine first_cons _ (first_cons _ (first_cons _ (first_cons _ (first_cons _ ?_))))
  rw [first_cons _ rfl, Option.or_none]

-----------------------------------------------------------------------------------------
-- Scans by offsets end, with the tokens
-----------------------------------------------------------------------------------------

/-- The comment starts behind what is left without it, and there is none if all is left. -/
theorem comment?_cases (quoted : Bool) (offset : Nat) (cs : List Char)
    : comment? quoted offset cs = none ∧ stripComment quoted cs = cs
      ∨ comment? quoted offset cs = some (offset + byteLength (stripComment quoted cs)) := by
  induction cs generalizing quoted offset with
  | nil => exact .inl ⟨rfl, rfl⟩
  | cons c rest ih =>
      rw [comment?, stripComment]
      split
      · exact .inr rfl
      · rcases ih (if c = '"' then !quoted else quoted) (offset + c.utf8Size)
          with ⟨none, whole⟩ | found
        · exact .inl ⟨none, by rw [whole]⟩
        · exact .inr (by rw [found, byteLength_cons, Nat.add_assoc])

theorem strip_eq (cs : List Char)
    : strip cs = some (stripComment false cs) := by
  unfold strip
  rcases comment?_cases false 0 cs with ⟨none, whole⟩ | found
  · rw [none, whole]
  · obtain ⟨comment, split⟩ := isPrefix_stripComment false cs
    have cutting := cut?_append (stripComment false cs) comment
    rw [split] at cutting
    rw [found, Nat.zero_add]
    simp only [cutting, Option.map_some]

/-- From a byte between two characters on, the scan finds the tokens of what is left.
Witness: induction on the rounds, of which every one takes a byte at least.
-/
theorem scan_eq (file : String) (line : Nat) (before left : List Char) {rounds : Nat}
    (enough : byteLength left < rounds)
    : scan file line (before ++ left) rounds (byteLength before)
      = some (Source.scan file line (byteLength before) left) := by
  induction rounds generalizing before left with
  | zero => cases enough
  | succ rounds ih =>
      rw [scan, cut?_append]
      cases left with
      | nil =>
          rw [Source.scan]
          rfl
      | cons c rest =>
          have size := c.utf8Size_pos
          rw [byteLength_cons] at enough
          have skipped
              : scan file line (before ++ c :: rest) rounds (byteLength before + c.utf8Size)
                = some (Source.scan file line (byteLength before + c.utf8Size) rest) := by
            simpa using ih (before ++ [c]) rest (by omega)
          rw [Source.scan]
          by_cases blank : isBlank c = true
          · simpa [blank] using skipped
          · rw [if_neg blank]
            cases found : Lexeme.find? (c :: rest) with
            | none => simpa [blank, find?_eq, found] using skipped
            | some lexeme =>
                have around := Lexeme.take_append_of_find? found
                have shorter :=
                  congrArg byteLength (List.take_append_drop (lexeme.length - 1) rest)
                rw [byteLength_append] at shorter
                have cutting := cut?_append ((c :: rest).take lexeme.length)
                  (rest.drop (lexeme.length - 1))
                have next := ih (before ++ (c :: rest).take lexeme.length)
                  (rest.drop (lexeme.length - 1)) (by omega)
                rw [around] at cutting
                rw [List.append_assoc, around, byteLength_append] at next
                simp [blank, find?_eq, found, Span.of, cutting, next]

theorem lineTokens_eq (file : String) (line : Nat) (cs : List Char)
    : lineTokens file line cs = some (Source.lineTokens file line cs) := by
  unfold lineTokens
  rw [strip_eq]
  exact scan_eq file line [] (stripComment false cs) (Nat.lt_succ_self _)

/-- The scan by offsets ends without a cut that fails, and with the tokens of the text. -/
theorem tokens_eq (file code : String)
    : tokens file code = some (Source.tokens file code) := by
  unfold tokens
  simp only [lineTokens_eq]
  have all
      : (lines code.toList).zipIdx.mapM (fun (cs, line) => some (Source.lineTokens file line cs))
        = some ((lines code.toList).zipIdx.map fun (cs, line) => Source.lineTokens file line cs) :=
    List.mapM_pure
  rw [all]
  rfl

end Asm6510.Source.Offsets
