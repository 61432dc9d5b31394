import Asm6510.Source.Lexeme
import Asm6510.Text.Lines

/-! Source text as a list of tokens. -/

namespace Asm6510.Source

open Text

/-- A line up to its comment: a semicolon outside quotes starts one. -/
def stripComment (quoted : Bool) : List Char → List Char
  | [] => []
  | c :: rest =>
      if c = ';' && !quoted then []
      else c :: stripComment (if c = '"' then !quoted else quoted) rest

/-- The tokens of the rest of a line, which starts at column `col`. Where no form fits, the
character is skipped. A form takes at least one character, so that what is left is shorter.
-/
def scan (file : String) (line col : Nat) (cs : List Char) : List Token :=
  match cs with
  | [] => []
  | c :: rest =>
      if isBlank c then
        scan file line (col + c.utf8Size) rest
      else
        match Lexeme.find? (c :: rest) with
        | some lexeme =>
            let taken := (c :: rest).take lexeme.length
            ⟨lexeme.kind, String.ofList (trimEnd taken), ⟨file, line, col⟩⟩
              :: scan file line (col + byteLength taken) (rest.drop (lexeme.length - 1))
        | none => scan file line (col + c.utf8Size) rest
termination_by cs.length
decreasing_by all_goals simp only [List.length_cons, List.length_drop]; omega

/-- The tokens of a line. -/
def lineTokens (file : String) (line : Nat) (cs : List Char) : List Token :=
  scan file line 0 (stripComment false cs)

/-- The tokens of a source text. -/
def tokens (file code : String) : List Token :=
  (lines code.toList).zipIdx.flatMap fun (cs, line) => lineTokens file line cs

end Asm6510.Source
