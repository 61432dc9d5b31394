/-! Text split into its lines. -/

namespace Asm6510.Text

/-- Puts a character in front of the first line, which it starts if there is none. -/
def consLine (c : Char) : List (List Char) → List (List Char)
  | [] => [[c]]
  | line :: rest => (c :: line) :: rest

/-- The lines of a text. A line ends with a line feed, and one carriage return before that
line feed belongs to the end; a carriage return elsewhere is part of its line. The last line
needs no end, and there is no empty line after the last end.
-/
def lines : List Char → List (List Char)
  | [] => []
  | '\n' :: rest => [] :: lines rest
  | '\r' :: '\n' :: rest => [] :: lines rest
  | c :: rest => consLine c (lines rest)

/-- The lines of a string. -/
def linesOf (text : String) : List String :=
  (lines text.toList).map String.ofList

end Asm6510.Text
