import Asm6510.Assembly.Row
import Asm6510.Text.Hex
import Asm6510.Text.Ink

/-! Listings printed as a table of addresses, bytes and statements.

A row takes one line for every three of its bytes. The first carries the source line number
and the statement; a row without bytes takes no line at all.
-/

namespace Asm6510.Report

open Assembly (Row)
open Text

/-- Bytes cut into groups of three; the last group may be shorter. -/
def inThrees : List UInt8 → List (List UInt8)
  | [] => []
  | [a] => [[a]]
  | [a, b] => [[a, b]]
  | a :: b :: c :: rest => [a, b, c] :: inThrees rest

/-- `n` hyphens. -/
def hyphens (n : Nat) : String :=
  String.ofList (List.replicate n '-')

/-- A text cut at its first blank. -/
def splitHead (text : String) : String × String :=
  let cs := text.toList
  (String.ofList (cs.takeWhile (· != ' ')), String.ofList ((cs.dropWhile (· != ' ')).drop 1))

/-- The statement of a row in colour, with the reference its operand came from. A directive is
set apart from its operand by a blank, a mnemonic by its padding.
-/
def statementText (row : Row) : String :=
  let (head, tail) := splitHead row.text
  let reference :=
    match row.reference? with
    | some name => " " ++ Ink.green.paint ("; " ++ name)
    | none => ""
  if head.toList.head? == some '.' then
    Ink.cyan.paint head ++ " " ++ Ink.yellow.paint tail ++ reference
  else
    Ink.red.on ++ padRight 4 head ++ Ink.yellow.paint tail ++ reference

/-- A line of the table: an address and up to three bytes. -/
structure ByteLine where
  address : UInt16
  bytes : List UInt8
deriving DecidableEq, Repr

/-- The lines of a row. -/
def byteLines (row : Row) : List ByteLine :=
  (inThrees row.bytes).zipIdx.map fun (bytes, index) =>
    ⟨row.address + UInt16.ofNat (3 * index), bytes⟩

namespace ByteLine

/-- The address and the bytes, up to the rule between bytes and statements. -/
def columns (line : ByteLine) : String :=
  "[" ++ Hex.word line.address ++ "] "
    ++ padRight 8 (String.intercalate " " (line.bytes.map Hex.byte)) ++ "   |"

end ByteLine

/-- The text of a row. -/
def rowText (row : Row) : String :=
  match byteLines row with
  | [] => ""
  | first :: more =>
      first.columns ++ " " ++ padLeft 4 (decimal (row.pos.line + 1)) ++ ":   "
        ++ statementText row ++ "\n"
        ++ String.join (more.map fun line => line.columns ++ "\n")

/-- The heading above the rows of a file. -/
def fileHeading (file : String) : String :=
  hyphens 19 ++ "+------[" ++ file ++ "]" ++ hyphens (45 - file.utf8ByteSize) ++ "\n"

/-- The rows of a listing. A heading stands before each row whose file is not that of the row
before it.
-/
def dumpRows (file? : Option String) : List Row → String
  | [] => ""
  | row :: rest =>
      (if file? = some row.pos.file then "" else fileHeading row.pos.file)
        ++ rowText row ++ dumpRows (some row.pos.file) rest

/-- A listing as a table, closed by a rule. -/
def dump (rows : List Row) : String :=
  dumpRows none rows ++ hyphens 19 ++ "+" ++ hyphens 53 ++ "\n"

end Asm6510.Report
