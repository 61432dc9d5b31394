import Asm6510.Proofs.Assembly.Bounds
import Asm6510.Proofs.Source.Rescan
import Asm6510.Report.Dump

/-! Tables read back by their columns. Every byte of a listing stands once in its table, at its
address and in its turn, and what is printed around the bytes is the heading of a file, the number
of a source line and its statement.
-/

namespace Asm6510.Report

open Assembly (Assembler Output Row addressSpace)
open Text

/-- The address in front of a line: four digits behind a bracket. -/
def addressColumn (line : List Char) : Nat :=
  Hex.ofDigits ((line.drop 1).take 4)

/-- The byte whose two digits stand in a column, if there are digits. -/
def byteAt? (line : List Char) (column : Nat) : Option UInt8 :=
  let digits := (line.drop column).take 2
  if digits.length = 2 && digits.all Hex.isDigit then some (UInt8.ofNat (Hex.ofDigits digits))
  else none

/-- The bytes on a line, in up to three columns. -/
def byteColumns (line : List Char) : List UInt8 :=
  [7, 10, 13].filterMap (byteAt? line)

/-- What stands on a line behind the rule. -/
def remarkColumn (line : List Char) : List Char :=
  line.drop 19

/-- The number of a row's source line, and its statement. -/
def remark (row : Row) : String :=
  " " ++ padLeft 4 (decimal (row.pos.line + 1)) ++ ":   " ++ statementText row

/-- What leaves room or sets a colour, so that nothing is seen of it. -/
inductive Spacing : List Char → Prop
  | nil : Spacing []
  | blank {more : List Char} (rest : Spacing more) : Spacing (' ' :: more)
  | colour {tens units : Char} {more : List Char} (digits : tens.isDigit ∧ units.isDigit)
    (rest : Spacing more)
    : Spacing ('\x1b' :: '[' :: tens :: units :: 'm' :: more)

/-- Texts that are printed one behind the other, with only spacing around them. -/
inductive Printed : List (List Char) → List Char → Prop
  | nil {gap : List Char} (spacing : Spacing gap) : Printed [] gap
  | cons {gap text more : List Char} {texts : List (List Char)} (spacing : Spacing gap)
    (rest : Printed texts more)
    : Printed (text :: texts) (gap ++ (text ++ more))

/-- What is said about a row: the number of its source line, its statement up to the first blank and
from there on, and the name that its operand came from.
-/
def sayings (row : Row) : List (List Char) :=
  ((decimal (row.pos.line + 1)).toList ++ [':'])
    :: row.text.toList.takeWhile (· != ' ')
    :: (row.text.toList.dropWhile (· != ' ')).drop 1
    :: row.reference?.toList.map fun name => ';' :: ' ' :: name.toList

/-- Lines that show a row: one for every three bytes, with their address, and the source on the
first of them.
-/
structure RowShown (row : Row) (lines : List (List Char)) : Prop where
  count : lines.length = (row.bytes.length + 2) / 3
  address
    : ∀ index line, lines[index]? = some line
      → addressColumn line = row.address.toNat + 3 * index
        ∧ row.address.toNat + 3 * index < 0x10000
  bytes
    : ∀ index line, lines[index]? = some line
      → byteColumns line = (row.bytes.drop (3 * index)).take 3
  remarked
    : ∀ index line, lines[index]? = some line
      → remarkColumn line = if index = 0 then (remark row).toList else []
  /-- The first line says all there is to say about the row, and nothing else. -/
  said : ∀ line, lines[0]? = some line → Printed (sayings row) (remarkColumn line)

/-- The line that names a file. -/
def headingLine (file : String) : List Char :=
  (hyphens 19 ++ "+------[" ++ file ++ "]" ++ hyphens (45 - file.utf8ByteSize)).toList

/-- The line that closes a table. -/
def closingLine : List Char :=
  (hyphens 19 ++ "+" ++ hyphens 53).toList

/-- What is printed for a row: a heading or none, and the lines of its bytes. -/
structure Block where
  heading? : Option (List Char)
  lines : List (List Char)

namespace Block

/-- The lines of a block from top to bottom. -/
def all (block : Block) : List (List Char) :=
  block.heading?.toList ++ block.lines

/-- A block that shows a row. It has a heading exactly when the row before it, if there is one, is
of another file.
-/
structure Shows (before? : Option Row) (row : Row) (block : Block) : Prop where
  heading
    : block.heading?
      = if before?.map (·.pos.file) = some row.pos.file then none
        else some (headingLine row.pos.file)
  lines : RowShown row block.lines

end Block

/-- Lines with their ends. -/
def ended (lines : List (List Char)) : List Char :=
  lines.flatMap (· ++ ['\n'])

/-- A row whose texts have no line feed in them. -/
structure OneLine (row : Row) : Prop where
  file : '\n' ∉ row.pos.file.toList
  text : '\n' ∉ row.text.toList
  reference : ∀ name ∈ row.reference?, '\n' ∉ name.toList

/-- The row in front of a row. -/
def before? (rows : List Row) : Nat → Option Row
  | 0 => none
  | index + 1 => rows[index]?

/-- A table that shows rows in blocks, one behind the other. -/
structure Tabled (rows : List Row) (blocks : List Block) (table : String) : Prop where
  printed : table.toList = ended (blocks.flatMap Block.all ++ [closingLine])
  count : blocks.length = rows.length
  shown
    : ∀ (index : Nat) row block, rows[index]? = some row → blocks[index]? = some block
      → block.Shows (before? rows index) row
  /-- Read in order, the columns of the bytes hold the bytes of the rows. -/
  read : (blocks.flatMap (·.lines)).flatMap byteColumns = rows.flatMap (·.bytes)
  /-- Each of them is one line of the text, unless a text of the rows is longer than one. -/
  whole : (∀ row ∈ rows, OneLine row) → ∀ line ∈ blocks.flatMap Block.all, '\n' ∉ line

-----------------------------------------------------------------------------------------
-- Columns
-----------------------------------------------------------------------------------------

/-- The digits written for a byte are read as the byte. -/
theorem byteAt?_of_drop {line rest : List Char} {column : Nat} {b : UInt8}
    (behind : line.drop column = Hex.digits 2 b.toNat ++ rest)
    : byteAt? line column = some b := by
  have taken : (line.drop column).take 2 = Hex.digits 2 b.toNat := by
    rw [behind, List.take_left' (Hex.length_digits 2 b.toNat)]
  have number : Hex.ofDigits (Hex.digits 2 b.toNat) = b.toNat := Hex.ofDigits_digits b.toNat_lt
  simp [byteAt?, taken, Hex.all_isDigit_digits, number]

/-- A blank is no digit. -/
theorem byteAt?_of_blank {line rest : List Char} {column : Nat}
    (behind : line.drop column = ' ' :: rest)
    : byteAt? line column = none := by
  have blank : Hex.isDigit ' ' = false := by decide
  simp [byteAt?, behind, blank]

/-- The bytes of a line and the blanks behind them take eight characters, and are read back.
Witness: one, two or three bytes, with a blank behind each of them but the last.
-/
theorem filterMap_byteAt?_cells {bytes : List UInt8} (given : bytes ≠ [])
    (few : bytes.length ≤ 3) (more : List Char)
    : ∃ cells : List Char,
        (padRight 8 (String.intercalate " " (bytes.map Hex.byte))).toList = cells
        ∧ cells.length = 8
        ∧ [0, 3, 6].filterMap (byteAt? (cells ++ ' ' :: more)) = bytes := by
  have blank : " ".length = 1 := rfl
  match bytes, given, few with
  | [a], _, _ =>
      let cells := Hex.digits 2 a.toNat ++ List.replicate 6 ' '
      have first : byteAt? (cells ++ ' ' :: more) 0 = some a := byteAt?_of_drop rfl
      have second : byteAt? (cells ++ ' ' :: more) 3 = none := byteAt?_of_blank rfl
      have third : byteAt? (cells ++ ' ' :: more) 6 = none := byteAt?_of_blank rfl
      refine ⟨cells, ?_, rfl, by simp [first, second, third]⟩
      simp [padRight, Hex.byte, blanks, cells]
  | [a, b], _, _ =>
      let cells := Hex.digits 2 a.toNat ++ ' ' :: (Hex.digits 2 b.toNat ++ List.replicate 3 ' ')
      have first : byteAt? (cells ++ ' ' :: more) 0 = some a := byteAt?_of_drop rfl
      have second : byteAt? (cells ++ ' ' :: more) 3 = some b := byteAt?_of_drop rfl
      have third : byteAt? (cells ++ ' ' :: more) 6 = none := byteAt?_of_blank rfl
      refine ⟨cells, ?_, rfl, by simp [first, second, third]⟩
      simp [padRight, Hex.byte, blanks, blank, cells]
  | [a, b, c], _, _ =>
      let cells := Hex.digits 2 a.toNat
        ++ ' ' :: (Hex.digits 2 b.toNat ++ ' ' :: Hex.digits 2 c.toNat)
      have first : byteAt? (cells ++ ' ' :: more) 0 = some a := byteAt?_of_drop rfl
      have second : byteAt? (cells ++ ' ' :: more) 3 = some b := byteAt?_of_drop rfl
      have third : byteAt? (cells ++ ' ' :: more) 6 = some c := byteAt?_of_drop rfl
      refine ⟨cells, ?_, rfl, by simp [first, second, third]⟩
      simp [padRight, Hex.byte, blanks, blank, cells]

/-- The columns of a line hold its address and its bytes, and nothing that is printed behind them
is taken for a byte.
-/
theorem read_columns {line : ByteLine} (given : line.bytes ≠ []) (few : line.bytes.length ≤ 3)
    (more : List Char)
    : addressColumn (line.columns.toList ++ more) = line.address.toNat
      ∧ byteColumns (line.columns.toList ++ more) = line.bytes
      ∧ remarkColumn (line.columns.toList ++ more) = more := by
  obtain ⟨cells, written, length, read⟩ :=
    filterMap_byteAt?_cells given few (' ' :: ' ' :: '|' :: more)
  have split : line.columns.toList ++ more
      = '[' :: Hex.digits 4 line.address.toNat
          ++ (']' :: ' ' :: (cells ++ ' ' :: ' ' :: ' ' :: '|' :: more)) := by
    simp [ByteLine.columns, Hex.word, written]
  have behind : (line.columns.toList ++ more).drop 7
      = cells ++ ' ' :: ' ' :: ' ' :: '|' :: more := by
    rw [split]
    rfl
  refine ⟨?_, ?_, ?_⟩
  · have number : Hex.ofDigits (Hex.digits 4 line.address.toNat) = line.address.toNat :=
      Hex.ofDigits_digits line.address.toNat_lt
    rw [addressColumn, split]
    exact number
  · have shifted (column : Nat) : byteAt? (line.columns.toList ++ more) (7 + column)
        = byteAt? (cells ++ ' ' :: ' ' :: ' ' :: '|' :: more) column := by
      rw [byteAt?, ← List.drop_drop, behind, byteAt?]
    have first := shifted 0
    have second := shifted 3
    have third := shifted 6
    rw [← read, byteColumns]
    simp only [List.filterMap_cons, List.filterMap_nil, first, second, third]
  · have last : (line.columns.toList ++ more).drop 19
        = ((line.columns.toList ++ more).drop 7).drop 12 := by
      rw [List.drop_drop]
    rw [remarkColumn, last, behind, List.drop_append, List.drop_of_length_le (by omega), length]
    rfl

-----------------------------------------------------------------------------------------
-- Groups of bytes
-----------------------------------------------------------------------------------------

theorem length_inThrees (bytes : List UInt8)
    : (inThrees bytes).length = (bytes.length + 2) / 3 := by
  fun_induction inThrees bytes with
  | case1 => rfl
  | case2 a => simp
  | case3 a b => simp
  | case4 a b c rest ih =>
      simp only [List.length_cons, ih]
      omega

/-- A group holds the three bytes that it starts with, or what is left of them. -/
theorem getElem?_inThrees {bytes group : List UInt8} {index : Nat}
    (found : (inThrees bytes)[index]? = some group)
    : group = (bytes.drop (3 * index)).take 3 ∧ 3 * index < bytes.length := by
  fun_induction inThrees bytes generalizing index with
  | case1 => simp at found
  | case2 a | case3 a b =>
      cases index with
      | zero =>
          obtain rfl := Option.some.inj found
          simp
      | succ index => simp at found
  | case4 a b c rest ih =>
      cases index with
      | zero =>
          obtain rfl := Option.some.inj found
          simp
      | succ index =>
          obtain ⟨same, inside⟩ := ih (by simpa using found)
          refine ⟨by simpa [Nat.mul_add] using same, ?_⟩
          simp only [List.length_cons]
          omega

theorem flatten_inThrees (bytes : List UInt8)
    : (inThrees bytes).flatten = bytes := by
  fun_induction inThrees bytes with
  | case1 | case2 | case3 => rfl
  | case4 a b c rest ih => simp [ih]

-----------------------------------------------------------------------------------------
-- Remarks
-----------------------------------------------------------------------------------------

theorem Spacing.append {front back : List Char} (first : Spacing front) (second : Spacing back)
    : Spacing (front ++ back) := by
  induction first with
  | nil => exact second
  | blank rest ih => exact .blank ih
  | colour digits rest ih => exact .colour digits ih

theorem spacing_blanks (n : Nat)
    : Spacing (blanks n).toList := by
  rw [blanks, String.toList_ofList]
  induction n with
  | zero => exact .nil
  | succ n ih => exact .blank ih

theorem spacing_on (ink : Ink)
    : Spacing ink.on.toList := by
  cases ink <;> exact .colour (by decide) .nil

theorem spacing_off
    : Spacing Ink.off.toList :=
  .colour (by decide) .nil

/-- Spacing may stand in front of anything. -/
theorem Printed.spaced {gap text : List Char} {texts : List (List Char)}
    (printed : Printed texts text) (spacing : Spacing gap)
    : Printed texts (gap ++ text) := by
  cases printed with
  | nil after => exact .nil (spacing.append after)
  | cons after rest =>
      rw [← List.append_assoc]
      exact .cons (spacing.append after) rest

/-- A statement is printed in its two parts, and the name it refers to behind a mark.
Witness: what a directive and a mnemonic are set apart with is spacing in both cases.
-/
theorem printed_statementText (row : Row)
    : Printed
        (row.text.toList.takeWhile (· != ' ')
          :: (row.text.toList.dropWhile (· != ' ')).drop 1
          :: row.reference?.toList.map fun name => ';' :: ' ' :: name.toList)
        (statementText row).toList := by
  let head := String.ofList (row.text.toList.takeWhile (· != ' '))
  have apart : Spacing (Ink.off.toList ++ ' ' :: Ink.yellow.on.toList) :=
    spacing_off.append (.blank (spacing_on .yellow))
  have padded : Spacing ((blanks (4 - head.length)).toList ++ Ink.yellow.on.toList) :=
    (spacing_blanks _).append (spacing_on .yellow)
  cases named : row.reference? with
  | none =>
      have ending : Printed [] Ink.off.toList := .nil spacing_off
      simp only [statementText, named]
      split
      · simpa [splitHead, Ink.paint] using Printed.cons (spacing_on .cyan) (.cons apart ending)
      · simpa [splitHead, Ink.paint, padRight, head]
          using Printed.cons (spacing_on .red) (.cons padded ending)
  | some name =>
      have ahead : Spacing (Ink.off.toList ++ ' ' :: Ink.green.on.toList) :=
        spacing_off.append (.blank (spacing_on .green))
      have ending : Printed [';' :: ' ' :: name.toList] _ := .cons ahead (.nil spacing_off)
      simp only [statementText, named]
      split
      · simpa [splitHead, Ink.paint] using Printed.cons (spacing_on .cyan) (.cons apart ending)
      · simpa [splitHead, Ink.paint, padRight, head]
          using Printed.cons (spacing_on .red) (.cons padded ending)

/-- The remark on a row says all of it. -/
theorem printed_remark (row : Row)
    : Printed (sayings row) (remark row).toList := by
  let number := decimal (row.pos.line + 1)
  have front : Spacing (' ' :: (blanks (4 - number.length)).toList) := .blank (spacing_blanks _)
  have behind : Spacing [' ', ' ', ' '] := spacing_blanks 3
  have split : (remark row).toList
      = ' ' :: (blanks (4 - number.length)).toList
        ++ (number.toList ++ [':'] ++ ([' ', ' ', ' '] ++ (statementText row).toList)) := by
    simp [remark, padLeft, number]
  rw [split]
  exact .cons front ((printed_statementText row).spaced behind)

-----------------------------------------------------------------------------------------
-- Rows
-----------------------------------------------------------------------------------------

variable {row : Row} {lines : List (List Char)}

/-- The lines of a row as they are printed. -/
def rowLines (row : Row) : List (List Char) :=
  match byteLines row with
  | [] => []
  | first :: more =>
      (first.columns.toList ++ (remark row).toList) :: more.map (·.columns.toList)

theorem toList_rowText (row : Row)
    : (rowText row).toList = ended (rowLines row) := by
  unfold rowText rowLines
  cases byteLines row with
  | nil => rfl
  | cons first more =>
      simp [ended, remark, String.toList_join, List.flatMap_map]

/-- A line of a row holds a group of its bytes. -/
theorem getElem?_byteLines {index : Nat} {line : ByteLine}
    (found : (byteLines row)[index]? = some line)
    : line.address = row.address + UInt16.ofNat (3 * index)
      ∧ (inThrees row.bytes)[index]? = some line.bytes := by
  simp only [byteLines, List.getElem?_map, List.getElem?_zipIdx, Option.map_map] at found
  obtain ⟨group, grouped, rfl⟩ := Option.map_eq_some_iff.mp found
  exact ⟨by simp, grouped⟩

theorem getElem?_rowLines {index : Nat} {line : List Char}
    (found : (rowLines row)[index]? = some line)
    : ∃ shown,
        (byteLines row)[index]? = some shown
        ∧ line = shown.columns.toList ++ if index = 0 then (remark row).toList else [] := by
  unfold rowLines at found
  cases split : byteLines row with
  | nil => simp [split] at found
  | cons first more =>
      rw [split] at found
      cases index with
      | zero => exact ⟨first, rfl, by simpa [eq_comm] using found⟩
      | succ index =>
          obtain ⟨shown, listed, rfl⟩ : ∃ shown, more[index]? = some shown
              ∧ shown.columns.toList = line := by
            simpa using found
          exact ⟨shown, by simpa using listed, by simp⟩

theorem length_rowLines (row : Row)
    : (rowLines row).length = (row.bytes.length + 2) / 3 := by
  have same : (rowLines row).length = (byteLines row).length := by
    unfold rowLines
    cases byteLines row <;> simp
  rw [same, ← length_inThrees]
  simp [byteLines]

/-- A row that ends inside the address space is shown by its lines, none of which stands beyond the
end.
-/
theorem rowShown_of_fits (fits : row.Fits)
    : RowShown row (rowLines row) := by
  have each {index : Nat} {line : List Char} (found : (rowLines row)[index]? = some line)
      : addressColumn line = row.address.toNat + 3 * index
        ∧ row.address.toNat + 3 * index < 0x10000
        ∧ byteColumns line = (row.bytes.drop (3 * index)).take 3
        ∧ remarkColumn line = if index = 0 then (remark row).toList else [] := by
    obtain ⟨shown, listed, printed⟩ := getElem?_rowLines found
    obtain ⟨addressed, grouped⟩ := getElem?_byteLines listed
    obtain ⟨group, inside⟩ := getElem?_inThrees grouped
    have room : row.address.toNat + 3 * index < 0x10000 := by
      have fits : row.address.toNat + row.bytes.length ≤ 0x10000 := fits
      omega
    have length : shown.bytes.length = min 3 (row.bytes.length - 3 * index) := by
      rw [group, List.length_take, List.length_drop]
    have given : shown.bytes ≠ [] := List.ne_nil_of_length_pos (by omega)
    have few : shown.bytes.length ≤ 3 := by omega
    obtain ⟨address, bytes, behind⟩ :=
      read_columns given few (if index = 0 then (remark row).toList else [])
    rw [printed]
    refine ⟨?_, room, bytes.trans group, behind⟩
    rw [address, addressed, UInt16.toNat_add, UInt16.toNat_ofNat']
    omega
  exact {
    count := length_rowLines row
    address := fun _ _ found => ⟨(each found).1, (each found).2.1⟩
    bytes := fun _ _ found => (each found).2.2.1
    remarked := fun _ _ found => (each found).2.2.2
    said := by
      intro line found
      rw [(each found).2.2.2, if_pos rfl]
      exact printed_remark row
  }

/-- The lines that show a row hold all its bytes in order. -/
theorem RowShown.flatMap_byteColumns (shown : RowShown row lines)
    : lines.flatMap byteColumns = row.bytes := by
  have groups : lines.map byteColumns = inThrees row.bytes := by
    apply List.ext_getElem
    · rw [List.length_map, shown.count, length_inThrees]
    · intro index inside inside'
      rw [List.getElem_map, shown.bytes index _ (List.getElem?_eq_getElem _)]
      exact (getElem?_inThrees (List.getElem?_eq_getElem _)).1.symm
  rw [List.flatMap_def, groups, flatten_inThrees]

-----------------------------------------------------------------------------------------
-- Tables
-----------------------------------------------------------------------------------------

/-- The blocks of rows that follow a row of a file, or no row. -/
def blocks (file? : Option String) : List Row → List Block
  | [] => []
  | row :: rest =>
      ⟨if file? = some row.pos.file then none else some (headingLine row.pos.file), rowLines row⟩
        :: blocks (some row.pos.file) rest

theorem toList_dumpRows (file? : Option String) (rows : List Row)
    : (dumpRows file? rows).toList = ended ((blocks file? rows).flatMap Block.all) := by
  induction rows generalizing file? with
  | nil => rfl
  | cons row rest ih =>
      have heading : (fileHeading row.pos.file).toList = headingLine row.pos.file ++ ['\n'] := by
        simp [fileHeading, headingLine]
      rw [dumpRows, String.toList_append, String.toList_append, toList_rowText, ih]
      by_cases same : file? = some row.pos.file
      · simp [blocks, Block.all, ended, same]
      · simp [blocks, Block.all, ended, same, heading]

theorem length_blocks (file? : Option String) (rows : List Row)
    : (blocks file? rows).length = rows.length := by
  induction rows generalizing file? with
  | nil => rfl
  | cons row rest ih => simp [blocks, ih]

theorem flatMap_lines_blocks (file? : Option String) (rows : List Row)
    : (blocks file? rows).flatMap (·.lines) = rows.flatMap rowLines := by
  induction rows generalizing file? with
  | nil => rfl
  | cons row rest ih => simp [blocks, ih]

/-- Every block belongs to a row. -/
theorem exists_of_mem_blocks {file? : Option String} {rows : List Row} {block : Block}
    (member : block ∈ blocks file? rows)
    : ∃ row ∈ rows,
        (∀ heading ∈ block.heading?, heading = headingLine row.pos.file)
        ∧ block.lines = rowLines row := by
  induction rows generalizing file? with
  | nil => cases member
  | cons row rest ih =>
      rcases List.mem_cons.mp member with rfl | later
      · refine ⟨row, by simp, ?_, rfl⟩
        by_cases same : file? = some row.pos.file <;> simp [same]
      · obtain ⟨other, listed, shown⟩ := ih later
        exact ⟨other, by simp [listed], shown⟩

/-- The block of a row, which follows the row before it, or what came before all of them. -/
theorem getElem?_blocks {file? : Option String} {rows : List Row} {index : Nat} {block : Block}
    (listed : rows[index]? = some row) (found : (blocks file? rows)[index]? = some block)
    : block.heading?
        = (if ((before? rows index).map (·.pos.file)).or file? = some row.pos.file then none
          else some (headingLine row.pos.file))
      ∧ block.lines = rowLines row := by
  induction rows generalizing file? index with
  | nil => simp at listed
  | cons first rest ih =>
      cases index with
      | zero =>
          obtain rfl := Option.some.inj listed
          obtain rfl := Option.some.inj found
          exact ⟨rfl, rfl⟩
      | succ index =>
          have listed : rest[index]? = some row := by simpa using listed
          obtain ⟨heading, shown⟩ := ih listed (by simpa [blocks] using found)
          refine ⟨?_, shown⟩
          rw [heading]
          cases index with
          | zero => rfl
          | succ index =>
              have inside : index < rest.length := by
                have inside := (List.getElem?_eq_some_iff.mp listed).1
                omega
              simp [before?, List.getElem?_eq_getElem inside]

-----------------------------------------------------------------------------------------
-- Line feeds
-----------------------------------------------------------------------------------------

/-- The digits of a number hold no line feed. -/
theorem feed_notMem_digits (width n : Nat)
    : '\n' ∉ Hex.digits width n := by
  intro member
  have digit := List.all_eq_true.mp (Hex.all_isDigit_digits width n) _ member
  exact absurd digit (by decide)

theorem feed_notMem_decimal (n : Nat)
    : '\n' ∉ (decimal n).toList := by
  intro member
  rw [decimal, String.toList_ofList] at member
  exact absurd (Nat.isDigit_of_mem_toDigits (by decide) (by decide) member) (by decide)

theorem feed_notMem_columns (line : ByteLine)
    : '\n' ∉ line.columns.toList := by
  have cells : '\n' ∉ (String.intercalate " " (line.bytes.map Hex.byte)).toList := by
    rw [Source.toList_intercalate_blank]
    apply Source.lineFeed_notMem_joined
    intro text member
    obtain ⟨b, -, rfl⟩ := List.mem_map.mp member
    rw [Hex.byte, String.toList_ofList]
    exact feed_notMem_digits 2 b.toNat
  rw [ByteLine.columns, padRight]
  simp only [String.toList_append, List.mem_append, cells]
  simp [Hex.word, blanks, feed_notMem_digits]

/-- The two parts of a text are cut out of it. -/
theorem mem_splitHead {text : String} {c : Char}
    (member : c ∈ (splitHead text).1.toList ∨ c ∈ (splitHead text).2.toList)
    : c ∈ text.toList := by
  simp only [splitHead, String.toList_ofList] at member
  rcases member with head | tail
  · exact (List.takeWhile_prefix _).subset head
  · exact (List.dropWhile_suffix _).subset (List.mem_of_mem_drop tail)

theorem feed_notMem_paint (ink : Ink) {text : String} (single : '\n' ∉ text.toList)
    : '\n' ∉ (ink.paint text).toList := by
  cases ink <;> simp [Ink.paint, Ink.on, Ink.off, Ink.sequence, single]

theorem feed_notMem_statementText (single : OneLine row)
    : '\n' ∉ (statementText row).toList := by
  have head : '\n' ∉ (splitHead row.text).1.toList :=
    fun member => single.text (mem_splitHead (.inl member))
  have tail : '\n' ∉ (splitHead row.text).2.toList :=
    fun member => single.text (mem_splitHead (.inr member))
  unfold statementText
  cases referred : row.reference? with
  | none =>
      dsimp only
      split
      · simp [feed_notMem_paint, head, tail]
      · simp [feed_notMem_paint, head, tail, padRight, blanks, Ink.on, Ink.sequence]
  | some name =>
      have named := single.reference name referred
      dsimp only
      split
      · simp [feed_notMem_paint, head, tail, named]
      · simp [feed_notMem_paint, head, tail, named, padRight, blanks, Ink.on, Ink.sequence]

/-- The lines of a row have no line feed in them. -/
theorem feed_notMem_rowLines (single : OneLine row)
    : ∀ line ∈ rowLines row, '\n' ∉ line := by
  intro line member
  obtain ⟨index, found⟩ := List.mem_iff_getElem?.mp member
  obtain ⟨shown, -, printed⟩ := getElem?_rowLines found
  have behind : '\n' ∉ (remark row).toList := by
    simp [remark, padLeft, blanks, feed_notMem_decimal, feed_notMem_statementText single]
  rw [printed]
  split
  · simp [feed_notMem_columns, behind]
  · simp [feed_notMem_columns]

theorem feed_notMem_headingLine {file : String} (single : '\n' ∉ file.toList)
    : '\n' ∉ headingLine file := by
  simp [headingLine, hyphens, single]

-----------------------------------------------------------------------------------------
-- Listings
-----------------------------------------------------------------------------------------

/-- A listing inside the address space is printed as a table that shows its rows. -/
theorem tabled_of_fits {rows : List Row} (fits : ∀ row ∈ rows, row.Fits)
    : Tabled rows (blocks none rows) (dump rows) := by
  have shown : ∀ (index : Nat) row block, rows[index]? = some row
      → (blocks none rows)[index]? = some block → block.Shows (before? rows index) row := by
    intro index row block listed found
    obtain ⟨heading, same⟩ := getElem?_blocks listed found
    refine ⟨by simpa using heading, ?_⟩
    rw [same]
    exact rowShown_of_fits (fits row (List.mem_of_getElem? listed))
  refine ⟨?_, length_blocks none rows, shown, ?_, ?_⟩
  · simp [dump, toList_dumpRows, ended, closingLine]
  · rw [flatMap_lines_blocks, List.flatMap_assoc]
    apply List.flatMap_congr
    intro row listed
    exact (rowShown_of_fits (fits row listed)).flatMap_byteColumns
  · intro single line member
    obtain ⟨block, listed, member⟩ := List.mem_flatMap.mp member
    obtain ⟨row, among, headed, same⟩ := exists_of_mem_blocks listed
    rcases List.mem_append.mp member with heading | inside
    · rw [headed line (by simpa using heading)]
      exact feed_notMem_headingLine (single row among).file
    · rw [same] at inside
      exact feed_notMem_rowLines (single row among) line inside

/-- The dump of a listing shows every byte once, at its address and in its turn. Rows inside the
address space are printed in blocks of one line for every three bytes, and all rows that are
assembled are inside it.
-/
theorem dump_tabled
    : (∀ rows : List Row, (∀ row ∈ rows, row.address.toNat + row.bytes.length ≤ 0x10000)
        → ∃ blocks, Tabled rows blocks (dump rows))
      ∧ ∀ (assembler : Assembler) (file code : String) (base : UInt16) (output : Output),
          (assembler.runSource file code base).2 = .ok output
          → ∀ row ∈ output.rows, row.address.toNat + row.bytes.length ≤ 0x10000 := by
  constructor
  · intro rows fits
    exact ⟨_, tabled_of_fits fits⟩
  · intro assembler file code base output succeeded row member
    obtain ⟨tokens, log, -, assembled⟩ := Assembly.expand_of_runSource succeeded
    obtain ⟨firsts, seconds, passes, -, rfl⟩ := Assembly.twoPass_eq_ok_iff.mp assembled
    exact passes.assemble.fits member

theorem dump_tabled_last
    : ∃ output blocks,
        (Assembly.smallAssembler.runSource "t" ".org $FFFC .byte $01 $02 $03 $04" 0xC000).2
          = .ok output
        ∧ output.rows = [⟨0xFFFC, [1, 2, 3, 4], ".byte $01 $02 $03 $04", none, ⟨"t", 0, 11⟩⟩]
        ∧ Tabled output.rows blocks (dump output.rows) := by
  have evaluated : (Assembly.smallAssembler.runSource "t" ".org $FFFC .byte $01 $02 $03 $04"
        0xC000).2.toOption.map (·.rows)
      = some [⟨0xFFFC, [1, 2, 3, 4], ".byte $01 $02 $03 $04", none, ⟨"t", 0, 11⟩⟩] := by
    decide +kernel
  obtain ⟨output, succeeded, listed⟩ := Option.map_eq_some_iff.mp evaluated
  have succeeded := Assembly.eq_ok_of_toOption succeeded
  obtain ⟨blocks, tabled⟩ := dump_tabled.1 output.rows (dump_tabled.2 _ _ _ _ output succeeded)
  exact ⟨output, blocks, succeeded, listed, tabled⟩

end Asm6510.Report
