import Asm6510.Text.Measure
import Asm6510.Yaml.Number

/-! Texts as YAML scalars: plain where that is unambiguous, else in single quotes, and in
double quotes where a character has to be escaped.
-/

namespace Asm6510.Yaml

open Text

/-- Whether a character can stand for itself. -/
def isPrintable (c : Char) : Bool :=
  let code := c.toNat
  (0x20 ≤ code && code ≤ 0x7E)
    || (0xA0 ≤ code && code != 0xFEFF && code != 0xFFFE && code != 0xFFFF)

/-- The words that stand for something other than their text. -/
def reservedWords : List String :=
  ["null", "Null", "NULL", "~", "true", "True", "TRUE", "false", "False", "FALSE"]

/-- Whether a plain text would be read as something other than text. -/
def isAmbiguous (text : String) : Bool :=
  text == "" || reservedWords.contains text || isNumeric text.toList

/-- The characters that no plain text starts with. -/
def indicators : List Char :=
  ['#', ',', '[', ']', '\x7b', '\x7d', '&', '*', '!', '|', '>', '\x27', '"', '%', '@', '\x60']

/-- Whether a text starts with a blank or is at its end. -/
def endsWord : List Char → Bool
  | [] => true
  | c :: _ => c = ' '

/-- Whether a text can start plain. -/
def startsPlain : List Char → Bool
  | [] => true
  | c :: rest =>
      c != ' ' && !indicators.contains c
        && !((c = '-' || c = '?' || c = ':') && endsWord rest)

/-- Whether a text goes on plain: a colon does not end a word, and a hash does not start one. -/
def continuesPlain (afterBlank : Bool) : List Char → Bool
  | [] => true
  | c :: rest =>
      !(c = ':' && endsWord rest) && !(c = '#' && afterBlank)
        && continuesPlain (c = ' ') rest

/-- Whether a text starts like a mark between documents. -/
def isDocumentMark (cs : List Char) : Bool :=
  ['-', '-', '-'].isPrefixOf cs || ['.', '.', '.'].isPrefixOf cs

/-- Whether a text keeps its form without quotes. -/
def isPlain (cs : List Char) : Bool :=
  !isDocumentMark cs && startsPlain cs && continuesPlain false cs
    && cs.getLast? != some ' '

/-- A character inside double quotes. -/
def escape (c : Char) : String :=
  if isPrintable c && c != '"' && c != '\\' then c.toString
  else
    match c.toNat with
    | 0x00 => "\\0"
    | 0x07 => "\\a"
    | 0x08 => "\\b"
    | 0x09 => "\\t"
    | 0x0A => "\\n"
    | 0x0B => "\\v"
    | 0x0C => "\\f"
    | 0x0D => "\\r"
    | 0x1B => "\\e"
    | 0x22 => "\\\""
    | 0x5C => "\\\\"
    | 0x85 => "\\N"
    | code =>
        if code ≤ 0xFF then "\\x" ++ Hex.numeral 2 code
        else if code ≤ 0xFFFF then "\\u" ++ Hex.numeral 4 code
        else "\\U" ++ Hex.numeral 8 code

/-- A text in double quotes. -/
def doubleQuoted (text : String) : String :=
  "\"" ++ String.join (text.toList.map escape) ++ "\""

/-- A text in single quotes, where a quote is written twice. -/
def singleQuoted (text : String) : String :=
  "'" ++ String.ofList (text.toList.flatMap fun c => if c = '\x27' then [c, c] else [c])
    ++ "'"

/-- A text as a scalar. -/
def scalar (text : String) : String :=
  if !text.toList.all isPrintable then doubleQuoted text
  else if isAmbiguous text || !isPlain text.toList then singleQuoted text
  else text

/-- The most bytes of a key that can stand on one line with its value. -/
def keyLimit : Nat :=
  128

/-- The fields of a record, each on a line of its own. The first line is not indented. -/
def fields (entries : List (String × String)) : String :=
  String.intercalate "\n  " (entries.map fun entry => scalar entry.1 ++ ": " ++ scalar entry.2)
    ++ "\n"

/-- A key with its record. A long key is marked, and so is its record. -/
def entry (key : String) (record : List (String × String)) : String :=
  if key.utf8ByteSize ≤ keyLimit then scalar key ++ ":\n  " ++ fields record
  else "? " ++ scalar key ++ "\n: " ++ fields record

/-- A mapping from keys to records. -/
def mapping (entries : List (String × List (String × String))) : String :=
  match entries with
  | [] => "\x7b\x7d\n"
  | _ => String.join (entries.map fun item => entry item.1 item.2)

end Asm6510.Yaml
