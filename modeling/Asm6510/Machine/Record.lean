import Asm6510.Machine.Instruction
import Asm6510.Text.Measure

/-! Instructions as records in JSON. -/

namespace Asm6510.Machine

namespace Record

/-- A lower-case hexadecimal digit. -/
def lowerHex (n : Nat) : Char :=
  if n < 10 then Char.ofNat (48 + n) else Char.ofNat (87 + n)

/-- A character inside a quoted text. Quotes, backslashes and control characters are escaped,
and the common ones of these have a short form.
-/
def escape (c : Char) : List Char :=
  match c with
  | '"' => ['\\', '"']
  | '\\' => ['\\', '\\']
  | '\x08' => ['\\', 'b']
  | '\t' => ['\\', 't']
  | '\n' => ['\\', 'n']
  | '\x0c' => ['\\', 'f']
  | '\r' => ['\\', 'r']
  | _ =>
      if c.toNat < 32 then
        ['\\', 'u', '0', '0', lowerHex (c.toNat / 16), lowerHex (c.toNat % 16)]
      else
        [c]

/-- A quoted text. -/
def quote (text : String) : String :=
  "\"" ++ String.ofList (text.toList.flatMap escape) ++ "\""

/-- A record of fields whose values are already written. -/
def fields (entries : List (String × String)) : String :=
  "\x7b"
    ++ String.intercalate "," (entries.map fun entry => quote entry.1 ++ ":" ++ entry.2)
    ++ "\x7d"

end Record

/-- An instruction as a record, its modes in the order of their binding. -/
def Instruction.record (instruction : Instruction) : String :=
  Record.fields
    [("mnemonic", Record.quote instruction.mnemonic),
      ("description", Record.quote instruction.description),
      ("modes",
        Record.fields (instruction.modes.map fun bound =>
          (bound.1.name, Text.decimal bound.2.toNat)))]

end Asm6510.Machine
