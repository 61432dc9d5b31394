import Asm6510.Report.Log
import Asm6510.Source.Path
import Asm6510.Text.Hex

/-! The arguments of the command. They are read from left to right, and the first that is
wrong, or asks for the version, ends the reading.
-/

namespace Asm6510.Command

open Report (Level)
open Source (Path)
open Text

/-- What the command is asked to do. -/
structure Options where
  input : Path
  base : UInt16
  output? : Option Path
  level : Level
  dump : Bool
  noWrite : Bool
  raw : Bool
  symbols? : Option Path
deriving DecidableEq, Repr

-----------------------------------------------------------------------------------------
-- Values
-----------------------------------------------------------------------------------------

/-- Text with its first matching start taken off. -/
def stripOne (starts : List String) (cs : List Char) : List Char :=
  (starts.findSome? fun start => start.toList.isPrefixOf? cs).getD cs

/-- A base address: hexadecimal digits for a word, after an optional mark and an optional plus
sign.
-/
def base? (text : String) : Option UInt16 :=
  let digits := stripOne ["+"] (stripOne ["$", "0x", "0X"] text.toList)
  if !digits.isEmpty && digits.all Hex.isDigit && Hex.ofDigits digits < 0x10000 then
    some (UInt16.ofNat (Hex.ofDigits digits))
  else
    none

/-- A log level: a decimal number from 0 to 3, signed or not. -/
def level? (text : String) : Option Level :=
  let (negative, digits) :=
    match text.toList with
    | '-' :: rest => (true, rest)
    | '+' :: rest => (false, rest)
    | cs => (false, cs)
  let code := digits.foldl (fun n c => 10 * n + (c.toNat - 48)) 0
  if digits.isEmpty || !digits.all Char.isDigit || (negative && code != 0) then none
  else (Level.ofCode code).toOption

/-- A path, which cannot be empty. -/
def path? (text : String) : Option Path :=
  if text == "" then none else some ⟨text⟩

-----------------------------------------------------------------------------------------
-- Switches
-----------------------------------------------------------------------------------------

/-- The options that take a value. -/
inductive Setting where
  | base
  | output
  | level
  | symbols
deriving DecidableEq, Repr

/-- The options that take none. -/
inductive Flag where
  | dump
  | noWrite
  | raw
deriving DecidableEq, Repr

/-- What an option is. -/
inductive Switch where
  | setting (setting : Setting)
  | flag (flag : Flag)
  | version
deriving DecidableEq, Repr

namespace Switch

/-- The option of a letter. -/
def ofLetter? : Char → Option Switch
  | 'b' => some (setting .base)
  | 'o' => some (setting .output)
  | 'l' => some (setting .level)
  | 's' => some (setting .symbols)
  | 'd' => some (flag .dump)
  | 'n' => some (flag .noWrite)
  | 'r' => some (flag .raw)
  | 'V' => some version
  | _ => none

/-- The option of a word, which is never shortened. -/
def ofWord? : String → Option Switch
  | "base" => some (setting .base)
  | "output" => some (setting .output)
  | "log" => some (setting .level)
  | "symbols" => some (setting .symbols)
  | "dump" => some (flag .dump)
  | "no-write" => some (flag .noWrite)
  | "raw" => some (flag .raw)
  | "version" => some version
  | _ => none

end Switch

-----------------------------------------------------------------------------------------
-- What has been given so far
-----------------------------------------------------------------------------------------

/-- Why the arguments lead to no run. -/
inductive Halt where
  /-- An argument is wrong or missing. -/
  | usage
  /-- The version is asked for. -/
  | version
deriving DecidableEq, Repr

/-- The arguments read so far. Nothing can be given twice. -/
structure Given where
  input? : Option Path := none
  base? : Option UInt16 := none
  output? : Option Path := none
  level? : Option Level := none
  symbols? : Option Path := none
  dump : Bool := false
  noWrite : Bool := false
  raw : Bool := false
deriving DecidableEq, Repr

namespace Given

/-- A value that is well-formed and not given yet. -/
def fresh {α : Type} (present? : Option α) (value? : Option α) : Except Halt (Option α) :=
  match present?, value? with
  | none, some value => .ok (some value)
  | _, _ => .error .usage

/-- Gives an option its value. -/
def set (given : Given) (setting : Setting) (text : String) : Except Halt Given :=
  match setting with
  | .base => do return { given with base? := ← fresh given.base? (Command.base? text) }
  | .output => do return { given with output? := ← fresh given.output? (path? text) }
  | .level => do return { given with level? := ← fresh given.level? (Command.level? text) }
  | .symbols => do return { given with symbols? := ← fresh given.symbols? (path? text) }

/-- Raises a flag. -/
def raise (given : Given) (flag : Flag) : Except Halt Given :=
  match flag with
  | .dump => if given.dump then .error .usage else .ok { given with dump := true }
  | .noWrite => if given.noWrite then .error .usage else .ok { given with noWrite := true }
  | .raw => if given.raw then .error .usage else .ok { given with raw := true }

/-- Names the input. -/
def name (given : Given) (text : String) : Except Halt Given := do
  return { given with input? := ← fresh given.input? (path? text) }

/-- The options given, with the defaults for those that were not. The input has none. -/
def options (given : Given) : Except Halt Options :=
  match given.input? with
  | none => .error .usage
  | some input =>
      .ok {
        input
        base := given.base?.getD 0xC000
        output? := given.output?
        level := given.level?.getD .warn
        dump := given.dump
        noWrite := given.noWrite
        raw := given.raw
        symbols? := given.symbols?
      }

end Given

-----------------------------------------------------------------------------------------
-- Arguments
-----------------------------------------------------------------------------------------

/-- Whether an argument is written as an option. A single hyphen is not. -/
def isOption (argument : String) : Bool :=
  match argument.toList with
  | '-' :: _ :: _ => true
  | _ => false

/-- Reads the letters behind a hyphen. The rest after a letter that takes a value is its value,
behind an optional equals sign; without a rest the value is still awaited.
-/
def readLetters (given : Given) : List Char → Except Halt (Given × Option Setting)
  | [] => .ok (given, none)
  | letter :: rest =>
      match Switch.ofLetter? letter with
      | none => .error .usage
      | some .version => .error .version
      | some (.flag flag) =>
          match given.raise flag with
          | .ok raised => readLetters raised rest
          | .error halt => .error halt
      | some (.setting setting) =>
          match rest with
          | [] => .ok (given, some setting)
          | value => do
              return (← given.set setting (String.ofList (stripOne ["="] value)), none)

/-- Reads the word behind two hyphens, with its value behind an equals sign. -/
def readWord (given : Given) (cs : List Char) : Except Halt (Given × Option Setting) :=
  let word := String.ofList (cs.takeWhile (· != '='))
  let value? :=
    match cs.dropWhile (· != '=') with
    | [] => none
    | _ :: value => some (String.ofList value)
  match Switch.ofWord? word, value? with
  | some (.setting setting), some value => do return (← given.set setting value, none)
  | some (.setting setting), none => .ok (given, some setting)
  | some (.flag flag), none => do return (← given.raise flag, none)
  | some .version, none => .error .version
  | _, _ => .error .usage

/-- Reads an argument: an option, or the input. -/
def readArgument (given : Given) (argument : String) : Except Halt (Given × Option Setting) :=
  match argument.toList with
  | '-' :: '-' :: word => readWord given word
  | '-' :: letter :: letters => readLetters given (letter :: letters)
  | _ => do return (← given.name argument, none)

/-- Reads the arguments. A value that is still awaited is the next argument, unless that is
written as an option; two hyphens alone end the options.
-/
def readArguments (given : Given) (awaited? : Option Setting) : List String → Except Halt Given
  | [] => if awaited?.isSome then .error .usage else .ok given
  | argument :: rest =>
      match awaited? with
      | some setting =>
          if isOption argument then .error .usage
          else
            match given.set setting argument with
            | .ok next => readArguments next none rest
            | .error halt => .error halt
      | none =>
          if argument == "--" then rest.foldlM Given.name given
          else
            match readArgument given argument with
            | .ok (next, awaiting?) => readArguments next awaiting? rest
            | .error halt => .error halt

/-- The options in a list of arguments. -/
def Options.parse (arguments : List String) : Except Halt Options := do
  (← readArguments {} none arguments).options

end Asm6510.Command
