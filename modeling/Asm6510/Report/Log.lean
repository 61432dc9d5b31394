import Asm6510.Report.Excerpt

/-! The messages of a run, and how they are printed. -/

namespace Asm6510.Report

open Source (Position Sources)
open Text

/-- How important a message is, the most important first. -/
inductive Level where
  | error
  | warn
  | info
  | diag
deriving DecidableEq, Repr

namespace Level

/-- The number a level is chosen by. -/
def code : Level → Nat
  | error => 0
  | warn => 1
  | info => 2
  | diag => 3

/-- A number that is no level's. -/
structure CodeError where
  code : Nat
deriving DecidableEq, Repr

/-- What the user is told. -/
def CodeError.message (wrong : CodeError) : String :=
  "No discriminant in enum `Level` matches the value `" ++ decimal wrong.code ++ "`"

/-- The level of a number. -/
def ofCode : Nat → Except CodeError Level
  | 0 => .ok error
  | 1 => .ok warn
  | 2 => .ok info
  | 3 => .ok diag
  | code => .error ⟨code⟩

/-- The word printed before a message. -/
def name : Level → String
  | error => "error"
  | warn => "warn"
  | info => "info"
  | diag => "diag"

/-- The word in its colour; all but the least important are bold. -/
def heading (level : Level) : String :=
  match level with
  | error => Ink.red.strong level.name
  | warn => Ink.yellow.strong level.name
  | info => Ink.green.strong level.name
  | diag => Ink.cyan.paint level.name

end Level

/-- A message, with the place it is about if there is one. -/
structure Message where
  level : Level
  text : String
  pos? : Option Position
deriving DecidableEq, Repr

namespace Message

/-- A warning about a place. -/
def warn (text : String) (pos : Position) : Message :=
  ⟨.warn, text, some pos⟩

/-- A remark on the whole run. -/
def info (text : String) : Message :=
  ⟨.info, text, none⟩

/-- A detail about a place. -/
def diag (text : String) (pos : Position) : Message :=
  ⟨.diag, text, some pos⟩

/-- The message as it is printed. Only a warning shows its place. -/
def print (message : Message) (sources : Sources) : String :=
  message.level.heading ++ ": " ++ message.text ++ "\n"
    ++ match message.level, message.pos? with
      | .warn, some pos => excerpt sources pos ""
      | _, _ => ""

end Message

/-- Messages in the order in which they came. -/
structure Log where
  messages : Array Message := #[]
deriving DecidableEq, Repr, Inhabited

namespace Log

/-- No messages. -/
def empty : Log :=
  {}

/-- One more message. -/
def push (log : Log) (message : Message) : Log :=
  ⟨log.messages.push message⟩

/-- More messages. -/
def append (log : Log) (messages : List Message) : Log :=
  ⟨log.messages.appendList messages⟩

/-- The messages at a level or above it. -/
def filter (log : Log) (level : Level) : List Message :=
  log.messages.toList.filter fun message => message.level.code ≤ level.code

/-- The messages at a level or above it, as they are printed. -/
def print (log : Log) (level : Level) (sources : Sources) : String :=
  String.join ((log.filter level).map fun message => message.print sources)

end Log

end Asm6510.Report
