import Asm6510.Assembly.Effect

/-! How far a pass has got, and how each statement takes it further. -/

namespace Asm6510.Assembly

open Machine (InstructionSet)
open Report (Log Message)
open Source (Position)

/-- The number of addresses. The counter reaches it once the last address holds a byte. -/
def addressSpace : Nat :=
  0x10000

/-- The state of a pass between two statements. -/
structure Progress where
  /-- The address of the next byte. -/
  counter : Nat
  /-- The names declared so far. -/
  symbols : Symbols := {}
  /-- The bytes emitted so far. -/
  bytes : Array UInt8 := #[]
  /-- The rows of the listing so far. -/
  rows : Array Row := #[]
  /-- The counter before each statement that was carried out. -/
  starts : Array Nat := #[]
  /-- The messages so far. -/
  log : Log := {}
deriving DecidableEq, Repr

namespace Progress

/-- Checks the address of a statement that stands for one: it must be an address, and it must
be the one measured before, if there is one.
-/
def checkStart (progress : Progress) (expected? : Option Nat) (statement : Statement)
    : Except Cause Unit :=
  if statement.isAnchored then
    if addressSpace ≤ progress.counter then .error .addressOverflow
    else
      match expected? with
      | some expected =>
          if expected = progress.counter then .ok ()
          else .error (.addressDrift expected progress.counter)
      | none => .ok ()
  else
    .ok ()

/-- The message about a new declaration. -/
def declared (name : String) (symbol : Symbol) (pos : Position) : Message :=
  match symbol with
  | .label address => .diag ("label `" ++ name ++ "` = $" ++ Text.Hex.word address) pos
  | .assigned text => .diag ("variable `" ++ name ++ "` = `" ++ text ++ "`") pos

/-- What a statement changes: where the counter goes, and what is added. -/
structure Change where
  counter : Nat
  declaration? : Option Declaration := none
  row? : Option Row := none
deriving DecidableEq, Repr

/-- The change that declares a name. When the name is taken, the log points at its first
declaration.
-/
def declare (progress : Progress) (name : String) (symbol : Symbol) (pos : Position)
    : Logged Change :=
  match progress.symbols.pos? name with
  | some first => do
      Logged.note ⟨.error, "`" ++ name ++ "` first declared here", some first⟩
      Logged.stop (.duplicateSymbol name)
  | none => do
      Logged.note (declared name symbol pos)
      return { counter := progress.counter, declaration? := some ⟨name, pos, symbol⟩ }

/-- The change that moves the counter past a row, which must fit below the end of the address
space. Only the second pass keeps the row.
-/
def emit (progress : Progress) (pass : Pass) (row : Row) : Except Cause Change :=
  let counter := progress.counter + row.bytes.length
  if addressSpace < counter then .error .addressOverflow
  else
    match pass with
    | .prescan => .ok { counter }
    | .assemble => .ok { counter, row? := some row }

/-- The change that an effect amounts to. Names are declared, and tokens reported as ignored,
in the first pass.
-/
def change (progress : Progress) (pass : Pass) (statement : Statement)
    : Effect → Logged Change
  | .moveTo address => return { counter := address.toNat }
  | .declare name symbol =>
      match pass with
      | .prescan => progress.declare name symbol statement.pos
      | .assemble => return { counter := progress.counter }
  | .emit row => Logged.ofExcept (progress.emit pass row)
  | .ignore =>
      match pass with
      | .prescan => do
          Logged.note
            (.warn ("ignored token `" ++ statement.head.text ++ "`") statement.pos)
          return { counter := progress.counter }
      | .assemble => return { counter := progress.counter }

/-- What carrying out a statement changes. -/
def attempt (progress : Progress) (set : InstructionSet) (pass : Pass)
    (expected? : Option Nat) (statement : Statement) : Logged Change := do
  Logged.ofExcept (progress.checkStart expected? statement)
  let effect ← statement.effect set pass progress.symbols (UInt16.ofNat progress.counter)
  progress.change pass statement effect

/-- The state after a change. -/
def advance (progress : Progress) (change : Change) : Progress where
  counter := change.counter
  symbols :=
    match change.declaration? with
    | some declaration => progress.symbols.push declaration
    | none => progress.symbols
  bytes :=
    match change.row? with
    | some row => progress.bytes.appendList row.bytes
    | none => progress.bytes
  rows :=
    match change.row? with
    | some row => progress.rows.push row
    | none => progress.rows
  starts := progress.starts.push progress.counter
  log := progress.log

/-- The state with more messages in its log. -/
def noting (progress : Progress) (messages : List Message) : Progress :=
  { progress with log := progress.log.append messages }

/-- Carries out a statement. A statement that fails changes nothing but the log, and its fault
is placed at its first token unless it has a place.
-/
def step (progress : Progress) (set : InstructionSet) (pass : Pass)
    (expected? : Option Nat) (statement : Statement) : Progress × Option Fault :=
  match progress.attempt set pass expected? statement with
  | ⟨messages, .ok change⟩ => ((progress.advance change).noting messages, none)
  | ⟨messages, .error fault⟩ =>
      (progress.noting messages, some (fault.located statement.pos))

/-- Carries out statements, each with the address measured for it if there is one, up to the
first that fails.
-/
def walk (set : InstructionSet) (pass : Pass)
    : List (Statement × Option Nat) → Progress → Progress × Option Fault
  | [], progress => (progress, none)
  | (statement, expected?) :: rest, progress =>
      match progress.step set pass expected? statement with
      | (next, none) => walk set pass rest next
      | (next, some fault) => (next, some fault)

/-- The first pass. -/
def prescan (progress : Progress) (set : InstructionSet) (statements : List Statement)
    : Progress × Option Fault :=
  walk set .prescan (statements.map (·, none)) progress

/-- The second pass. It starts over at `base` with the symbols of the first, and must find each
statement, and the end, where the first pass found it.
-/
def assemble (measured : Progress) (set : InstructionSet) (statements : List Statement)
    (base : UInt16) : Progress × Option Fault :=
  let expected := statements.zip (measured.starts.toList.map some)
  match walk set .assemble expected
      { measured with counter := base.toNat, bytes := #[], rows := #[], starts := #[] } with
  | (done, some fault) => (done, some fault)
  | (done, none) =>
      if done.counter = measured.counter then (done, none)
      else (done, some ⟨.addressDrift measured.counter done.counter, []⟩)

end Progress

end Asm6510.Assembly
