import Asm6510.Assembly.Assembler
import Asm6510.Command.FileSystem
import Asm6510.Command.Options
import Asm6510.Report.Diagnosis
import Asm6510.Report.Dump
import Asm6510.Report.SymbolTable

/-! The command: it assembles a file, reports on it, and writes the image and the symbols.

Assembling only reads, so that all which is printed and written afterwards can be planned
first and carried out in one go.
-/

namespace Asm6510.Command

open Assembly (Assembler Output)
open Machine (InstructionSet)
open Source (Library Path)
open Text

/-- A file to be written. -/
structure Writing where
  path : Path
  contents : List UInt8
deriving DecidableEq, Repr

/-- What is printed at first, the files written after that, and whether assembling succeeded. -/
structure Plan where
  report : String
  writings : List Writing
  success : Bool
deriving DecidableEq, Repr

/-- What is printed before assembling. -/
def banner (input : Path) : String :=
  "6510 Assembler\n1. Read Files and Assemble\n  < " ++ input.text ++ "\n"

/-- The line about the output. -/
def summary (output : Output) : String :=
  "  " ++ Ink.green.paint ("$" ++ Hex.word output.origin) ++ " "
    ++ decimal output.bytes.length ++ " bytes, "
    ++ decimal output.symbols.size ++ " symbols\n"

/-- Whether the listing is printed: when it is asked for or the log is detailed, and there is
something to list.
-/
def showsListing (options : Options) (output : Output) : Bool :=
  (options.dump || Report.Level.info.code ≤ options.level.code) && !output.rows.isEmpty

/-- The image file of an input, next to it. -/
def imagePath (options : Options) : Path :=
  options.output?.getD (options.input.withExtension "prg")

/-- The files to be written: the image, and the symbols if they are asked for. -/
def writings (options : Options) (output : Output) : List Writing :=
  ⟨imagePath options, if options.raw then output.bytes else output.image⟩
    :: options.symbols?.toList.map fun path =>
      ⟨path, encode (Report.symbolTable output.symbols)⟩

/-- Assembles, and plans what follows. -/
def plan (options : Options) (library : Library) : Plan :=
  let start : Assembler := { set := InstructionSet.cpu6510, library }
  let (assembler, outcome) := start.runFile options.input options.base
  let report := banner options.input ++ assembler.log.print options.level assembler.sources
  match outcome with
  | .error fault =>
      ⟨report ++ Report.diagnosis fault assembler.sources, [], false⟩
  | .ok output =>
      let listed := if showsListing options output then Report.dump output.rows else ""
      let report := report ++ listed ++ summary output
      if options.noWrite then ⟨report, [], true⟩
      else ⟨report ++ "2. Write Image\n", writings options output, true⟩

/-- How a file is stored and how a text is printed. -/
structure Outlet (m : Type → Type) where
  print : String → m Unit
  store : Path → List UInt8 → m (Except Cause Unit)

/-- Writes files one after the other, announcing each, up to the first that fails. -/
def writeAll {m : Type → Type} [Monad m] (outlet : Outlet m) : List Writing → m Bool
  | [] => return true
  | writing :: rest => do
      outlet.print ("  > " ++ writing.path.text ++ "\n")
      match ← outlet.store writing.path writing.contents with
      | .ok () => writeAll outlet rest
      | .error cause => do
          outlet.print (Report.diagnosis ⟨cause, []⟩ Source.Sources.empty)
          return false

/-- Carries out a plan, and tells whether all of it succeeded. -/
def Plan.perform {m : Type → Type} [Monad m] (outlet : Outlet m) (plan : Plan) : m Bool := do
  outlet.print plan.report
  let written ← writeAll outlet plan.writings
  return plan.success && written

/-- What the command prints for its version. -/
def versionText : String :=
  "retroasm 0.1.0\n"

/-- Runs the command on sources that are already loaded, however its arguments are read. The exit
code is zero for success, one for a failed run, and two for wrong arguments, which print nothing
here.
-/
def commandWith {m : Type → Type} [Monad m] (parse : List String → Except Halt Options)
    (outlet : Outlet m) (library : Library) (arguments : List String) : m UInt32 := do
  match parse arguments with
  | .error .usage => return 2
  | .error .version => do
      outlet.print versionText
      return 0
  | .ok options => do
      let success ← (plan options library).perform outlet
      return if success then 0 else 1

/-- Runs the command with its own reading of the arguments. -/
def command {m : Type → Type} [Monad m] (outlet : Outlet m) (library : Library)
    (arguments : List String) : m UInt32 :=
  commandWith Options.parse outlet library arguments

/-- A file system, and what was printed. -/
structure World where
  files : FileSystem
  printed : String := ""

/-- Printing and writing inside a world. -/
def World.outlet : Outlet (StateM World) where
  print text := modify fun world => { world with printed := world.printed ++ text }
  store path contents := do
    let world ← get
    match world.files.write path contents with
    | .ok files => do
        set { world with files }
        return .ok ()
    | .error cause => return .error cause

/-- Runs the command on a file system, however its arguments are read, and returns its exit code
with what it left behind.
-/
def runWith (parse : List String → Except Halt Options) (arguments : List String)
    (files : FileSystem) : UInt32 × World :=
  (commandWith parse World.outlet files.library arguments).run { files }

/-- Runs the command on a file system with its own reading of the arguments. -/
def run (arguments : List String) (files : FileSystem) : UInt32 × World :=
  runWith Options.parse arguments files

end Asm6510.Command
