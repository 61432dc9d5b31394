import Asm6510.Assembly.Progress
import Asm6510.Machine.Cpu6510
import Asm6510.Source.Expansion

/-! From a source to an image: expansion, the two passes, and an assembler that can be used
for one run after the other.
-/

namespace Asm6510.Assembly

open Machine (InstructionSet)
open Report (Log Message)
open Source (Library Path Sources Token)
open Text

/-- The result of a run. -/
structure Output where
  /-- Where the image is loaded: the first origin of the source, or the base address. -/
  origin : UInt16
  bytes : List UInt8
  symbols : Symbols
  rows : List Row
deriving DecidableEq, Repr

namespace Output

/-- The bytes behind their load address, low byte first. -/
def image (output : Output) : List UInt8 :=
  Operand.littleEndian output.origin ++ output.bytes

end Output

/-- Assembles expanded tokens, and returns the log with the output or the fault. -/
def twoPass (set : InstructionSet) (tokens : List Token) (base : UInt16) (log : Log)
    : Log × Except Fault Output :=
  let statements := statements set tokens
  match Progress.prescan { counter := base.toNat, log } set statements with
  | (stopped, some fault) => (stopped.log, .error fault)
  | (measured, none) =>
      let noted := measured.log.push (.info (decimal measured.symbols.size ++ " symbols"))
      match Progress.assemble { measured with log := noted } set statements base with
      | (stopped, some fault) => (stopped.log, .error fault)
      | (done, none) =>
          (done.log.push (.info (decimal done.bytes.size ++ " bytes")),
            .ok {
              origin := (Source.origin? tokens).getD base
              bytes := done.bytes.toList
              symbols := done.symbols
              rows := done.rows.toList
            })

/-- An assembler: its instruction set, where it loads sources from, the directory that included
files are looked for in, and what its last run left behind.
-/
structure Assembler where
  set : InstructionSet
  library : Library
  root : Path := ⟨"."⟩
  log : Log := {}
  sources : Sources := {}

namespace Assembler

/-- The name of a source that comes from no file. -/
def unnamed : String :=
  "<source>"

/-- The message about an expanded source. -/
def expanded (tokens : List Token) (sources : Sources) (base : UInt16) : Message :=
  .info (decimal tokens.length ++ " tokens from " ++ decimal sources.size
    ++ " file(s), origin $" ++ Hex.word ((Source.origin? tokens).getD base))

/-- Assembles a source under a file name. The log and the sources of the run replace those of
the last one, also when the run fails.
-/
def runSource (assembler : Assembler) (file code : String) (base : UInt16)
    : Assembler × Except Fault Output :=
  let expansion := Source.expand assembler.library assembler.root file code
  match expansion.outcome with
  | .error fault =>
      ({ assembler with log := Log.empty, sources := expansion.sources }, .error fault)
  | .ok tokens =>
      let opening := Log.empty.push (expanded tokens expansion.sources base)
      let (log, outcome) := twoPass assembler.set tokens base opening
      ({ assembler with log, sources := expansion.sources }, outcome)

/-- Assembles a file, whose directory becomes the place to look for included files. A file that
cannot be loaded leaves the assembler as it was.
-/
def runFile (assembler : Assembler) (path : Path) (base : UInt16)
    : Assembler × Except Fault Output :=
  match assembler.library.load path with
  | none => (assembler, .error ⟨.fileOpen path.text, []⟩)
  | some code =>
      let placed := { assembler with root := path.parent?.getD ⟨"."⟩ }
      placed.runSource (path.fileName?.getD path.text) code base

/-- Assembles a source that comes from no file, for its bytes. -/
def run (assembler : Assembler) (code : String) (base : UInt16)
    : Assembler × Except Fault (List UInt8) :=
  let (after, outcome) := assembler.runSource unnamed code base
  (after, outcome.map (·.bytes))

end Assembler

/-- Assembles a source for the 6510. -/
def assemble (library : Library) (code : String) (base : UInt16)
    : Except Fault (List UInt8) :=
  (Assembler.run { set := .cpu6510, library } code base).2

end Asm6510.Assembly
