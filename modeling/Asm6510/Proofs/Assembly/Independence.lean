import Asm6510.Proofs.Assembly.Passes

/-! One assembler used for one run after the other. Whatever its runs have left behind, the next
call depends on nothing but the directory of the file that was loaded last.
-/

namespace Asm6510.Assembly

open Machine (InstructionSet)
open Report (Log Message)
open Source (Expansion Library Path Sources Token)

-----------------------------------------------------------------------------------------
-- Calls and histories
-----------------------------------------------------------------------------------------

/-- A call on an assembler. -/
inductive Call where
  | run (code : String) (base : UInt16)
  | runSource (file code : String) (base : UInt16)
  | runFile (path : Path) (base : UInt16)
deriving DecidableEq, Repr

/-- What a call returns: the bytes alone, or the whole output. -/
inductive Answer where
  | bytes (outcome : Except Fault (List UInt8))
  | output (outcome : Except Fault Output)

/-- The answer that keeps the bytes alone. -/
def Answer.bytesOf (outcome : Except Fault Output) : Answer :=
  .bytes (outcome.map (·.bytes))

namespace Call

/-- The file that a call loads, if it loads one. -/
def loaded? (library : Library) : Call → Option Path
  | .runFile path _ => if (library.load path).isSome then some path else none
  | .run .. | .runSource .. => none

/-- Whether a call gets its source: only a file can fail to load. -/
def getsSource (library : Library) : Call → Bool
  | .runFile path _ => (library.load path).isSome
  | .run .. | .runSource .. => true

end Call

/-- The directory that a file makes the place to look for included files. -/
def directoryOf (path : Path) : Path :=
  path.parent?.getD ⟨"."⟩

/-- The directory of the last file that some calls load, or `root` if they load none. -/
def rootAfter (library : Library) (root : Path) (history : List Call) : Path :=
  ((history.filterMap (·.loaded? library)).getLast?.map directoryOf).getD root

namespace Assembler

/-- Makes a call. -/
def call (assembler : Assembler) : Call → Assembler × Answer
  | .run code base => (assembler.run code base).map id .bytes
  | .runSource file code base => (assembler.runSource file code base).map id .output
  | .runFile path base => (assembler.runFile path base).map id .output

/-- The assembler after some calls. -/
def after (assembler : Assembler) (history : List Call) : Assembler :=
  history.foldl (fun used next => (used.call next).1) assembler

end Assembler

variable {assembler : Assembler} {library : Library} {root : Path} {history : List Call}
  {next : Call}

-----------------------------------------------------------------------------------------
-- A run reads nothing that an earlier run has left
-----------------------------------------------------------------------------------------

/-- A call that gets its source is answered alike whatever log and sources it finds. -/
theorem call_relabelled (assembler : Assembler) (log : Log) (sources : Sources)
    (got : next.getsSource assembler.library = true)
    : ({ assembler with log, sources } : Assembler).call next = assembler.call next := by
  cases next with
  | run code base => rfl
  | runSource file code base => rfl
  | runFile path base =>
      obtain ⟨code, loaded⟩ := Option.isSome_iff_exists.mp got
      simp only [Assembler.call, Assembler.runFile, loaded]
      rfl

/-- A file that cannot be loaded leaves everything as it was. -/
theorem call_of_unloaded {path : Path} (missing : assembler.library.load path = none)
    (base : UInt16)
    : assembler.call (.runFile path base)
      = (assembler, .output (.error ⟨.fileOpen path.text, []⟩)) := by
  simp [Assembler.call, Assembler.runFile, missing]

theorem runSource_keeps (assembler : Assembler) (file code : String) (base : UInt16)
    : ∃ log sources, (assembler.runSource file code base).1 = { assembler with log, sources } := by
  unfold Assembler.runSource
  dsimp only
  split
  · exact ⟨_, _, rfl⟩
  · exact ⟨_, _, rfl⟩

/-- A call changes the log, the sources, and the root if it loads a file. -/
theorem call_keeps (assembler : Assembler) (next : Call)
    : ∃ log sources,
        (assembler.call next).1
        = { assembler with
            root := rootAfter assembler.library assembler.root [next], log, sources } := by
  cases next with
  | run code base => exact runSource_keeps assembler Assembler.unnamed code base
  | runSource file code base => exact runSource_keeps assembler file code base
  | runFile path base =>
      cases loaded : assembler.library.load path with
      | none =>
          rw [call_of_unloaded loaded]
          exact ⟨assembler.log, assembler.sources, by simp [rootAfter, Call.loaded?, loaded]⟩
      | some code =>
          obtain ⟨log, sources, kept⟩ := runSource_keeps
            { assembler with root := directoryOf path } (path.fileName?.getD path.text) code base
          refine ⟨log, sources, ?_⟩
          simpa [Assembler.call, Assembler.runFile, rootAfter, Call.loaded?, loaded, directoryOf]
            using kept

theorem rootAfter_cons (library : Library) (root : Path) (first : Call) (rest : List Call)
    : rootAfter library root (first :: rest)
      = rootAfter library (rootAfter library root [first]) rest := by
  cases loaded : first.loaded? library with
  | none => simp [rootAfter, loaded]
  | some path =>
      cases last : (rest.filterMap (·.loaded? library)).getLast? with
      | none => simp [rootAfter, loaded, List.getLast?_cons, last]
      | some later => simp [rootAfter, loaded, List.getLast?_cons, last]

/-- After any calls an assembler differs from a new one in what its last run has left, and in the
root. Witness: induction on the history, one call at a time.
-/
theorem after_keeps (assembler : Assembler) (history : List Call)
    : ∃ log sources,
        assembler.after history
        = { assembler with
            root := rootAfter assembler.library assembler.root history, log, sources } := by
  induction history generalizing assembler with
  | nil => exact ⟨assembler.log, assembler.sources, rfl⟩
  | cons first rest ih =>
      obtain ⟨log, sources, called⟩ := call_keeps assembler first
      obtain ⟨later, read, kept⟩ := ih (assembler.call first).1
      refine ⟨later, read, ?_⟩
      rw [rootAfter_cons]
      rw [called] at kept
      rw [← kept, ← called]
      rfl

-----------------------------------------------------------------------------------------
-- An assembler that works in place
-----------------------------------------------------------------------------------------

/-- An assembler that works in place. All that a run writes to stays as the run leaves it, finished
or broken off, until the next run clears it.
-/
structure Bench where
  set : InstructionSet
  library : Library
  root : Path
  /-- The pass that was begun last. -/
  pass : Pass
  /-- The counter, symbols, bytes, rows, starts and messages so far. -/
  progress : Progress
  /-- The counter at the end of the first pass. -/
  finish : Nat
  sources : Sources

namespace Bench

/-- What can be seen of it from outside. -/
def shown (bench : Bench) : Assembler where
  set := bench.set
  library := bench.library
  root := bench.root
  log := bench.progress.log
  sources := bench.sources

/-- Clears what the last run has left. -/
def clear (bench : Bench) : Bench :=
  { bench with
    pass := .prescan
    progress := { counter := 0 }
    finish := 0
    sources := Sources.empty }

/-- Writes a message. -/
def noting (bench : Bench) (message : Message) : Bench :=
  { bench with progress := { bench.progress with log := bench.progress.log.push message } }

/-- Begins a pass at `base`, with no bytes yet. -/
def started (bench : Bench) (pass : Pass) (base : UInt16) : Bench :=
  { bench with
    pass
    progress := { bench.progress with counter := base.toNat, bytes := #[] } }

/-- Carries out the first pass, and notes where it ends. -/
def prescan (bench : Bench) (statements : List Statement) (base : UInt16)
    : Bench × Option Fault :=
  let begun := bench.started .prescan base
  match Progress.walk begun.set begun.pass (statements.map (·, none)) begun.progress with
  | (progress, some fault) => ({ begun with progress }, some fault)
  | (progress, none) => ({ begun with progress, finish := progress.counter }, none)

/-- Carries out the second pass, with the symbols, starts and end that the first has left. -/
def assemble (bench : Bench) (statements : List Statement) (base : UInt16)
    : Bench × Option Fault :=
  let begun := bench.started .assemble base
  let expected := statements.zip (begun.progress.starts.toList.map some)
  match Progress.walk begun.set begun.pass expected { begun.progress with starts := #[] } with
  | (progress, some fault) => ({ begun with progress }, some fault)
  | (progress, none) =>
      if progress.counter = begun.finish then ({ begun with progress }, none)
      else ({ begun with progress }, some ⟨.addressDrift begun.finish progress.counter, []⟩)

/-- Hands over the bytes, symbols and rows, which are gone from the bench then. -/
def handOver (bench : Bench) (origin : UInt16) : Bench × Output :=
  ({ bench with
      progress := { bench.progress with bytes := #[], symbols := Symbols.empty, rows := #[] } },
    {
      origin
      bytes := bench.progress.bytes.toList
      symbols := bench.progress.symbols
      rows := bench.progress.rows.toList
    })

/-- Carries out both passes. -/
def passes (bench : Bench) (tokens : List Token) (base : UInt16) : Bench × Except Fault Output :=
  let statements := statements bench.set tokens
  match bench.prescan statements base with
  | (stopped, some fault) => (stopped, .error fault)
  | (measured, none) =>
      let noted := measured.noting
        (.info (Text.decimal measured.progress.symbols.size ++ " symbols"))
      match noted.assemble statements base with
      | (stopped, some fault) => (stopped, .error fault)
      | (done, none) =>
          let noted := done.noting (.info (Text.decimal done.progress.bytes.size ++ " bytes"))
          (noted.handOver ((Source.origin? tokens).getD base)).map id .ok

def runSource (bench : Bench) (file code : String) (base : UInt16)
    : Bench × Except Fault Output :=
  let cleared := bench.clear
  let closed := Expansion.without (Source.includable cleared.library code) file
  let expansion :=
    Expansion.expandFile cleared.library cleared.root closed file code cleared.sources
  let read := { cleared with sources := expansion.sources }
  match expansion.outcome with
  | .error fault => (read, .error fault)
  | .ok tokens => (read.noting (Assembler.expanded tokens read.sources base)).passes tokens base

def runFile (bench : Bench) (path : Path) (base : UInt16) : Bench × Except Fault Output :=
  match bench.library.load path with
  | none => (bench, .error ⟨.fileOpen path.text, []⟩)
  | some code =>
      let placed := { bench with root := directoryOf path }
      placed.runSource (path.fileName?.getD path.text) code base

/-- Makes a call. -/
def call (bench : Bench) : Call → Bench × Answer
  | .run code base => (bench.runSource Assembler.unnamed code base).map id .bytesOf
  | .runSource file code base => (bench.runSource file code base).map id .output
  | .runFile path base => (bench.runFile path base).map id .output

/-- The bench after some calls. -/
def after (bench : Bench) (history : List Call) : Bench :=
  history.foldl (fun used next => (used.call next).1) bench

/-- The first pass on a cleared bench is the first pass. -/
theorem prescan_eq (bench : Bench) {log : Log} (cleared : bench.progress = { counter := 0, log })
    (statements : List Statement) (base : UInt16)
    : bench.prescan statements base
      = match Progress.prescan { counter := base.toNat, log } bench.set statements with
        | (progress, some fault) => ({ bench with pass := .prescan, progress }, some fault)
        | (progress, none) =>
            ({ bench with pass := .prescan, progress, finish := progress.counter }, none) := by
  unfold prescan started
  rw [cleared]
  rfl

/-- The second pass on a bench without rows is the second pass. -/
theorem assemble_eq (bench : Bench) (rowless : bench.progress.rows = #[])
    (ended : bench.finish = bench.progress.counter) (statements : List Statement) (base : UInt16)
    : bench.assemble statements base
      = ({ bench with
            pass := .assemble
            progress := (Progress.assemble bench.progress bench.set statements base).1 },
          (Progress.assemble bench.progress bench.set statements base).2) := by
  obtain ⟨set, library, root, pass, progress, finish, sources⟩ := bench
  obtain ⟨counter, symbols, bytes, rows, starts, log⟩ := progress
  obtain rfl : rows = #[] := rowless
  obtain rfl : finish = counter := ended
  simp only [assemble, started, Progress.assemble]
  cases Progress.walk set .assemble (statements.zip (starts.toList.map some))
      { counter := base.toNat, symbols, log } with
  | mk done fault? =>
      cases fault? with
      | some fault => rfl
      | none =>
          by_cases met : done.counter = finish
          · simp only [met, if_true]
          · simp only [met, if_false]

/-- Both passes on a cleared bench leave the log, and return what they return, as on no bench. -/
theorem passes_shown (bench : Bench) {log : Log} (cleared : bench.progress = { counter := 0, log })
    (tokens : List Token) (base : UInt16)
    : (bench.passes tokens base).1.shown
        = { bench.shown with log := (twoPass bench.set tokens base log).1 }
      ∧ (bench.passes tokens base).2 = (twoPass bench.set tokens base log).2 := by
  unfold passes twoPass
  dsimp only
  rw [prescan_eq bench cleared]
  cases measuring : Progress.prescan { counter := base.toNat, log } bench.set
      (statements bench.set tokens) with
  | mk measured fault? =>
      cases fault? with
      | some fault => exact ⟨rfl, rfl⟩
      | none =>
          -- The first pass has left no rows, since it began without any.
          obtain ⟨firsts, trace, reached⟩ := prescan_eq_none measuring
          have rowless : measured.rows = #[] := by
            have rows := reached.rows
            rw [trace.rows_prescan] at rows
            exact Array.toList_eq_nil_iff.mp rows
          dsimp only
          rw [assemble_eq _ rowless rfl]
          dsimp only [noting]
          cases Progress.assemble _ _ _ _ with
          | mk done fault? =>
              cases fault? with
              | some fault => exact ⟨rfl, rfl⟩
              | none => exact ⟨rfl, rfl⟩

/-- Whatever the last run has left on the bench, a run shows and returns what a run of the assembler
that keeps none of it does.
-/
theorem runSource_shown (bench : Bench) (file code : String) (base : UInt16)
    : (bench.runSource file code base).1.shown = (bench.shown.runSource file code base).1
      ∧ (bench.runSource file code base).2 = (bench.shown.runSource file code base).2 := by
  let expansion := Source.expand bench.library bench.root file code
  have benched : bench.runSource file code base
      = match expansion.outcome with
        | .error fault => ({ bench.clear with sources := expansion.sources }, .error fault)
        | .ok tokens =>
            (({ bench.clear with sources := expansion.sources } : Bench).noting
              (Assembler.expanded tokens expansion.sources base)).passes tokens base := rfl
  have direct : bench.shown.runSource file code base
      = match expansion.outcome with
        | .error fault =>
            ({ bench.shown with log := Log.empty, sources := expansion.sources }, .error fault)
        | .ok tokens =>
            (twoPass bench.set tokens base
              (Log.empty.push (Assembler.expanded tokens expansion.sources base))).map
              (fun log => { bench.shown with log, sources := expansion.sources }) id := rfl
  rw [benched, direct]
  cases expansion.outcome with
  | error fault => exact ⟨rfl, rfl⟩
  | ok tokens => exact passes_shown _ rfl tokens base

/-- A call on the bench shows and returns what it does on what is shown. -/
theorem call_shown (bench : Bench) (next : Call)
    : (bench.call next).1.shown = (bench.shown.call next).1
      ∧ (bench.call next).2 = (bench.shown.call next).2 := by
  cases next with
  | run code base =>
      obtain ⟨left, returned⟩ := bench.runSource_shown Assembler.unnamed code base
      exact ⟨left, congrArg Answer.bytesOf returned⟩
  | runSource file code base =>
      obtain ⟨left, returned⟩ := bench.runSource_shown file code base
      exact ⟨left, congrArg Answer.output returned⟩
  | runFile path base =>
      cases loaded : bench.library.load path with
      | none =>
          have missing : bench.shown.library.load path = none := loaded
          rw [call_of_unloaded missing]
          simp [call, runFile, loaded]
      | some code =>
          have found : bench.shown.library.load path = some code := loaded
          obtain ⟨left, returned⟩ := runSource_shown { bench with root := directoryOf path }
            (path.fileName?.getD path.text) code base
          simp only [call, runFile, loaded, Assembler.call, Assembler.runFile, found]
          exact ⟨left, congrArg Answer.output returned⟩

/-- Calls one after the other on the bench show what they do on what is shown. -/
theorem after_shown (bench : Bench) (history : List Call)
    : (bench.after history).shown = bench.shown.after history := by
  induction history generalizing bench with
  | nil => rfl
  | cons first rest ih =>
      have later := ih (bench.call first).1
      rw [(bench.call_shown first).1] at later
      exact later

end Bench

-----------------------------------------------------------------------------------------
-- Runs are independent
-----------------------------------------------------------------------------------------

/-- Runs on one assembler are independent. After any calls, the next call that gets its source does
what it does on a new assembler with the root of the last file that was loaded: the answer, the log
and the sources are the same. A file that cannot be loaded is reported and changes nothing. And an
assembler that works in place, with whatever an earlier run may have left on it, cannot be told from
this one.
-/
theorem call_independent (set : InstructionSet) (library : Library) (root : Path)
    (history : List Call) (next : Call)
    : let used := Assembler.after { set, library, root } history
      (next.getsSource library = true
        → used.call next
          = Assembler.call { set, library, root := rootAfter library root history } next)
      ∧ (∀ path base,
          library.load path = none
          → used.call (.runFile path base)
            = (used, .output (.error ⟨.fileOpen path.text, []⟩)))
      ∧ ∀ bench : Bench,
          bench.shown = { set, library, root }
          → ((bench.after history).call next).1.shown = (used.call next).1
            ∧ ((bench.after history).call next).2 = (used.call next).2 := by
  intro used
  obtain ⟨log, sources, kept⟩ := after_keeps { set, library, root } history
  have unchanged : used.library = library := congrArg Assembler.library kept
  refine ⟨?_, ?_, ?_⟩
  · intro got
    rw [show used = _ from kept]
    exact call_relabelled { set, library, root := rootAfter library root history } log sources got
  · intro path base missing
    exact call_of_unloaded (unchanged.symm ▸ missing) base
  · intro bench fresh
    have same : (bench.after history).shown = used := by
      rw [bench.after_shown, fresh]
    rw [← same]
    exact (bench.after history).call_shown next

/-- A directory with a file and a part of it. -/
def partLibrary : Library :=
  Library.ofFiles
    [(⟨"lib/main.asm"⟩, ".include \"part.asm\""), (⟨"lib/part.asm"⟩, "here: .byte $01")]

/-- A run that breaks off in its second pass, a file that is loaded, and one that is not. -/
def mixedHistory : List Call :=
  [.runSource "t" "here: LDA nowhere" 0xC000, .runFile ⟨"lib/main.asm"⟩ 0xC000,
    .runFile ⟨"gone.asm"⟩ 0xC000]

/-- A call that needs the directory of the loaded file, and declares a name that is left over. -/
def includingCall : Call :=
  .run ".include \"part.asm\" JMP here" 0xC000

/-- A bench on which a run has broken off. -/
def litteredBench : Bench where
  set := smallSet
  library := partLibrary
  root := ⟨"."⟩
  pass := .assemble
  progress := {
    counter := 0x10000
    symbols := ⟨[⟨"here", default, .label 0x1000⟩]⟩
    bytes := #[0xFF]
    rows := #[⟨0xFFFF, [0xFF], ".byte $FF", none, default⟩]
    starts := #[0xFFFF]
  }
  finish := 0x1000
  sources := {}

theorem call_independent_mixed
    : let used := Assembler.after { set := smallSet, library := partLibrary } mixedHistory
      used.call includingCall
        = Assembler.call { set := smallSet, library := partLibrary, root := ⟨"lib"⟩ } includingCall
      ∧ used.call (.runFile ⟨"gone.asm"⟩ 0xC000)
        = (used, .output (.error ⟨.fileOpen "gone.asm", []⟩))
      ∧ ((litteredBench.after mixedHistory).call includingCall).2 = (used.call includingCall).2
      ∧ (Assembler.run { set := smallSet, library := partLibrary, root := ⟨"lib"⟩ }
          ".include \"part.asm\" JMP here" 0xC000).2.toOption
        = some [0x01, 0x4C, 0x00, 0xC0] := by
  have moved : rootAfter partLibrary ⟨"."⟩ mixedHistory = ⟨"lib"⟩ := by
    decide +kernel
  have missing : partLibrary.load ⟨"gone.asm"⟩ = none := by
    decide +kernel
  obtain ⟨alike, unloaded, inPlace⟩ :=
    call_independent smallSet partLibrary ⟨"."⟩ mixedHistory includingCall
  rw [moved] at alike
  exact ⟨alike rfl, unloaded _ _ missing, (inPlace litteredBench rfl).2, by decide +kernel⟩

end Asm6510.Assembly
