import Asm6510.Command.Plan
import Asm6510.Proofs.Assembly.Passes

/-! What a run of the command leaves alone. Writing a file changes nothing at any other place and
turns nothing into a directory, so that every path leads where it led before; and a run that is not
told what to write writes one file at most.
-/

namespace Asm6510.Command

open Assembly (Assembler Output)
open Source (Library Path)

namespace FileSystem

/-- A file system after some of its files were written: it has other entries only at places that
may change, and the same directories.
-/
structure Keeps (mayChange : Place → Prop) (before after : FileSystem) : Prop where
  current : after.current = before.current
  entries : ∀ place, ¬ mayChange place → after.entry? place = before.entry? place
  directories
    : ∀ place, after.entry? place = some .directory ↔ before.entry? place = some .directory

variable {before middle after files : FileSystem} {mayChange : Place → Prop} {path : Path}
  {place : Place} {contents : List UInt8}

theorem Keeps.refl (mayChange : Place → Prop) (files : FileSystem)
    : Keeps mayChange files files :=
  ⟨rfl, fun _ _ => rfl, fun _ => Iff.rfl⟩

theorem Keeps.trans (first : Keeps mayChange before middle) (second : Keeps mayChange middle after)
    : Keeps mayChange before after where
  current := second.current.trans first.current
  entries := fun place kept => (second.entries place kept).trans (first.entries place kept)
  directories := fun place => (second.directories place).trans (first.directories place)

theorem Keeps.mono {mayAlso : Place → Prop} (keeps : Keeps mayChange before after)
    (allowed : ∀ place, mayChange place → mayAlso place)
    : Keeps mayAlso before after where
  current := keeps.current
  entries := fun place kept => keeps.entries place fun changes => kept (allowed place changes)
  directories := keeps.directories

/-- With the same directories, every path leads to the same place. -/
theorem Keeps.place?_eq (keeps : Keeps mayChange before after) (path : Path)
    : after.place? path = before.place? path := by
  have steps : after.follow = before.follow := by
    funext place step
    simp only [follow, ne_eq, keeps.directories place]
  simp only [place?, steps, keeps.current]

/-- A path that leads to no place that may change is loaded as before. -/
theorem Keeps.load?_eq (keeps : Keeps mayChange before after)
    (kept : ∀ place, before.place? path = some place → ¬ mayChange place)
    : after.load? path = before.load? path := by
  simp only [load?, keeps.place?_eq]
  cases led : before.place? path with
  | none => rfl
  | some place => simp [keeps.entries place (kept place led)]

/-- An entry that is put at a place stands there, and everything else stands where it was. -/
theorem entry?_put (files : FileSystem) (entry : Entry) (below : place ≠ []) (other : Place)
    : FileSystem.entry? (files.put place entry) other
      = if other = place then some entry else files.entry? other := by
  by_cases root : other = []
  · simp [root, below.symm, FileSystem.entry?]
  · by_cases same : other = place
    · have gone : (files.entries.filter fun item => item.1 != place).find?
          (fun item => item.1 == place) = none := by
        simp [List.find?_filter]
      simp [put, FileSystem.entry?, same, below, List.find?_append, gone]
    · have kept : (files.entries.filter fun item => item.1 != place).find?
          (fun item => item.1 == other) = files.entries.find? fun item => item.1 == other := by
        rw [List.find?_filter]
        congr 1
        funext item
        by_cases found : item.1 = other
        · simp [found, same]
        · simp [found]
      simp [put, FileSystem.entry?, same, root, List.find?_append, kept, Ne.symm same]

/-- A write that succeeds goes to a device, or puts a file at the place of its path, where no
directory stands.
-/
theorem write_cases (written : before.write path contents = .ok after)
    : after = before
      ∨ ∃ place,
          before.place? path = some place
          ∧ before.entry? place ≠ some .directory
          ∧ after = before.put place (.file contents) := by
  unfold write at written
  split at written
  · cases written
  · rename_i place led
    split at written
    · cases written
    · cases written
      exact .inl rfl
    · split at written
      · cases written
        exact .inl rfl
      · cases written
    · rename_i old there
      cases written
      exact .inr ⟨place, led, by simp [there], rfl⟩
    · rename_i there
      cases written
      exact .inr ⟨place, led, by simp [there], rfl⟩

theorem write_file (led : files.place? path = some place)
    (there : files.entry? place = none ∨ ∃ old, files.entry? place = some (.file old))
    : files.write path contents = .ok (files.put place (.file contents)) := by
  rcases there with missing | ⟨old, found⟩
  · simp [write, led, missing]
  · simp [write, led, found]

theorem keeps_of_write (written : before.write path contents = .ok after)
    (allowed : ∀ place, before.place? path = some place → mayChange place)
    : Keeps mayChange before after := by
  rcases write_cases written with rfl | ⟨place, led, other, rfl⟩
  · exact .refl _ _
  · have below : place ≠ [] := by
      rintro rfl
      exact other rfl
    refine ⟨rfl, ?_, ?_⟩
    · intro elsewhere kept
      rw [entry?_put _ _ below, if_neg]
      rintro rfl
      exact kept (allowed _ led)
    · intro elsewhere
      rw [entry?_put _ _ below]
      split
      · rename_i same
        simp [same, other]
      · rfl

/-- What a text ends with, its last piece ends with. -/
theorem pieces_append {ending : List Char} (unslashed : '/' ∉ ending) (front : List Char)
    : ∃ pieces last, Path.pieces (front ++ ending) = pieces ++ [last ++ ending] := by
  have alone {cs : List Char} (unslashed : '/' ∉ cs) : Path.pieces cs = [cs] := by
    induction cs with
    | nil => rfl
    | cons c cs ih =>
        have other : c ≠ '/' := fun same => unslashed (by simp [same])
        rw [Path.pieces, ih fun member => unslashed (by simp [member])]
        · rfl
        · exact fun same => other same
  induction front with
  | nil => exact ⟨[], [], alone unslashed⟩
  | cons c front ih =>
      obtain ⟨pieces, last, split⟩ := ih
      by_cases slash : c = '/'
      · exact ⟨[] :: pieces, last, by simp [slash, Path.pieces, split]⟩
      · rw [List.cons_append, Path.pieces, split]
        · cases pieces with
          | nil => exact ⟨[], c :: last, rfl⟩
          | cons first pieces => exact ⟨(c :: first) :: pieces, last, rfl⟩
        · exact fun same => slash same

/-- A step by a name that is neither empty nor made of dots alone leads to that name. -/
theorem follow_name {parent : Place} {step : String} (long : 2 < step.length)
    (stepped : files.follow parent step = some place)
    : place = parent ++ [step] := by
  have named : step ≠ "" ∧ step ≠ "." ∧ step ≠ ".." := by
    refine ⟨?_, ?_, ?_⟩ <;> (rintro rfl; revert long; decide)
  simp only [follow, beq_iff_eq, Bool.or_eq_true, named, or_self, if_false] at stepped
  split at stepped
  · cases stepped
  · split at stepped
    · exact (Option.some.inj stepped).symm
    · cases stepped

/-- A path leads to a place whose name ends like the path, if that is more than two dots. -/
theorem place?_ending {front ending : List Char} (unslashed : '/' ∉ ending)
    (long : 2 < ending.length)
    (spelt : path.text.toList = front ++ ending) (led : files.place? path = some place)
    : ∃ name ∈ place.getLast?, ending <:+ name.toList := by
  obtain ⟨pieces, last, split⟩ := pieces_append unslashed front
  simp only [place?, spelt, split] at led
  split at led
  · cases led
  · rw [List.map_append, List.foldlM_append] at led
    obtain ⟨parent, -, stepped⟩ := Option.bind_eq_some_iff.mp led
    have stepped : files.follow parent (String.ofList (last ++ ending)) = some place := by
      simpa using stepped
    have length : 2 < (String.ofList (last ++ ending)).length := by
      rw [String.length_ofList, List.length_append]
      omega
    refine ⟨String.ofList (last ++ ending), by simp [follow_name length stepped], ?_⟩
    rw [String.toList_ofList]
    exact List.suffix_append last ending

end FileSystem

-----------------------------------------------------------------------------------------
-- A run
-----------------------------------------------------------------------------------------

open FileSystem (Keeps)

variable {parse : List String → Except Halt Options} {arguments : List String} {options : Options}

/-- What assembling the input gives. -/
def assembled (options : Options) (library : Library) : Except Fault Output :=
  (Assembler.runFile { set := .cpu6510, library } options.input options.base).2

theorem writeAll_cons (writing : Writing) (rest : List Writing) (world : World)
    : (writeAll World.outlet (writing :: rest)).run world
      = match world.files.write writing.path writing.contents with
        | .ok files =>
            (writeAll World.outlet rest).run
              { files, printed := world.printed ++ ("  > " ++ writing.path.text ++ "\n") }
        | .error cause =>
            (false, { world with
              printed := world.printed ++ ("  > " ++ writing.path.text ++ "\n")
                ++ Report.diagnosis ⟨cause, []⟩ Source.Sources.empty }) := by
  cases written : world.files.write writing.path writing.contents with
  | ok files =>
      simp only [writeAll, World.outlet, StateT.run_bind, StateT.run_modify, StateT.run_get,
        StateT.run_set, StateT.run_pure, pure_bind, written]
  | error cause =>
      simp only [writeAll, World.outlet, StateT.run_bind, StateT.run_modify, StateT.run_get,
        StateT.run_pure, pure_bind, written]
      rfl

/-- Files are written at the places of their paths, which stay the same from the first file to the
last. Witness: induction on the files, each of which keeps what is none of these places.
-/
theorem keeps_writeAll (writings : List Writing) (world : World) {mayChange : Place → Prop}
    (allowed : ∀ writing ∈ writings, ∀ place,
      world.files.place? writing.path = some place → mayChange place)
    : Keeps mayChange world.files ((writeAll World.outlet writings).run world).2.files := by
  induction writings generalizing world with
  | nil => exact .refl _ _
  | cons writing rest ih =>
      rw [writeAll_cons]
      cases written : world.files.write writing.path writing.contents with
      | error cause => exact .refl _ _
      | ok files =>
          have first : Keeps mayChange world.files files :=
            FileSystem.keeps_of_write written (allowed writing (by simp))
          refine first.trans (ih { files, printed := _ } ?_)
          intro other member place led
          rw [first.place?_eq] at led
          exact allowed other (by simp [member]) place led

theorem writings_plan (options : Options) (library : Library)
    : (plan options library).writings
      = match assembled options library with
        | .error _ => []
        | .ok output => if options.noWrite then [] else writings options output := by
  unfold plan assembled
  dsimp only
  cases (Assembler.runFile { set := .cpu6510, library } options.input options.base).2 with
  | error fault => rfl
  | ok output => by_cases dry : options.noWrite = true <;> simp [dry]

/-- The files after a run: those that the plan writes are written. -/
theorem files_run (parse : List String → Except Halt Options) (arguments : List String)
    (files : FileSystem)
    : (runWith parse arguments files).2.files
      = match parse arguments with
        | .error _ => files
        | .ok options =>
            ((writeAll World.outlet (plan options files.library).writings).run
              { files, printed := "" ++ (plan options files.library).report }).2.files := by
  unfold runWith commandWith
  cases parse arguments with
  | error halt => cases halt <;> rfl
  | ok options => rfl

/-- A run changes a file system at the places of the files it plans to write, and nowhere else. -/
theorem keeps_run (parsed : parse arguments = .ok options) (files : FileSystem)
    : Keeps
        (fun place => ∃ writing ∈ (plan options files.library).writings,
          files.place? writing.path = some place)
        files (runWith parse arguments files).2.files := by
  rw [files_run, parsed]
  exact keeps_writeAll _ { files, printed := _ } fun writing member place led =>
    ⟨writing, member, led⟩

theorem files_run_of_unwritten (parsed : parse arguments = .ok options) {files : FileSystem}
    (unwritten : (plan options files.library).writings = [])
    : (runWith parse arguments files).2.files = files := by
  rw [files_run, parsed]
  dsimp only
  rw [unwritten]
  rfl

/-- A single file is written, or cannot be. -/
theorem files_run_of_single (parsed : parse arguments = .ok options) {files : FileSystem}
    {writing : Writing}
    (single : (plan options files.library).writings = [writing])
    : (runWith parse arguments files).2.files
      = match files.write writing.path writing.contents with
        | .ok after => after
        | .error _ => files := by
  rw [files_run, parsed]
  dsimp only
  rw [single, writeAll_cons]
  cases files.write writing.path writing.contents <;> rfl

-----------------------------------------------------------------------------------------
-- Sources
-----------------------------------------------------------------------------------------

/-- The file that an image is written to where no other is asked for. -/
def defaultImage (options : Options) : Path :=
  options.input.withExtension "prg"

/-- The image of an input that has a name, and not just dots in front of its extension, is named
with the extension of images.
-/
theorem withExtension_ending {path : Path} {name : String} (named : path.fileName? = some name)
    (stemmed : (Path.splitExtension name).1 ≠ ".")
    : ∃ front, (path.withExtension "prg").text.toList = front ++ ".prg".toList := by
  unfold Path.withExtension
  rw [named]
  dsimp only
  split
  · rename_i split
    rw [split] at stemmed
    exact absurd rfl stemmed
  · rename_i stem _ _ _
    exact ⟨(path.beforeLast name).reverse ++ stem.toList, by simp⟩

/-- What a run does to a file system if it is told neither where to write the image nor to write
the symbols.
-/
structure Spared (options : Options) (before after : FileSystem) : Prop where
  /-- Nothing appears or changes but at the place of the image. -/
  entries
    : ∀ place, before.place? (defaultImage options) ≠ some place
      → after.entry? place = before.entry? place
  /-- A file is loaded as before, whether it was read or not, unless it is the image. -/
  sources
    : ∀ path, before.place? path ≠ before.place? (defaultImage options)
      → after.place? path = before.place? path ∧ after.load? path = before.load? path
  /-- No file is touched that is not named like an image, if the input has a stem. -/
  named
    : ∀ name, options.input.fileName? = some name → (Path.splitExtension name).1 ≠ "."
      → ∀ place, (∀ last ∈ place.getLast?, ¬ ".prg".toList <:+ last.toList)
      → after.entry? place = before.entry? place
  failed : ∀ fault, assembled options before.library = .error fault → after = before
  dry : options.noWrite = true → after = before
  /-- Where a file is or can be, the image is written over it. -/
  written
    : ∀ output place, assembled options before.library = .ok output
      → options.noWrite = false
      → before.place? (defaultImage options) = some place
      → (before.entry? place = none ∨ ∃ contents, before.entry? place = some (.file contents))
      → after.entry? place = some (.file (if options.raw then output.bytes else output.image))

/-- Arguments that neither name a file for the image nor ask for the symbols. -/
def Undirected (parse : List String → Except Halt Options) (arguments : List String) : Prop :=
  ∀ options, parse arguments = .ok options
    → options.output? = none ∧ options.symbols? = none

/-- All that is written is the image. -/
theorem writings_plan_of_undirected (image : options.output? = none)
    (symbols : options.symbols? = none) (library : Library)
    : (plan options library).writings
      = match assembled options library with
        | .error _ => []
        | .ok output =>
            if options.noWrite then []
            else [⟨defaultImage options, if options.raw then output.bytes else output.image⟩] := by
  rw [writings_plan]
  simp [writings, imagePath, image, symbols, defaultImage]

/-- Where only the image is written, only what stands at its place changes. -/
theorem keeps_run_of_undirected (parsed : parse arguments = .ok options)
    (image : options.output? = none) (symbols : options.symbols? = none) (files : FileSystem)
    : Keeps (fun place => files.place? (defaultImage options) = some place) files
        (runWith parse arguments files).2.files := by
  have only : ∀ writing ∈ (plan options files.library).writings,
      writing.path = defaultImage options := by
    intro writing member
    rw [writings_plan_of_undirected image symbols] at member
    split at member
    · cases member
    · split at member
      · cases member
      · rw [List.mem_singleton.mp member]
  refine (keeps_run parsed files).mono ?_
  rintro place ⟨writing, member, led⟩
  rwa [only writing member] at led

theorem spared_of_undirected (parsed : parse arguments = .ok options)
    (image : options.output? = none) (symbols : options.symbols? = none) (files : FileSystem)
    : Spared options files (runWith parse arguments files).2.files := by
  have keeps := keeps_run_of_undirected parsed image symbols files
  have planned := writings_plan_of_undirected image symbols files.library
  exact {
    entries := keeps.entries
    sources := by
      intro path apart
      refine ⟨keeps.place?_eq path, keeps.load?_eq ?_⟩
      intro place led same
      exact apart (led.trans same.symm)
    named := by
      intro name given stemmed place other
      obtain ⟨front, spelt⟩ := withExtension_ending given stemmed
      apply keeps.entries
      intro led
      obtain ⟨last, named, ends⟩ := FileSystem.place?_ending (by decide) (by decide) spelt led
      exact other last named ends
    failed := by
      intro fault failed
      apply files_run_of_unwritten parsed
      rw [planned, failed]
    dry := by
      intro dry
      apply files_run_of_unwritten parsed
      rw [planned]
      split <;> simp [dry]
    written := by
      intro output place succeeded write led there
      have single : (plan options files.library).writings
          = [⟨defaultImage options, if options.raw then output.bytes else output.image⟩] := by
        rw [planned, succeeded]
        simp [write]
      have below : place ≠ [] := by
        rintro rfl
        unfold FileSystem.entry? at there
        simp at there
      rw [files_run_of_single parsed single, FileSystem.write_file led there]
      simp [FileSystem.entry?_put files _ below]
  }

/-- The command spares its sources, however its arguments are read. A run that is not told what to
write changes nothing but the image next to its input, and nothing at all if it fails or is told to
write nothing.
-/
theorem run_spares_sources (parse : List String → Except Halt Options) {arguments : List String}
    (undirected : Undirected parse arguments) (files : FileSystem)
    : (∀ halt, parse arguments = .error halt → (runWith parse arguments files).2.files = files)
      ∧ ∀ options, parse arguments = .ok options
          → Spared options files (runWith parse arguments files).2.files := by
  constructor
  · intro halt parsed
    rw [files_run, parsed]
  · intro options parsed
    obtain ⟨image, symbols⟩ := undirected options parsed
    exact spared_of_undirected parsed image symbols files

/-- The options of a run that is given its input only. -/
def plainOptions (input : String) : Options where
  input := ⟨input⟩
  base := 0xC000
  output? := none
  level := .warn
  dump := false
  noWrite := false
  raw := false
  symbols? := none

theorem undirected_of_plain {arguments : List String} {input : String}
    (parsed : Options.parse arguments = .ok (plainOptions input))
    : Undirected Options.parse arguments := by
  intro options found
  obtain rfl := Except.ok.inj (parsed.symm.trans found)
  exact ⟨rfl, rfl⟩

/-- Two files, the second of which is included in the first. -/
def sourceFiles : FileSystem where
  entries :=
    [(["main.asm"], .file (Text.encode ".include \"data.asm\"")),
      (["data.asm"], .file (Text.encode ".byte $01"))]

theorem run_spares_sources_included
    : Options.parse ["main.asm"] = .ok (plainOptions "main.asm")
      ∧ Spared (plainOptions "main.asm") sourceFiles (run ["main.asm"] sourceFiles).2.files
      ∧ (run ["main.asm"] sourceFiles).2.files.load? ⟨"data.asm"⟩ = some ".byte $01"
      ∧ FileSystem.entry? (run ["main.asm"] sourceFiles).2.files ["main.prg"]
        = some (.file [0x00, 0xC0, 0x01]) := by
  have parsed : Options.parse ["main.asm"] = .ok (plainOptions "main.asm") :=
    Assembly.eq_ok_of_toOption (by decide +kernel)
  have spared
      : Spared (plainOptions "main.asm") sourceFiles (run ["main.asm"] sourceFiles).2.files :=
    (run_spares_sources Options.parse (undirected_of_plain parsed) sourceFiles).2 _ parsed
  have apart : sourceFiles.place? ⟨"data.asm"⟩
      ≠ sourceFiles.place? (defaultImage (plainOptions "main.asm")) := by
    decide +kernel
  refine ⟨parsed, spared, ?_, by decide +kernel⟩
  rw [(spared.sources _ apart).2]
  decide +kernel

/-- A source that is named like an image. -/
def imageNamedFiles : FileSystem where
  entries := [(["x.prg"], .file (Text.encode ".byte $01"))]

/-- A source that is named like an image is the place of its own image, and is written over. -/
theorem run_overwrites_source
    : Options.parse ["x.prg"] = .ok (plainOptions "x.prg")
      ∧ Undirected Options.parse ["x.prg"]
      ∧ (plainOptions "x.prg").input = ⟨"x.prg"⟩
      ∧ imageNamedFiles.load? ⟨"x.prg"⟩ = some ".byte $01"
      ∧ (run ["x.prg"] imageNamedFiles).1 = 0
      ∧ (run ["x.prg"] imageNamedFiles).2.files.load? ⟨"x.prg"⟩ = none
      ∧ FileSystem.entry? (run ["x.prg"] imageNamedFiles).2.files ["x.prg"]
        = some (.file [0x00, 0xC0, 0x01]) := by
  have parsed : Options.parse ["x.prg"] = .ok (plainOptions "x.prg") :=
    Assembly.eq_ok_of_toOption (by decide +kernel)
  exact ⟨parsed, undirected_of_plain parsed, rfl, by decide +kernel, by decide +kernel,
    by decide +kernel, by decide +kernel⟩

end Asm6510.Command
