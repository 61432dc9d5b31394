import Asm6510.Fault
import Asm6510.Source.Library
import Asm6510.Source.Scan
import Asm6510.Source.Sources

/-! Source text with its included files put in place.

Each file named by an include directive is scanned and its tokens stand where the directive
stood. A name can be opened again once its file is done, but not inside its own file.
-/

namespace Asm6510.Source

/-- The tokens of a source with all it includes, or the fault that stopped it, and the lines
of every file read on the way.
-/
structure Expansion where
  sources : Sources
  outcome : Except Fault (List Token)

namespace Expansion

/-- Stopped by a cause at a place. -/
def fail (sources : Sources) (cause : Cause) (pos : Position) : Expansion :=
  ⟨sources, .error (Fault.placed cause pos)⟩

/-- The tokens in front of the rest of a file. -/
def prepend (front : List Token) (rest : Expansion) : Expansion :=
  ⟨rest.sources, rest.outcome.map (front ++ ·)⟩

/-- Puts the included files into the tokens of one file. `closed` holds the names that can be
opened, and `expandFile` says what opening one gives. A directive that sets the origin is
checked here, so that its operand is a word in every expansion.
-/
def splice (library : Library) (root : Path) (closed : List String)
    (expandFile : (name : String) → name ∈ closed → String → Sources → Expansion)
    : List Token → Sources → Expansion
  | [], sources => ⟨sources, .ok []⟩
  | ⟨.directive .includeFile, _, _⟩ :: ⟨.text name, _, place⟩ :: rest, sources =>
      match library.load (root.join ⟨name⟩) with
      | none => fail sources (.includeFileNotFound name) place
      | some code =>
          if openable : name ∈ closed then
            let included := expandFile name openable code sources
            match included.outcome with
            | .ok front =>
                prepend front (splice library root closed expandFile rest included.sources)
            | .error fault => ⟨included.sources, .error (fault.located place)⟩
          else
            fail sources (.includeCycle name) place
  | ⟨.directive .includeFile, text, pos⟩ :: rest, sources =>
      match rest with
      | other :: _ => fail sources (.invalidString text) other.pos
      | [] => fail sources (.missingOperand text) pos
  | ⟨.directive .org, text, pos⟩ :: rest, sources =>
      match rest with
      | [] => fail sources (.missingOperand text) pos
      | operand :: rest =>
          if (Operand.wordValue? operand.text).isSome then
            prepend [⟨.directive .org, text, pos⟩, operand]
              (splice library root closed expandFile rest sources)
          else
            fail sources (.invalidOrgOperand operand.text) operand.pos
  | token :: rest, sources =>
      prepend [token] (splice library root closed expandFile rest sources)

/-- Names with one taken out, however often it is listed. -/
def without (names : List String) (name : String) : List String :=
  names.filter (· != name)

/-- Taking out a name that is listed leaves fewer names. -/
theorem length_without_lt {names : List String} {name : String} (member : name ∈ names)
    : (without names name).length < names.length :=
  List.length_filter_lt_length_iff_exists.mpr ⟨name, member, by simp⟩

/-- Expands a file while the names in `closed` can still be opened. Opening one takes it out
for as long as its file is read, so that files nest no deeper than there are names.
-/
def expandFile (library : Library) (root : Path) (closed : List String)
    (file code : String) (sources : Sources) : Expansion :=
  splice library root closed
    (fun name _member code sources =>
      expandFile library root (without closed name) name code sources)
    (tokens file code) (sources.record file code)
termination_by closed.length
decreasing_by exact length_without_lt _member

end Expansion

/-- The texts quoted in a source: the names it could include. -/
def quotedTexts (code : String) : List String :=
  (tokens "" code).filterMap fun token =>
    match token.kind with
    | .text content => some content
    | _ => none

/-- The names that a source or any text of the library could include. -/
def includable (library : Library) (code : String) : List String :=
  (code :: library.texts).flatMap quotedTexts

/-- Expands a source. Paths are looked for from `root`, and the source's own name is open. -/
def expand (library : Library) (root : Path) (file code : String) : Expansion :=
  Expansion.expandFile library root (Expansion.without (includable library code) file) file code
    Sources.empty

/-- The address of the first directive in a list of tokens that sets the origin. -/
def origin? : List Token → Option UInt16
  | first :: second :: rest =>
      match first.kind, Operand.wordValue? second.text with
      | .directive .org, some address => some address
      | _, _ => origin? (second :: rest)
  | _ => none

end Asm6510.Source
