import Asm6510.Proofs.Source.Expanded

/-! Places in sources. Every token stands where its place says: in a file that was read, on a line
that was recorded, behind as many bytes as its column counts. The lines recorded for a file are
those of its only text, so that no later file takes the place of an earlier one.
-/

namespace Asm6510

/-- A fault with one place, of which `holds` holds. -/
def Fault.PlacedAt (holds : Source.Position → Prop) (fault : Fault) : Prop :=
  ∃ pos, fault.trail = [pos] ∧ holds pos

namespace Source

open Text

/-- A place where the text of a token starts, in the recorded lines of a file. -/
def Sources.Shows (sources : Sources) (pos : Position) : Prop :=
  ∃ code token line before after,
    sources.lines? pos.file = some (linesOf code)
    ∧ token ∈ tokens pos.file code
    ∧ token.pos = pos
    ∧ (linesOf code)[pos.line]? = some line
    ∧ line.toList = before ++ (token.text.toList ++ after)
    ∧ byteLength before = pos.col

-----------------------------------------------------------------------------------------
-- Places of tokens
-----------------------------------------------------------------------------------------

theorem Lexeme.length_pos_of_find? {cs : List Char} {lexeme : Lexeme}
    (found : Lexeme.find? cs = some lexeme)
    : 0 < lexeme.length := by
  obtain ⟨spelling, gap, rest, -, spelt, -, counted⟩ := Lexeme.leads_of_find? found
  obtain ⟨c, more, rfl, -⟩ := spelt.exists_cons
  rw [counted, List.length_cons]
  omega

/-- A form takes the front of a text, and the scan goes on behind it. -/
theorem Lexeme.take_append_of_find? {c : Char} {rest : List Char} {lexeme : Lexeme}
    (found : Lexeme.find? (c :: rest) = some lexeme)
    : (c :: rest).take lexeme.length ++ rest.drop (lexeme.length - 1) = c :: rest := by
  have left : (c :: rest).drop lexeme.length = rest.drop (lexeme.length - 1) := by
    rw [← Nat.succ_pred_eq_of_pos (Lexeme.length_pos_of_find? found)]
    rfl
  rw [← left]
  exact List.take_append_drop _ _

/-- A token of the rest of a line starts behind the bytes that its column counts. -/
theorem place_of_mem_scan {file : String} {line col : Nat} {cs : List Char} {token : Token}
    (member : token ∈ scan file line col cs)
    : ∃ before after,
        cs = before ++ (token.text.toList ++ after)
        ∧ token.pos = ⟨file, line, col + byteLength before⟩ := by
  fun_induction scan file line col cs with
  | case1 => simp at member
  | case2 col c rest blank ih | case4 col c rest ink missing ih =>
      obtain ⟨before, after, split, placed⟩ := ih member
      refine ⟨c :: before, after, by rw [split, List.cons_append], ?_⟩
      rw [placed, byteLength_cons, Nat.add_assoc]
  | case3 col c rest ink lexeme found taken ih =>
      rcases List.mem_cons.mp member with rfl | member
      · obtain ⟨after, split⟩ := (trimEnd_prefix_self taken).trans (List.take_prefix _ _)
        exact ⟨[], after, by simpa using split.symm, rfl⟩
      · obtain ⟨before, after, split, placed⟩ := ih member
        refine ⟨taken ++ before, after, ?_, ?_⟩
        · rw [List.append_assoc, ← split]
          exact (Lexeme.take_append_of_find? found).symm
        · rw [placed, byteLength_append, Nat.add_assoc]

/-- Every token of a text starts on its line behind the bytes that its column counts. -/
theorem place_of_mem_tokens {file code : String} {token : Token} (member : token ∈ tokens file code)
    : token.pos.file = file
      ∧ ∃ line before after,
        (linesOf code)[token.pos.line]? = some line
        ∧ line.toList = before ++ (token.text.toList ++ after)
        ∧ byteLength before = token.pos.col := by
  obtain ⟨⟨cs, line⟩, numbered, inside⟩ := List.mem_flatMap.mp member
  obtain ⟨before, after, split, placed⟩ := place_of_mem_scan inside
  obtain ⟨comment, rest⟩ := isPrefix_stripComment false cs
  rw [placed]
  refine ⟨rfl, String.ofList cs, before, after ++ comment, ?_, ?_, (Nat.zero_add _).symm⟩
  · rw [linesOf, List.getElem?_map, List.mk_mem_zipIdx_iff_getElem?.mp numbered]
    rfl
  · rw [String.toList_ofList, ← rest, split]
    simp

/-- Every token of a text stands where its place says. -/
theorem shows_of_mem_tokens {file code : String} {token : Token} (member : token ∈ tokens file code)
    {sources : Sources} (recorded : sources.lines? file = some (linesOf code))
    : sources.Shows token.pos := by
  obtain ⟨rfl, line, before, after, listed, split, counted⟩ := place_of_mem_tokens member
  exact ⟨code, token, line, before, after, recorded, member, rfl, listed, split, counted⟩

-----------------------------------------------------------------------------------------
-- Recorded lines
-----------------------------------------------------------------------------------------

namespace Sources

variable {sources : Sources} {file code : String}

theorem lookup_cons_of_ne {name other : String} (different : name ≠ other) (lines : List String)
    (entries : List (String × List String))
    : ((other, lines) :: entries).lookup name = entries.lookup name := by
  rw [List.lookup_cons, beq_false_of_ne different]

/-- Entries replaced for one file are still entries for that file, and the others stay. -/
theorem lookup_replaced (entries : List (String × List String)) (file name : String)
    (lines : List String)
    : (entries.map fun entry => if entry.1 == file then (file, lines) else entry).lookup name
      = if name = file then (entries.lookup file).map fun _ => lines else entries.lookup name := by
  induction entries with
  | nil => simp
  | cons entry entries ih =>
      obtain ⟨other, old⟩ := entry
      rw [List.map_cons]
      by_cases replaced : other = file
      · subst replaced
        rw [if_pos (beq_self_eq_true _)]
        by_cases sought : name = other
        · simp [sought]
        · rw [lookup_cons_of_ne sought, ih, if_neg sought, if_neg sought, lookup_cons_of_ne sought]
      · rw [if_neg (by simpa using replaced)]
        by_cases sought : name = other
        · simp [sought, replaced]
        · rw [lookup_cons_of_ne sought, ih, lookup_cons_of_ne sought,
            lookup_cons_of_ne (Ne.symm replaced)]

/-- A recorded file has its lines, and the other files keep theirs. -/
theorem lines?_record (sources : Sources) (file code name : String)
    : (sources.record file code).lines? name
      = if name = file then some (linesOf code) else sources.lines? name := by
  unfold record insert lines?
  split
  · rename_i known
    obtain ⟨entry, member, same⟩ := List.any_eq_true.mp known
    rw [lookup_replaced]
    cases found : sources.files.lookup file with
    | some lines => rfl
    | none => simpa [beq_iff_eq.mp same] using List.lookup_eq_none_iff.mp found entry member
  · rename_i unknown
    rw [List.lookup_append]
    split
    · rename_i same
      have missing : sources.files.lookup file = none := by
        refine List.lookup_eq_none_iff.mpr fun entry member => bne_iff_ne.mpr ?_
        rintro rfl
        exact unknown (List.any_eq_true.mpr ⟨entry, member, beq_self_eq_true _⟩)
      simp [same, missing]
    · rename_i different
      rw [lookup_cons_of_ne different, List.lookup_nil, Option.or_none]

/-- Files are only added. -/
def Extends (earlier later : Sources) : Prop :=
  ∀ name lines, earlier.lines? name = some lines → later.lines? name = some lines

theorem Extends.refl (sources : Sources)
    : sources.Extends sources :=
  fun _ _ recorded => recorded

theorem Extends.trans {first second third : Sources} (earlier : first.Extends second)
    (later : second.Extends third)
    : first.Extends third :=
  fun name lines recorded => later name lines (earlier name lines recorded)

/-- What was shown is still shown when more files are read. -/
theorem Shows.extends {later : Sources} {pos : Position} (shown : sources.Shows pos)
    (grown : sources.Extends later)
    : later.Shows pos := by
  obtain ⟨code, token, line, before, after, recorded, rest⟩ := shown
  exact ⟨code, token, line, before, after, grown _ _ recorded, rest⟩

/-- Every recorded file has the lines of its only text, which `textOf` gives. -/
def Faithful (textOf : String → Option String) (sources : Sources) : Prop :=
  ∀ name lines,
    sources.lines? name = some lines
    → ∃ code, textOf name = some code ∧ lines = linesOf code

variable {textOf : String → Option String}

theorem faithful_empty
    : Faithful textOf empty :=
  fun _ _ recorded => nomatch recorded

/-- A file read again is recorded with the lines it had. -/
theorem Faithful.record (faithful : Faithful textOf sources) (own : textOf file = some code)
    : Faithful textOf (sources.record file code) ∧ sources.Extends (sources.record file code) := by
  refine ⟨fun name lines recorded => ?_, fun name lines recorded => ?_⟩
  · rw [lines?_record] at recorded
    split at recorded
    · rename_i same
      exact ⟨code, by rw [same, own], (Option.some.inj recorded).symm⟩
    · exact faithful name lines recorded
  · rw [lines?_record]
    split
    · rename_i same
      obtain ⟨text, found, rfl⟩ := faithful name lines recorded
      rw [same, own] at found
      rw [Option.some.inj found]
    · exact recorded

end Sources

-----------------------------------------------------------------------------------------
-- Expansions
-----------------------------------------------------------------------------------------

namespace Expansion

/-- An expansion that has read on from some sources. Its tokens stand where their places say, and a
fault that stopped it has one place, which is a token's.
-/
structure Placed (textOf : String → Option String) (before : Sources) (expansion : Expansion)
    : Prop where
  faithful : expansion.sources.Faithful textOf
  grown : before.Extends expansion.sources
  tokens
    : ∀ tokens,
        expansion.outcome = .ok tokens
        → ∀ token ∈ tokens, expansion.sources.Shows token.pos
  fault
    : ∀ fault,
        expansion.outcome = .error fault
        → fault.PlacedAt expansion.sources.Shows

variable {library : Library} {root : Path} {closed : List String} {file code : String}
  {textOf : String → Option String} {before sources : Sources} {expansion : Expansion}

theorem placed_fail (faithful : sources.Faithful textOf) (cause : Cause) {pos : Position}
    (shown : sources.Shows pos)
    : Placed textOf sources (fail sources cause pos) where
  faithful := faithful
  grown := .refl sources
  tokens _ expanded := nomatch expanded
  fault fault stopped := by
    obtain rfl := Except.error.inj stopped
    exact ⟨pos, rfl, shown⟩

theorem Placed.prepend (placed : Placed textOf before expansion) {front : List Token}
    (shown : ∀ token ∈ front, before.Shows token.pos)
    : Placed textOf before (expansion.prepend front) where
  faithful := placed.faithful
  grown := placed.grown
  tokens tokens expanded := by
    obtain ⟨tail, found, rfl⟩ := prepend_eq_ok expanded
    intro token member
    rcases List.mem_append.mp member with early | late
    · exact (shown token early).extends placed.grown
    · exact placed.tokens tail found token late
  fault fault stopped := placed.fault fault (prepend_eq_error stopped)

theorem Placed.of_extends (placed : Placed textOf sources expansion)
    (grown : before.Extends sources)
    : Placed textOf before expansion :=
  { placed with grown := grown.trans placed.grown }

/-- A file whose tokens stand where their places say, and which opens only such files, is expanded
to such tokens, or is stopped at one.
-/
theorem placed_splice
    {expandFile : (name : String) → name ∈ closed → String → Sources → Expansion}
    (opening : ∀ name member code sources,
      library.load (root.join ⟨name⟩) = some code
      → sources.Faithful textOf
      → Placed textOf sources (expandFile name member code sources))
    {stream : List Token} (faithful : sources.Faithful textOf)
    (scanned : ∀ token ∈ stream, sources.Shows token.pos)
    : Placed textOf sources (splice library root closed expandFile stream sources) := by
  fun_induction splice library root closed expandFile stream sources with
  | case1 sources =>
      refine ⟨faithful, .refl _, fun tokens expanded => ?_, by simp⟩
      obtain rfl := Except.ok.inj expanded
      exact scanned
  | case3 text pos name quotation place rest sources code loaded openable included front found =>
      rename_i ih
      have opened : Placed textOf sources included := opening _ _ _ _ loaded faithful
      have others := ih opened.faithful fun token member =>
        (scanned token (by simp [member])).extends opened.grown
      exact (others.prepend (opened.tokens front found)).of_extends opened.grown
  | case4 text pos name quotation place rest sources code loaded openable included fault found =>
      have opened : Placed textOf sources included := opening _ _ _ _ loaded faithful
      refine ⟨opened.faithful, opened.grown, by simp, fun other stopped => ?_⟩
      obtain rfl := Except.error.inj stopped
      -- The fault of an included file has its place there, which the directive's does not replace.
      obtain ⟨pos, trail, shown⟩ := opened.fault fault found
      exact ⟨pos, by simp [Fault.located, trail], shown⟩
  | case9 text pos sources operand rest word ih =>
      refine (ih faithful fun token member => scanned token (by simp [member])).prepend ?_
      intro token member
      exact scanned token (List.mem_of_mem_take (i := 2) (by simpa using member))
  | case11 token rest sources _ notInclude notOrigin ih =>
      refine (ih faithful fun token member => scanned token (by simp [member])).prepend ?_
      intro other member
      exact scanned other (by simp [List.mem_singleton.mp member])
  | case7 | case8 => exact placed_fail faithful _ (scanned _ (.head _))
  | case2 | case5 | case6 | case10 =>
      exact placed_fail faithful _ (scanned _ (.tail _ (.head _)))

/-- A file is expanded to tokens that stand where their places say.
Witness: induction on the number of names that can still be opened, each with its only text.
-/
theorem placed_expandFile (opens : ∀ name ∈ closed, library.load (root.join ⟨name⟩) = textOf name)
    (own : textOf file = some code) (faithful : sources.Faithful textOf)
    : Placed textOf sources (expandFile library root closed file code sources) := by
  induction count : closed.length using Nat.strongRecOn generalizing closed file code sources with
  | ind count ih =>
      subst count
      obtain ⟨recorded, grown⟩ := faithful.record own
      have listed : (sources.record file code).lines? file = some (linesOf code) := by
        rw [Sources.lines?_record, if_pos rfl]
      rw [expandFile]
      refine (placed_splice ?_ recorded fun token member =>
        shows_of_mem_tokens member listed).of_extends grown
      intro name member text sources loaded faithful
      have fewer : ∀ other ∈ without closed name,
          library.load (root.join ⟨other⟩) = textOf other :=
        fun other inside => opens other (List.mem_of_mem_filter inside)
      exact ih _ (length_without_lt member) fewer (by rw [← opens name member, loaded]) faithful rfl

end Expansion

/-- The only text of each name in a run: the source's own name is never opened again. -/
def onlyText (library : Library) (root : Path) (file code name : String) : Option String :=
  if name = file then some code else library.load (root.join ⟨name⟩)

/-- An expansion places its tokens, or its fault, in the sources that it has read. -/
theorem placed_expand (library : Library) (root : Path) (file code : String)
    : (expand library root file code).Placed (onlyText library root file code) Sources.empty := by
  refine Expansion.placed_expandFile ?_ (if_pos rfl) Sources.faithful_empty
  intro name inside
  have other : name ≠ file := by simpa using List.of_mem_filter inside
  exact (if_neg other).symm

end Source

end Asm6510
