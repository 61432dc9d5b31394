import Asm6510.Source.Path

/-! Where source text is loaded from. -/

namespace Asm6510.Source

/-- A store of texts. It answers the same path with the same text at any time, and holds only
finitely many texts.
-/
structure Library where
  load : Path → Option String
  texts : List String
  mem_texts : ∀ {path text}, load path = some text → text ∈ texts

namespace Library

/-- Files held in memory; of two files under the same path the later one counts. -/
def ofFiles (files : List (Path × String)) : Library where
  load path := (files.reverse.find? fun file => file.1.same path).map (·.2)
  texts := files.map (·.2)
  mem_texts := by
    intro path text found
    obtain ⟨file, hit, rfl⟩ := Option.map_eq_some_iff.mp found
    have member := List.mem_of_find?_eq_some hit
    exact List.mem_map.mpr ⟨file, by simpa using member, rfl⟩

/-- Texts loaded ahead, each under the spelling of the path that it was asked for by. -/
def ofLoaded (files : List (Path × String)) : Library where
  load path := files.lookup path
  texts := files.map (·.2)
  mem_texts := by
    intro path text found
    obtain ⟨before, after, rfl, _⟩ := List.lookup_eq_some_iff.mp found
    simp

end Library

end Asm6510.Source
