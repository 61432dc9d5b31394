import Asm6510.Proofs.Assembly.Unplaced

/-! Sources written out in one line. A source whose included files are put in place by hand, and
all of it on one line, is assembled like the source itself.
-/

namespace Asm6510.Assembly

open Source (Library Token flat)

/-- Flattening preserves meaning: the texts of an expansion on one line give the same output or
the same fault, places aside, under any name and whatever else could be loaded.
-/
theorem runSource_flat {assembler other : Assembler} (sets : other.set = assembler.set)
    {file code : String} {tokens : List Token}
    (expanded : (Source.expand assembler.library assembler.root file code).outcome = .ok tokens)
    (name : String) (base : UInt16)
    : unplacedResult (other.runSource name (flat tokens) base).2
      = unplacedResult (assembler.runSource file code base).2 := by
  obtain ⟨again, expandedAgain, same⟩ := Source.expand_flat expanded other.root name
  obtain ⟨note, flattened⟩ := runSource_of_expand expandedAgain base
  obtain ⟨log, direct⟩ := runSource_of_expand expanded base
  rw [flattened, direct, sets]
  exact twoPass_alike base note log same

/-- The small assembler, which can load a file with a comment and a quoted semicolon. -/
def nestedAssembler : Assembler where
  set := smallSet
  library := Library.ofFiles [(⟨"./text.asm"⟩, "text: .string \";\" ; one sign\r\n.byte $FF")]

theorem runSource_flat_nested
    : (nestedAssembler.runSource "main.asm" ".include \"text.asm\"\nJMP text"
        0xC000).2.toOption.map (·.bytes)
        = some [0x3B, 0x00, 0xFF, 0x4C, 0x00, 0xC0]
      ∧ unplacedResult (smallAssembler.runSource "flat"
          "text: .string \";\" .byte $FF JMP text" 0xC000).2
        = unplacedResult (nestedAssembler.runSource "main.asm"
            ".include \"text.asm\"\nJMP text" 0xC000).2 := by
  refine ⟨by decide +kernel, ?_⟩
  have written : (Source.expand nestedAssembler.library nestedAssembler.root "main.asm"
        ".include \"text.asm\"\nJMP text").outcome.toOption.map flat
      = some "text: .string \";\" .byte $FF JMP text" := by
    decide +kernel
  have sets : smallAssembler.set = nestedAssembler.set := rfl
  cases expanded : (Source.expand nestedAssembler.library nestedAssembler.root "main.asm"
      ".include \"text.asm\"\nJMP text").outcome with
  | error fault => simp [expanded, Except.toOption] at written
  | ok tokens =>
      have line : flat tokens = "text: .string \";\" .byte $FF JMP text" := by
        simpa [expanded, Except.toOption] using written
      rw [← line]
      exact runSource_flat sets expanded "flat" 0xC000

end Asm6510.Assembly
