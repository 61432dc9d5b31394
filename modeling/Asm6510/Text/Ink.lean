/-! Coloured terminal text: the escape sequences that switch a colour or a face on and off. -/

namespace Asm6510.Text

/-- The colours a report uses. -/
inductive Ink where
  | red
  | green
  | yellow
  | blue
  | cyan
deriving DecidableEq, Repr

namespace Ink

/-- A terminal control sequence for a display attribute. -/
def sequence (code : String) : String :=
  "\x1b[" ++ code ++ "m"

/-- Switches the colour on. -/
def on : Ink → String
  | red => sequence "31"
  | green => sequence "32"
  | yellow => sequence "33"
  | blue => sequence "34"
  | cyan => sequence "36"

/-- Returns to the default colour. -/
def off : String :=
  sequence "39"

/-- Text in one colour. -/
def paint (ink : Ink) (s : String) : String :=
  ink.on ++ s ++ off

/-- Bold text in one colour; the colour is switched off before the weight. -/
def strong (ink : Ink) (s : String) : String :=
  ink.on ++ sequence "1" ++ s ++ off ++ sequence "22"

end Ink

/-- Underlined text. -/
def underlined (s : String) : String :=
  Ink.sequence "4" ++ s ++ Ink.sequence "24"

end Asm6510.Text
