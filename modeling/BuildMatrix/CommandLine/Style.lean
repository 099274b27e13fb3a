/-!
# Styled texts

A terminal shows a text in a style between escape sequences. Where styles are switched off, texts are
left as they are.
-/

namespace BuildMatrix.CommandLine

/-- A colour of letters. -/
inductive Colour
  | red
  | green
  | yellow
  | blue
  | cyan
  deriving DecidableEq, Repr

/-- The number of a colour in escape sequences. -/
def Colour.code : Colour → Nat
  | red => 31
  | green => 32
  | yellow => 33
  | blue => 34
  | cyan => 36

/-- How a text is shown. -/
structure Style where
  colour : Option Colour := none
  isBold : Bool := false
  isDim : Bool := false
  isUnderlined : Bool := false
  deriving DecidableEq, Repr

namespace Style

/-- The numbers of a style, in the order that they are written in. -/
def codes (s : Style) : List Nat :=
  (s.colour.map Colour.code).toList ++ (if s.isBold then [1] else []) ++
    (if s.isDim then [2] else []) ++ (if s.isUnderlined then [4] else [])

/-- The escape sequence of a number. -/
def sequence (code : Nat) : String :=
  "\x1b[" ++ toString code ++ "m"

/-- A text in a style, if styles are switched on. -/
def paint (s : Style) (isOn : Bool) (text : String) : String :=
  if isOn then String.join (s.codes.map sequence) ++ text ++ sequence 0 else text

end Style

end BuildMatrix.CommandLine
