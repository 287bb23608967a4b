/-!
# Colours of the terminal

Styled text is put between a code that switches the style on and one that switches it off.

* `Style` — the pair of codes; `Style.paint` puts a text between them.
* The named styles of report lines, and those of table cells, which use the basic colours.
-/

namespace LoadGen
namespace Report

/-- The codes that switch a style on and off. -/
structure Style where
  on : String
  off : String

namespace Style

/-- The control sequence with the given parameters. -/
def code (parameters : String) : String :=
  "\x1b[" ++ parameters ++ "m"

def paint (s : Style) (text : String) : String :=
  s.on ++ text ++ s.off

def unstyled : Style := ⟨"", ""⟩

def heading : Style := ⟨code "38;5;11" ++ code "1" ++ code "4", code "0"⟩

def subheading : Style := ⟨code "38;5;14" ++ code "1", code "0"⟩

/-- Bold text in one of the extended colours. -/
def boldColour (n : Nat) : Style := ⟨code ("38;5;" ++ toString n) ++ code "1", code "0"⟩

/-- Text in one of the extended colours. -/
def colour (n : Nat) : Style := ⟨code ("38;5;" ++ toString n), code "39"⟩

def boldGreen : Style := boldColour 10
def boldYellow : Style := boldColour 11
def boldRed : Style := boldColour 9
def green : Style := colour 10
def yellow : Style := colour 11
def red : Style := colour 9

/-- Bold table cells. -/
def cellBold : Style := ⟨code "1", code "22"⟩

/-- Table cells in one of the basic colours. -/
def cellColour (n : Nat) : Style := ⟨code (toString n), code "39"⟩

def cellRed : Style := cellColour 31
def cellGreen : Style := cellColour 32
def cellBlue : Style := cellColour 34
def cellCyan : Style := cellColour 36

end Style
end Report
end LoadGen
