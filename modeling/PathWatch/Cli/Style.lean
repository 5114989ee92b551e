/-!
Colours and weights of text on a terminal. Each ends by what undoes it, so
styles can be put around each other.
-/
namespace PathWatch.Cli

def styled (on off : Nat) (text : String) : String := s!"\x1b[{on}m{text}\x1b[{off}m"

def bold (text : String) : String := styled 1 0 text
def dimmed (text : String) : String := styled 2 0 text
def red (text : String) : String := styled 31 39 text
def green (text : String) : String := styled 32 39 text
def yellow (text : String) : String := styled 33 39 text
def blue (text : String) : String := styled 34 39 text
def cyan (text : String) : String := styled 36 39 text

end PathWatch.Cli
