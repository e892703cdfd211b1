import ScriptDriver.Console.Table
/-!
# Screen — a console and what has been printed on it

How a console shows text is its own affair.  The usual one drops the control characters that a terminal acts on, wraps the
text to the width and ends with a line end.
-/
namespace ScriptDriver.Console

/-- The text that printing `t` usually shows. -/
def printed (width : Nat) (t : Text) : Text :=
  ((wrap width (t.filter (!isDropped ·))).flatMap (· ++ [.char '\n']))

/-- **How a console shows text**, given its width. -/
structure Rendering where
  /-- What is shown of a text that was escaped so that it shows as it is. -/
  literal : Text → Text := Console.literal
  /-- What printing a text shows. -/
  printed : Nat → Text → Text := Console.printed
  /-- What a table of two columns shows under a title. -/
  table : Nat → Text → List (Text × Text) → Text := Console.table

/-- A console: its width, the text shown on it, and how it shows text. -/
structure Screen where
  width : Nat
  shown : Text
  rendering : Rendering := {}

namespace Screen

def blank (width : Nat) : Screen := { width, shown := [] }

def literal (s : Screen) (t : Text) : Text := s.rendering.literal t

/-- Prints a text whose tags have been dealt with. -/
def print (s : Screen) (t : Text) : Screen := { s with shown := s.shown ++ s.rendering.printed s.width t }

def printLiteral (s : Screen) (t : Text) : Screen := s.print (s.literal t)

def printError (s : Screen) (t : Text) : Screen := s.print ("error: " ++ s.literal t)

def printTable (s : Screen) (title : Text) (entries : List (Text × Text)) : Screen :=
  { s with shown := s.shown ++ s.rendering.table s.width title entries }

end Screen
end ScriptDriver.Console
