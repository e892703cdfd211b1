import ScriptDriver.CommandLine.OptionTable
import ScriptDriver.Console.Screen
/-!
# Help — the help screen of an option table

A title line, a usage line, and a table of the rows that are not hidden: a column of synopses and a column of help texts.
-/
namespace ScriptDriver.CommandLine

open Console

def OptionTable.shown (t : OptionTable) : List Descriptor :=
  t.listed.filter fun d => d.isMatchable && !d.hidden

def OptionTable.printHelp (t : OptionTable) (screen : Screen) (prog title : Text) : Screen :=
  let screen := screen.print ("OVERVIEW: " ++ screen.literal title)
  let screen := screen.print []
  let screen := screen.print ("USAGE: " ++ screen.literal prog ++ " [options] <inputs>")
  let screen := screen.print []
  screen.printTable "OPTIONS" (t.shown.map fun d => (d.synopsis, d.help))

end ScriptDriver.CommandLine
