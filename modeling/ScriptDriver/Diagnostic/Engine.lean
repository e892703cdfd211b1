import ScriptDriver.Diagnostic.Basic
import ScriptDriver.Console.Screen
/-!
# Engine — reporting problems

An engine keeps every problem reported to it, in order, and prints each on a console if it has one.  The counts are
counts of what it keeps, so a problem whose message cannot be made is counted all the same.
-/
namespace ScriptDriver.Diagnostic

open Console

/-- Prints problems on a console, each after the name of the program unless that is empty. -/
structure Printer where
  prog : Text
  screen : Screen

def Printer.emit (p : Printer) (d : Diagnostic) : Except MessageFault Printer :=
  match d.message with
  | .error e => .error e
  | .ok message =>
    let opening : Text := if p.prog = [] then [] else p.screen.literal p.prog ++ ": "
    .ok { p with screen := p.screen.print (opening ++ d.severity.heading ++ " " ++ p.screen.literal message) }

/-- The problems reported so far, and where they are printed. -/
structure Engine where
  printer : Option Printer
  reported : List Diagnostic

namespace Engine

/-- An engine that only keeps what is reported. -/
def silent : Engine := ⟨none, []⟩

def printing (prog : Text) (screen : Screen) : Engine := ⟨some ⟨prog, screen⟩, []⟩

def errors (e : Engine) : Nat := e.reported.countP (·.severity.fails)

def warnings (e : Engine) : Nat := e.reported.countP (·.severity = .warning)

def failed (e : Engine) : Bool := 0 < e.errors

/-- Reports a problem: it is kept first and printed then. -/
def add (e : Engine) (d : Diagnostic) : Engine × Option MessageFault :=
  let kept := e.reported ++ [d]
  match e.printer with
  | none => (⟨none, kept⟩, none)
  | some p =>
    match p.emit d with
    | .ok p => (⟨some p, kept⟩, none)
    | .error fault => (⟨some p, kept⟩, some fault)

/-- Reports problems one after the other, up to one that cannot be printed. -/
def addAll (e : Engine) : List Diagnostic → Engine × Option MessageFault
  | [] => (e, none)
  | d :: ds =>
    match e.add d with
    | (e, none) => e.addAll ds
    | (e, some fault) => (e, some fault)

end Engine
end ScriptDriver.Diagnostic
