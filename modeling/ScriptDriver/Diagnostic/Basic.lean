import ScriptDriver.Text.Decimal
/-!
# Diagnostic — problems with a command line

A diagnostic has an identifier, which gives its severity and the pattern of its message, and arguments that fill the
pattern.  A message fails only when the pattern asks for an argument that is not there.
-/
namespace ScriptDriver

/-- How bad a problem is; an error or worse fails the run. -/
inductive Severity where
  | note
  | warning
  | error
  | fatal
  deriving DecidableEq, Inhabited

def Severity.fails : Severity → Bool
  | .note | .warning => false
  | .error | .fatal => true

def Severity.heading : Severity → Text
  | .note => "note:"
  | .warning => "warning:"
  | .error => "error:"
  | .fatal => "fatal error:"

inductive DiagnosticId where
  | missingArgument
  | unknownArgument
  | notAllowedWith
  | invalidValue
  | invalidInteger
  | noInputFiles
  | responseFileCycle
  deriving DecidableEq, Inhabited

/-- A message pattern is made of fixed text and places for arguments. -/
inductive Pattern.Piece where
  | fixed (t : Text)
  | argument (index : Nat)

namespace DiagnosticId

def severity : DiagnosticId → Severity
  | .responseFileCycle => .warning
  | _ => .error

def pattern : DiagnosticId → List Pattern.Piece
  | .missingArgument =>
    [.fixed "argument to '", .argument 0, .fixed "' is missing (expected ", .argument 1, .fixed " value", .argument 2,
      .fixed ")"]
  | .unknownArgument => [.fixed "unknown argument: '", .argument 0, .fixed "'"]
  | .notAllowedWith =>
    [.fixed "invalid argument '", .argument 0, .fixed "' not allowed with '", .argument 1, .fixed "'"]
  | .invalidValue => [.fixed "invalid value '", .argument 1, .fixed "' in '", .argument 0, .fixed "'"]
  | .invalidInteger => [.fixed "invalid integral value '", .argument 1, .fixed "' in '", .argument 0, .fixed "'"]
  | .noInputFiles => [.fixed "no input files"]
  | .responseFileCycle =>
    [.fixed "response file '", .argument 0, .fixed "' not expanded (recursive or too deeply nested)"]

end DiagnosticId

inductive Diagnostic.Argument where
  | text (t : Text)
  | number (n : Int)
  deriving DecidableEq

def Diagnostic.Argument.shown : Diagnostic.Argument → Text
  | .text t => t
  | .number n => Text.ofInt n

structure Diagnostic where
  id : DiagnosticId
  severity : Severity
  args : List Diagnostic.Argument
  deriving DecidableEq

namespace Diagnostic

/-- Why a message could not be made. -/
inductive MessageFault where
  /-- Nothing names the option whose values are missing. -/
  | noArgument
  /-- The pattern asks for an argument that is not there. -/
  | noSuchArgument (index : Nat)
  deriving DecidableEq

def MessageFault.message : MessageFault → Text
  | .noArgument => "list index out of range"
  | .noSuchArgument index => "Replacement index " ++ Text.ofNat index ++ " out of range for positional args tuple"

/-- The pattern with its places filled. -/
def fill (args : List Argument) : List Pattern.Piece → Except MessageFault Text
  | [] => .ok []
  | .fixed t :: rest =>
    match fill args rest with
    | .ok u => .ok (t ++ u)
    | .error e => .error e
  | .argument index :: rest =>
    match args[index]? with
    | none => .error (.noSuchArgument index)
    | some a =>
      match fill args rest with
      | .ok u => .ok (a.shown ++ u)
      | .error e => .error e

/-- The arguments of a missing value: the option, the number of values, one unless it is given, and the plural ending
that goes with the number. -/
def withPlural : List Argument → Except MessageFault (List Argument)
  | [] => .error .noArgument
  | option :: rest =>
    let count := rest.headD (.number 1)
    .ok [option, count, .text (if count = .number 1 then "" else "s")]

def message (d : Diagnostic) : Except MessageFault Text :=
  if d.id = .missingArgument then
    match withPlural d.args with
    | .ok args => fill args d.id.pattern
    | .error e => .error e
  else fill d.args d.id.pattern

/-- The problem with these arguments, as bad as its identifier says. -/
def of (id : DiagnosticId) (args : List Argument) : Diagnostic := ⟨id, id.severity, args⟩

end Diagnostic
end ScriptDriver
