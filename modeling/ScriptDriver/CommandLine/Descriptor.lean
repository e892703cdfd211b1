import ScriptDriver.Text.Basic
/-!
# Descriptor — the rows of an option table

A row has an identifier, the name it is typed with, and a kind that says where its values stand.  Options of one group
exclude each other, and a row may stand for another row.
-/
namespace ScriptDriver.CommandLine

/-- The identifiers of rows, in the order in which rows are listed. -/
inductive OptionId where
  | invalid
  | input
  | unknown
  | dependencyGroup
  | outputGroup
  | includeDir
  | outputDir
  | dependencyOnly
  | dependencyToo
  | emitAssembly
  | emitAssemblyShort
  | emitLlvm
  | emitBitcode
  | emitNothing
  | allowRsNames
  | reflectionBase
  | reflectionBaseShort
  | reflectionPackage
  | reflectionPackageShort
  | bitcodeStorage
  | bitcodeStorageJoined
  | bitcodeStorageShort
  | dependencyDir
  | dependencyDirShort
  | dependencyTarget
  | dependencyTargetShort
  | targetApi
  | help
  | helpLong
  | version
  | versionLong
  deriving DecidableEq, Inhabited

namespace OptionId

def all : List OptionId :=
  [.invalid, .input, .unknown, .dependencyGroup, .outputGroup, .includeDir, .outputDir, .dependencyOnly,
    .dependencyToo, .emitAssembly, .emitAssemblyShort, .emitLlvm, .emitBitcode, .emitNothing, .allowRsNames,
    .reflectionBase, .reflectionBaseShort, .reflectionPackage, .reflectionPackageShort, .bitcodeStorage,
    .bitcodeStorageJoined, .bitcodeStorageShort, .dependencyDir, .dependencyDirShort, .dependencyTarget,
    .dependencyTargetShort, .targetApi, .help, .helpLong, .version, .versionLong]

theorem mem_all (id : OptionId) : id ∈ all := by cases id <;> decide

def number : OptionId → Nat
  | .invalid => 0
  | .input => 1
  | .unknown => 2
  | .dependencyGroup => 3
  | .outputGroup => 4
  | .includeDir => 5
  | .outputDir => 6
  | .dependencyOnly => 7
  | .dependencyToo => 8
  | .emitAssembly => 9
  | .emitAssemblyShort => 10
  | .emitLlvm => 11
  | .emitBitcode => 12
  | .emitNothing => 13
  | .allowRsNames => 14
  | .reflectionBase => 15
  | .reflectionBaseShort => 16
  | .reflectionPackage => 17
  | .reflectionPackageShort => 18
  | .bitcodeStorage => 19
  | .bitcodeStorageJoined => 20
  | .bitcodeStorageShort => 21
  | .dependencyDir => 22
  | .dependencyDirShort => 23
  | .dependencyTarget => 24
  | .dependencyTargetShort => 25
  | .targetApi => 26
  | .help => 27
  | .helpLong => 28
  | .version => 29
  | .versionLong => 30

/-- The name under which an identifier is reported. -/
def label : OptionId → String
  | .invalid => "INVALID"
  | .input => "INPUT"
  | .unknown => "UNKNOWN"
  | .dependencyGroup => "M_Group"
  | .outputGroup => "Output_Type_Group"
  | .includeDir => "I"
  | .outputDir => "o"
  | .dependencyOnly => "M"
  | .dependencyToo => "MD"
  | .emitAssembly => "emit_asm"
  | .emitAssemblyShort => "S"
  | .emitLlvm => "emit_llvm"
  | .emitBitcode => "emit_bc"
  | .emitNothing => "emit_nothing"
  | .allowRsNames => "allow_rs_prefix"
  | .reflectionBase => "java_reflection_path_base"
  | .reflectionBaseShort => "p"
  | .reflectionPackage => "java_reflection_package_name"
  | .reflectionPackageShort => "j"
  | .bitcodeStorage => "bitcode_storage"
  | .bitcodeStorageJoined => "bitcode_storage_EQ"
  | .bitcodeStorageShort => "s"
  | .dependencyDir => "output_dep_dir"
  | .dependencyDirShort => "d"
  | .dependencyTarget => "additional_dep_target"
  | .dependencyTargetShort => "a"
  | .targetApi => "target_api"
  | .help => "help"
  | .helpLong => "help_long"
  | .version => "version"
  | .versionLong => "version_long"

end OptionId

/-- Where an option's values stand. -/
inductive Kind where
  /-- A name for several options, never typed itself. -/
  | group
  | input
  /-- An argument that looks like an option and is none. -/
  | unknown
  | flag
  /-- The value follows the name in the same token. -/
  | joined
  /-- The value is the next token. -/
  | separate
  /-- The value follows the name, or is the next token if nothing follows. -/
  | joinedOrSeparate
  /-- As many of the next tokens as the row says. -/
  | multi
  deriving DecidableEq, Inhabited

/-- A row of an option table. -/
structure Descriptor where
  id : OptionId
  name : Text
  kind : Kind
  group : Option OptionId := none
  /-- The row this one is another spelling of. -/
  standsFor : Option OptionId := none
  hidden : Bool := false
  /-- Handled by the command line itself. -/
  driver : Bool := false
  /-- The number of values of a `multi` row. -/
  arity : Nat := 0
  help : Text := []
  metavar : Text := []
  deriving DecidableEq, Inhabited

namespace Descriptor

def input : Descriptor := { id := .input, name := "<input>", kind := .input }

def unknown : Descriptor := { id := .unknown, name := "<unknown>", kind := .unknown }

def isMatchable (d : Descriptor) : Bool := !(d.kind = .group || d.kind = .input || d.kind = .unknown)

/-- The row as it is shown in the help text: its name with placeholders where its values stand. -/
def synopsis (d : Descriptor) : Text :=
  let metavar : Text := if d.metavar = [] then "<value>" else d.metavar
  match d.kind with
  | .flag => d.name
  | .joined => d.name ++ metavar
  | .multi => Text.joinWith " " (d.name :: List.replicate d.arity metavar)
  | _ => d.name ++ " " ++ metavar

end Descriptor
end ScriptDriver.CommandLine
