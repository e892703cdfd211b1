import ScriptDriver.CommandLine.OptionTable
/-!
# Standard — the options of the script compiler

One row per accepted spelling.  Short spellings stand for the long option; the dependency modes exclude each other, and
so do the output types, the last one given winning.
-/
namespace ScriptDriver.CommandLine

def standardRows : List Descriptor :=
  [
    { id := .dependencyGroup, name := "<M group>", kind := .group },
    { id := .outputGroup, name := "<output type group>", kind := .group },
    { id := .includeDir, name := "-I", kind := .joinedOrSeparate, help := "Add directory to include search path",
      metavar := "<dir>" },
    { id := .outputDir, name := "-o", kind := .separate, help := "Specify output directory",
      metavar := "<directory>" },
    { id := .dependencyOnly, name := "-M", kind := .flag, group := some .dependencyGroup,
      help := "Generate a .d dependency file only" },
    { id := .dependencyToo, name := "-MD", kind := .flag, group := some .dependencyGroup,
      help := "Generate a .d dependency file alongside the bitcode" },
    { id := .emitAssembly, name := "-emit-asm", kind := .flag, group := some .outputGroup,
      help := "Emit target assembly files" },
    { id := .emitAssemblyShort, name := "-S", kind := .flag, group := some .outputGroup,
      standsFor := some .emitAssembly, help := "Alias for -emit-asm" },
    { id := .emitLlvm, name := "-emit-llvm", kind := .flag, group := some .outputGroup,
      help := "Emit LLVM assembly (.ll) files" },
    { id := .emitBitcode, name := "-emit-bc", kind := .flag, group := some .outputGroup,
      help := "Emit LLVM bitcode (.bc) files (default)" },
    { id := .emitNothing, name := "-emit-nothing", kind := .flag, group := some .outputGroup,
      help := "Build the source without writing any output" },
    { id := .allowRsNames, name := "-allow-rs-prefix", kind := .flag, hidden := true,
      help := "Allow user-defined functions prefixed with 'rs'" },
    { id := .reflectionBase, name := "-java-reflection-path-base", kind := .separate,
      help := "Base directory for the reflected Java sources", metavar := "<base directory>" },
    { id := .reflectionBaseShort, name := "-p", kind := .separate, standsFor := some .reflectionBase,
      help := "Alias for -java-reflection-path-base", metavar := "<base directory>" },
    { id := .reflectionPackage, name := "-java-reflection-package-name", kind := .separate,
      help := "Package name for the reflected Java sources", metavar := "<package name>" },
    { id := .reflectionPackageShort, name := "-j", kind := .separate, standsFor := some .reflectionPackage,
      help := "Alias for -java-reflection-package-name", metavar := "<package name>" },
    { id := .bitcodeStorage, name := "-bitcode-storage", kind := .separate,
      help := "Where to store the bitcode: 'ar' (APK resource) or 'jc' (Java code)", metavar := "<value>" },
    { id := .bitcodeStorageJoined, name := "-bitcode-storage=", kind := .joined, standsFor := some .bitcodeStorage,
      hidden := true },
    { id := .bitcodeStorageShort, name := "-s", kind := .separate, standsFor := some .bitcodeStorage,
      help := "Alias for -bitcode-storage", metavar := "<value>" },
    { id := .dependencyDir, name := "-output-dep-dir", kind := .separate,
      help := "Directory for the dependency files (default: the output directory)", metavar := "<directory>" },
    { id := .dependencyDirShort, name := "-d", kind := .separate, standsFor := some .dependencyDir,
      help := "Alias for -output-dep-dir", metavar := "<directory>" },
    { id := .dependencyTarget, name := "-additional-dep-target", kind := .separate,
      help := "Additional target to list in the dependency files", metavar := "<target>" },
    { id := .dependencyTargetShort, name := "-a", kind := .separate, standsFor := some .dependencyTarget,
      help := "Alias for -additional-dep-target", metavar := "<target>" },
    { id := .targetApi, name := "-target-api", kind := .separate, help := "Target API level", metavar := "<level>" },
    { id := .help, name := "-help", kind := .flag, driver := true, help := "Print this help text" },
    { id := .helpLong, name := "--help", kind := .flag, standsFor := some .help, driver := true, hidden := true },
    { id := .version, name := "-version", kind := .flag, driver := true, help := "Print the compiler version" },
    { id := .versionLong, name := "--version", kind := .flag, standsFor := some .version, driver := true,
      hidden := true }
  ]

def standard : OptionTable := ⟨standardRows, by decide⟩

end ScriptDriver.CommandLine
