import ScriptDriver.Console.Screen
import ScriptDriver.Settings.Basic
/-!
# Banner — the version banner

What the program says about itself.
-/
namespace ScriptDriver

def version : Text := "0.1.0"

/-- The version of the platform that is usually there. -/
def usualPlatform : Text := "3.11.2"

def title : Text := "RenderScript source compiler"

def bannerLines (platform : Text) : List Text :=
  ["rscc: RenderScript compiler",
    "  (http://developer.android.com/guide/topics/renderscript)",
    "  based on LLVM (http://llvm.org):",
    "  Version " ++ version ++ " (Python " ++ platform ++ ").",
    "  Target APIs: " ++ Text.ofInt lowestApi ++ " - " ++ Text.ofInt highestApi]

def printBanner (screen : Console.Screen) (platform : Text := usualPlatform) : Console.Screen :=
  (bannerLines platform).foldl (·.print ·) screen

end ScriptDriver
