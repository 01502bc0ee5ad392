import TypedTemplate.CommandLine

/-!
The program: the command line with the files and streams of the operating system.
-/
open TypedTemplate

/-- The shell of the operating system. -/
def systemShell (interactive : Bool) : CommandLine.Shell IO where
  interactive := interactive
  stdin := do (← IO.getStdin).readToEnd
  load path := do
    try
      return .ok (← IO.FS.readFile path)
    catch e =>
      return .error (toString e)

def main (words : List String) : IO UInt32 := do
  let interactive ← (← IO.getStdin).isTty
  let outcome ← CommandLine.run (systemShell interactive) words
  IO.print outcome.stdout
  IO.eprint outcome.stderr
  return outcome.code.toUInt32
