import PatchStack.CommandLine.Run

set_option autoImplicit false

/-!
# The program

The arguments are those of a run. One line of standard input describes what surrounds it, since
the program looks at nothing else: the tree of directories, the configuration files and the
replies of git.
-/

open PatchStack

/-- Prints each line. -/
def printLines (out : IO.FS.Stream) (lines : List Text) : IO Unit :=
  lines.forM fun line => out.putStrLn line.str

/-- Runs the arguments in the surroundings that standard input describes. -/
def main (arguments : List String) : IO UInt32 := do
  let line ← (← IO.getStdin).getLine
  let errors ← IO.getStderr
  match Json.ofText? line.length line.length line.toList with
  | none =>
    errors.putStrLn "The surroundings cannot be read."
    return 2
  | some j =>
    let o := runCommandLine (Surroundings.ofJson j) (arguments.map String.toList)
    printLines (← IO.getStdout) o.output
    printLines errors o.errors
    match o.ending with
    | .exit status => return status.toUInt32
    | .breakdown cause =>
      errors.putStrLn ("breakdown: " ++ cause.message)
      return 1
