import QuantityQuery.CommandLine.Run

/-!
# The program

Finds the quantities in a query and shows the expression for them.
-/

namespace QuantityQuery.Program

/-- The reason that the system gives for a failed access to a file. -/
def reasonOf : IO.Error → String
  | .noFileOrDirectory .. => "No such file or directory (os error 2)"
  | .permissionDenied .. => "Permission denied (os error 13)"
  | e => toString e

/-- The text of a file, or the reason why there is none. -/
def readFile (path : String) : IO (Except String String) := do
  try
    let bytes ← IO.FS.readBinFile path
    match String.fromUTF8? bytes with
    | some text => return .ok text
    | none => return .error "stream did not contain valid UTF-8"
  catch e => return .error (reasonOf e)

/-- The values that the environment gives. -/
def readEnvironment : IO CommandLine.Environment := do
  return {
    config? := ← IO.getEnv "QTY_CONFIG"
    catalogue? := ← IO.getEnv "QTY_CATALOGUE"
    kind? := ← IO.getEnv "QTY_KIND" }

end QuantityQuery.Program

/-- Runs the program for the words of a command line. -/
def main (args : List String) : IO UInt32 := do
  let env ← QuantityQuery.Program.readEnvironment
  let outcome ← QuantityQuery.CommandLine.run QuantityQuery.Program.readFile env args
  outcome.lines.forM fun line => IO.println line
  outcome.complaints.forM fun line => IO.eprintln line
  return outcome.code.toUInt32
