/-
# `Storybook.Main` — the program

Reads the files that the command line names, runs the command and prints its report.
-/
import Storybook.CommandLine.Execute

namespace Storybook

open CommandLine (Arguments World)

/-- Why a file could not be read. -/
def reason : IO.Error → String
  | .noFileOrDirectory .. => "No such file or directory (os error 2)"
  | .permissionDenied .. => "Permission denied (os error 13)"
  | other => toString other

/-- The name of a file with its text, or with why it cannot be read. -/
def readFile (file : String) : IO (String × Except String String) := do
  try
    return (file, .ok (← IO.FS.readFile file))
  catch e =>
    return (file, .error (reason e))

/-- A source of random words that nothing determines. -/
def randomSource : IO SeededSource := do
  let bytes ← IO.getRandomBytes 8
  return .ofSeed (bytes.toUInt64LE!)

/-- Runs the command that arguments give. -/
def runProgram (arguments : List String) : IO UInt32 := do
  let files := ((Arguments.ofList? arguments).map (·.files)).getD []
  let texts ← files.mapM readFile
  let world : World SeededSource :=
    { read := fun file => (texts.lookup file).getD (.error "the file is not there")
      source := ← randomSource }
  let report := CommandLine.execute world arguments
  for line in report.errors do
    IO.eprintln line
  for line in report.output do
    IO.println line
  return report.status

end Storybook

def main (arguments : List String) : IO UInt32 := Storybook.runProgram arguments
