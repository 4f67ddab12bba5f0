import ShapeFault.CommandLine
import ShapeFault.Policy.Document

/-!
# The program

Runs the command line: reads the policy file, writes the texts and sets the exit code. Policies are
written in YAML.
-/

namespace ShapeFault.CommandLine

/-- The content of a file, or the reason why it cannot be read. -/
def readPolicyFile (path : String) : IO (Except String String) := do
  try
    let content ← IO.FS.readFile path
    return .ok content
  catch
    | .noFileOrDirectory _ _ _ => return .error missingFile
    | e => return .error e.toString

/-- Runs the command with the given arguments. -/
def runCommand (args : List String) : IO (Option Outcome) :=
  match Command.ofArguments args with
  | .error outcome => return some outcome
  | .ok command => do
    let policyFile ← match command.policyPath with
      | some path => readPolicyFile path
      | none => pure (.error missingFile)
    return command.run Policy.ofYaml policyFile

/-- The exit code of a program that ends without an outcome. -/
def abortCode : UInt32 :=
  101

end ShapeFault.CommandLine

open ShapeFault.CommandLine in
def main (args : List String) : IO UInt32 := do
  match ← runCommand args with
  | some outcome =>
    IO.print outcome.output
    IO.eprint outcome.errors
    return outcome.code.toUInt32
  | none => return abortCode
