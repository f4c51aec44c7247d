import BulkRun.Validator
/-!
# The command line

Reads the environment and the named file, runs the validator and prints what it puts out.
-/

namespace BulkRun.Validator

/-- A variable as it stands in the environment block. -/
def splitVariable (s : String) : Option (String × String) :=
  match s.toList.span (· != '=') with
  | (name, _ :: value) => some (String.ofList name, String.ofList value)
  | _ => none

/-- The environment of the process. -/
def environmentVariables : IO (List (String × String)) := do
  try
    let block ← IO.FS.readBinFile "/proc/self/environ"
    let entries := ((String.fromUTF8? block).getD "").splitOn (String.singleton (Char.ofNat 0))
    return entries.filterMap splitVariable
  catch _ => return []

/-- The text of a file, if there is one. -/
def fileText? (path : String) : IO (Option String) := do
  try
    return some (← IO.FS.readFile path)
  catch _ => return none

/-- Prints one output. -/
def print (json : Bool) : Output → IO Unit
  | .text s => IO.println s
  | .failure s => IO.eprintln s
  | .log r => IO.println (r.render json)

end BulkRun.Validator

open BulkRun.Validator in
def main (arguments : List String) : IO UInt32 := do
  let env ← environmentVariables
  let asked : Invocation := ⟨arguments, env, fun _ => none⟩
  let text ← match asked.path? with
    | some path => fileText? path
    | none => pure none
  let i : Invocation := { asked with readFile := fun _ => text }
  let outcome := run i
  outcome.outputs.forM (print i.logsJson)
  return UInt32.ofNat outcome.exitCode
