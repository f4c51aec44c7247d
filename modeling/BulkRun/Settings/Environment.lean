import BulkRun.Decimal.Reading
import BulkRun.Settings.Path
/-!
# Settings from the environment

A variable whose name begins with `bulk__`, in any case, gives a value to the setting whose path is
the rest of the name, with two underscores for a point.  Its text is taken as a truth value, an
integer or a number when it is one, and as a text otherwise.
-/

namespace BulkRun

/-- What the names of the variables begin with, in lower case. -/
def variableStem : List Char := "bulk__".toList

/-- Puts points for pairs of underscores. -/
def pointed : List Char → List Char
  | '_' :: '_' :: rest => '.' :: pointed rest
  | c :: rest => c :: pointed rest
  | [] => []

/-- The path of the setting that a variable is about. -/
def variablePath? (name : String) : Option String :=
  let cs := (Text.lower name).toList
  if variableStem.isPrefixOf cs then
    some (String.ofList (pointed (cs.drop variableStem.length)))
  else none

/-- The value that the text of a variable stands for. -/
def SettingValue.ofVariable (s : String) : SettingValue :=
  match Text.lower s with
  | "true" => .flag true
  | "false" => .flag false
  | _ =>
    match Text.readSignedWord s, Double.read? s with
    | some i, _ => .integer i
    | none, some x => .real x
    | none, none => .text s

/-- Values with those of the environment laid over them. -/
def SettingValue.withEnvironment (below : SettingValue) (env : List (String × String)) :
    SettingValue :=
  env.foldl (fun below (name, s) =>
    match variablePath? name with
    | some path => below.put path (.ofVariable s)
    | none => below) below

end BulkRun
