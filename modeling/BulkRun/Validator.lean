import BulkRun.Settings.Load
import BulkRun.Validator.Filter
import BulkRun.Wire.Records
/-!
# The settings validator

A program that loads the settings as the service does, checks them, and prints what is in effect.
What it prints and logs is worked out here from its arguments, its environment and the files it may
read.
-/

namespace BulkRun.Validator

/-- Something that is put out.  It may have several lines. -/
inductive Output where
  /-- For the standard output. -/
  | text (s : String)
  /-- For the standard error output. -/
  | failure (s : String)
  /-- For the log, which is the standard output too. -/
  | log (r : LogRecord)

/-- What a run is given. -/
structure Invocation where
  arguments : List String
  env : List (String × String)
  /-- The text of the file at a path, if there is one. -/
  readFile : String → Option String

/-- What a run puts out, in order, and its exit code. -/
structure Outcome where
  outputs : List Output
  exitCode : Nat

namespace Invocation

variable (i : Invocation)

/-- The text of a variable. -/
def lookup (name : String) : Option String := i.env.lookup name

/-- The environment that the program runs in. -/
def environment : String :=
  ((i.lookup "BULK_ENV").or (i.lookup "APP_ENV")).getD "development"

/-- Which log records are put out: what `RUST_LOG` says, or those up to debugging outside
production. -/
def filter : Filter :=
  match i.lookup "RUST_LOG" with
  | some s => .parse s
  | none => .ofRank (if i.environment = "production" then Level.info else Level.debug).rank

/-- Whether log records are JSON. -/
def logsJson : Bool :=
  match i.lookup "BULK_LOG_FORMAT" with
  | some format => format.map Char.toLower == "json"
  | none => false

/-- The path of the file of settings, if one is named: the first argument, or else a variable. -/
def path? : Option String := i.arguments.head?.or (i.lookup "BULK_CONFIG_PATH")

/-- Whether the usage is asked for. -/
def asksUsage : Bool :=
  match i.arguments with
  | first :: _ => first = "-h" || first = "--help"
  | [] => false

end Invocation

/-- The part of the program that reads settings, in its log records. -/
def loaderTarget : String := "bulk_core::config::loader"

/-- The part of the program that checks settings, in its log records. -/
def validatorTarget : String := "config_validator"

/-- What is printed about settings. -/
def summary (s : Settings) : List String :=
  ["dispatcher: bucket " ++ Text.ofNat s.dispatcher.defaultBucketSize ++ " / batch " ++
      Text.ofNat s.dispatcher.defaultBatchSize ++ ", fetch x" ++
      Text.ofNat s.dispatcher.scrollFetchMultiplier,
    "channel: " ++ Text.ofNat s.channel.partitions ++ " partitions of " ++
      Text.ofNat s.channel.capacity ++ " buckets",
    "status: retention " ++ Text.ofNat s.status.retentionSeconds ++ "s, " ++
      Text.ofNat s.status.eventCapacity ++ " buffered events"]

/-- What is put out first about the file. -/
def announcement : Option String → String
  | some path => "Validating " ++ path
  | none => "No configuration file given, validating defaults and environment"

/-- What is logged at the end of a run that succeeds. -/
def success : LogRecord :=
  ⟨.info, validatorTarget, "Configuration validation completed successfully", none, [], []⟩

/-- What is logged at the beginning of a run. -/
def greeting (i : Invocation) : LogRecord :=
  ⟨.info, "bulk_core::logging", "Structured logging initialized", none,
    [("environment", .string i.environment), ("json", .bool i.logsJson)], ["pid"]⟩

/-- What is put out when settings cannot be loaded. -/
def failure (f : LoadFault) : List Output :=
  let cause := "loading bulk configuration: " ++ f.toError.message
  [.log ⟨.error, validatorTarget, "Configuration validation failed: " ++ cause, f.report?, [], []⟩,
    .failure ("Configuration invalid: " ++ cause)]

/-- Loads the settings and tells the result. -/
def validate (i : Invocation) : Outcome :=
  let file : Option SettingsFile := i.path?.map fun path => ⟨path, i.readFile path⟩
  let reading := match file with
    | some ⟨path, some _⟩ =>
      [.log ⟨.debug, loaderTarget, "Loading configuration file", none, [("path", .string path)],
        []⟩]
    | _ => []
  let start := .text (announcement i.path?) :: reading
  match Settings.load file i.env with
  | .ok s =>
    let loaded : LogRecord := ⟨.info, loaderTarget, "Configuration loaded successfully", none, [],
      ["file", "bucket_size", "batch_size", "partitions"]⟩
    ⟨start ++ [.log loaded] ++ (summary s).map .text ++ s.toJson.pretty.map .text ++
      [.log success], 0⟩
  | .error f => ⟨start ++ failure f, 1⟩

/-- What is put out about directives that are ignored. -/
def complaint (directive : String) (f : DirectiveFault) : Output :=
  .failure ("ignoring `" ++ directive ++ "`: " ++ f.message)

/-- Everything that a run puts out, all log records included. -/
def runAll (i : Invocation) : Outcome :=
  let rest : Outcome :=
    if i.asksUsage then ⟨[.text "usage: config-validator [CONFIG_FILE]", .log success], 0⟩
    else validate i
  { rest with
    outputs :=
      (i.filter.ignored.map fun (s, f) => complaint s f) ++ .log (greeting i) :: rest.outputs }

/-- Whether something is put out under a filter of log records. -/
def Output.isShown (f : Filter) : Output → Bool
  | .log r => f.passes r
  | _ => true

/-- A run. -/
def run (i : Invocation) : Outcome :=
  let all := runAll i
  { all with outputs := all.outputs.filter (Output.isShown i.filter) }

/-! ## Lines -/

/-- The lines of something on the standard output, but for the first line of a log record. -/
def Output.plainLines (json : Bool) : Output → List String
  | .text s => Text.lines s
  | .failure _ => []
  | .log r => if json then [] else (Text.lines (r.render false)).tail

/-- The lines of something on the standard error output. -/
def Output.failureLines : Output → List String
  | .failure s => Text.lines s
  | _ => []

/-- The log record that something is. -/
def Output.record? : Output → Option LogRecord
  | .log r => some r
  | _ => none

end BulkRun.Validator
