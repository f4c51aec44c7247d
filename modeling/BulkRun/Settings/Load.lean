import BulkRun.Settings.Basic
import BulkRun.Settings.Environment
import BulkRun.Text.Lines
import BulkRun.Toml.Document
/-!
# Loading settings

Settings are put together from a file, if one is named, and from the environment, whose values go
before those of the file.  What neither gives has its default.  The result is checked.
-/

namespace BulkRun

/-- A file of settings: its path, and its text if there is such a file. -/
structure SettingsFile where
  path : String
  text : Option String
deriving DecidableEq, Repr

/-- Why settings cannot be loaded. -/
inductive LoadFault where
  /-- There is no file at a path. -/
  | missingFile (path : String)
  /-- A source is malformed, or a value in it is not of the wanted type.  Of a malformed file it is
  told what is wrong in it and where. -/
  | badSource (report : Option String)
  | rejected (f : SettingsFault)
deriving DecidableEq, Repr

/-- A fault of loading is an error of configuration. -/
def LoadFault.toError : LoadFault → Error
  | .missingFile path => .configuration ("Configuration file not found: " ++ path)
  | .badSource _ => .configuration "source"
  | .rejected f => f.toError

/-- What is told of a malformed file, besides the error. -/
def LoadFault.report? : LoadFault → Option String
  | .badSource report => report
  | _ => none

open SettingValue

/-- The value of a field, or its default. -/
def fieldOr {α : Type} (fields : List (String × SettingValue)) (name : String)
    (read : SettingValue → Option α) (default : α) : Option α :=
  match fields.lookup name with
  | none => some default
  | some v => read v

/-- The settings of the dispatcher in a value. -/
def DispatcherSettings.ofValue? (v : SettingValue) : Option DispatcherSettings := do
  let fs ← v.fields?
    ["default_bucket_size", "default_batch_size", "scroll_fetch_multiplier", "default_repository"]
  let d := DispatcherSettings.default
  return ⟨← fieldOr fs "default_bucket_size" asWord? d.defaultBucketSize,
    ← fieldOr fs "default_batch_size" asWord? d.defaultBatchSize,
    ← fieldOr fs "scroll_fetch_multiplier" asWord? d.scrollFetchMultiplier,
    ← fieldOr fs "default_repository" (asOptional? asText?) d.defaultRepository⟩

/-- The settings of the channel in a value. -/
def ChannelSettings.ofValue? (v : SettingValue) : Option ChannelSettings := do
  let fs ← v.fields? ["partitions", "capacity"]
  let d := ChannelSettings.default
  return ⟨← fieldOr fs "partitions" asWord? d.partitions,
    ← fieldOr fs "capacity" asWord? d.capacity⟩

/-- The settings of the tracker in a value. -/
def StatusSettings.ofValue? (v : SettingValue) : Option StatusSettings := do
  let fs ← v.fields? ["retention_seconds", "event_capacity"]
  let d := StatusSettings.default
  return ⟨← fieldOr fs "retention_seconds" asWord? d.retentionSeconds,
    ← fieldOr fs "event_capacity" asWord? d.eventCapacity⟩

/-- All settings in a value. -/
def Settings.ofValue? (v : SettingValue) : Option Settings := do
  let fs ← v.fields? ["dispatcher", "channel", "status"]
  let d := Settings.default
  return ⟨← fieldOr fs "dispatcher" DispatcherSettings.ofValue? d.dispatcher,
    ← fieldOr fs "channel" ChannelSettings.ofValue? d.channel,
    ← fieldOr fs "status" StatusSettings.ofValue? d.status⟩

/-- Settings as a value. -/
def Settings.toValue (s : Settings) : SettingValue :=
  let word (n : Nat) : SettingValue := .integer n
  .table [
    ("dispatcher", .table [
      ("default_bucket_size", word s.dispatcher.defaultBucketSize),
      ("default_batch_size", word s.dispatcher.defaultBatchSize),
      ("scroll_fetch_multiplier", word s.dispatcher.scrollFetchMultiplier),
      ("default_repository", (s.dispatcher.defaultRepository.map .text).getD .nothing)]),
    ("channel", .table [
      ("partitions", word s.channel.partitions), ("capacity", word s.channel.capacity)]),
    ("status", .table [
      ("retention_seconds", word s.status.retentionSeconds),
      ("event_capacity", word s.status.eventCapacity)])]

/-- Values with those of a document laid over them. -/
def SettingValue.withDocument (below : SettingValue) (document : String) :
    Except Toml.Refusal SettingValue :=
  (Toml.parse document).map fun entries =>
    (ofTomlEntries entries).foldl (fun below (key, v) => below.put key v) below

/-- A path in plain form, without the steps that stay where they are. -/
def plainPath (path : String) : String :=
  let steps := (Text.split '/' path.toList).filter fun step => step != [] && step != ['.']
  "/".intercalate (steps.map String.ofList)

/-- Values with those of a file laid over them, if one is named. -/
def SettingValue.withFile (below : SettingValue) (file : Option SettingsFile) :
    Except LoadFault SettingValue :=
  match file with
  | none => .ok below
  | some ⟨path, none⟩ => .error (.missingFile path)
  | some ⟨path, some content⟩ =>
    (below.withDocument content).mapError fun r =>
      .badSource ((r.report? content).map (· ++ "\n in " ++ plainPath path))

/-- Loads settings: the defaults, the file over them, and the environment over both. -/
def Settings.load (file : Option SettingsFile) (env : List (String × String)) :
    Except LoadFault Settings :=
  match Settings.default.toValue.withFile file with
  | .error f => .error f
  | .ok v =>
    match Settings.ofValue? (v.withEnvironment env) with
    | none => .error (.badSource none)
    | some settings =>
      match settings.check with
      | .error f => .error (.rejected f)
      | .ok () => .ok settings

end BulkRun
