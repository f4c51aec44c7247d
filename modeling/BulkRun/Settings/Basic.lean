import BulkRun.Error
import BulkRun.Text.Blank
/-!
# Settings

What can be set for the whole engine, the values used where nothing is set, and the values that are
refused.
-/

namespace BulkRun

/-- Settings of the scrolling of commands. -/
structure DispatcherSettings where
  /-- The bucket size where neither the command nor its action sets one. -/
  defaultBucketSize : Nat
  defaultBatchSize : Nat
  /-- A scroll asks for this many buckets' worth of records at once. -/
  scrollFetchMultiplier : Nat
  /-- The repository of commands that name none. -/
  defaultRepository : Option String
deriving DecidableEq, Repr

/-- Settings of the bucket channel. -/
structure ChannelSettings where
  partitions : Nat
  /-- The number of buckets that a partition has room for. -/
  capacity : Nat
deriving DecidableEq, Repr

/-- Settings of the status tracker. -/
structure StatusSettings where
  /-- The seconds for which the status of a command that ended is kept. -/
  retentionSeconds : Nat
  /-- The number of status events that are kept for subscribers. -/
  eventCapacity : Nat
deriving DecidableEq, Repr

/-- All settings. -/
structure Settings where
  dispatcher : DispatcherSettings
  channel : ChannelSettings
  status : StatusSettings
deriving DecidableEq, Repr

/-- The settings of the dispatcher where nothing is set. -/
def DispatcherSettings.default : DispatcherSettings := ⟨100, 25, 4, none⟩

/-- The settings of the channel where nothing is set. -/
def ChannelSettings.default : ChannelSettings := ⟨4, 64⟩

/-- The settings of the tracker where nothing is set. -/
def StatusSettings.default : StatusSettings := ⟨3600, 1000⟩

/-- The settings where nothing is set. -/
def Settings.default : Settings := ⟨.default, .default, .default⟩

/-- What is wrong with settings. -/
inductive SettingsFault where
  /-- A number that may not be zero is. -/
  | zero (field : String)
  | batchAboveBucket (batch bucket : Nat)
  | blankRepository
deriving DecidableEq, Repr

/-- The wording of a fault. -/
def SettingsFault.message : SettingsFault → String
  | .zero field => field ++ " must be greater than 0"
  | .batchAboveBucket batch bucket =>
    "dispatcher.default_batch_size (" ++ Text.ofNat batch ++
      ") must not exceed dispatcher.default_bucket_size (" ++ Text.ofNat bucket ++ ")"
  | .blankRepository => "dispatcher.default_repository cannot be blank"

/-- A fault of settings is an error of configuration. -/
def SettingsFault.toError (f : SettingsFault) : Error := .configuration f.message

namespace Settings

/-- The numbers that may not be zero, with their names. -/
def positive (s : Settings) : List (String × Nat) :=
  [("dispatcher.default_bucket_size", s.dispatcher.defaultBucketSize),
   ("dispatcher.default_batch_size", s.dispatcher.defaultBatchSize),
   ("dispatcher.scroll_fetch_multiplier", s.dispatcher.scrollFetchMultiplier),
   ("channel.partitions", s.channel.partitions),
   ("channel.capacity", s.channel.capacity),
   ("status.event_capacity", s.status.eventCapacity)]

/-- Refuses settings that the engine cannot work with; the first fault is reported. -/
def check (s : Settings) : Except SettingsFault Unit :=
  match s.positive.find? fun (_, n) => n == 0 with
  | some (field, _) => .error (.zero field)
  | none =>
    if s.dispatcher.defaultBucketSize < s.dispatcher.defaultBatchSize then
      .error (.batchAboveBucket s.dispatcher.defaultBatchSize s.dispatcher.defaultBucketSize)
    else
      match s.dispatcher.defaultRepository with
      | some name => if Text.isBlank name then .error .blankRepository else .ok ()
      | none => .ok ()

end Settings

end BulkRun
