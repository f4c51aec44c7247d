import BulkRun.Action.Registry
import BulkRun.Channel.Basic
import BulkRun.Dispatch.Consumer
import BulkRun.Wire.Command
/-!
# JSON forms of records

How buckets, outcomes, statuses and the other records of the engine are read from JSON texts, and
how they are written.
-/

namespace BulkRun

open Json

/-! ## Buckets -/

/-- A bucket in a JSON text. -/
def Bucket.read? : Reader Bucket := fun t => do
  let fs ← Fields.read? ["command_id", "sequence", "ids"] t
  return ⟨← fs.required "command_id" WireCommand.id?, ← fs.required "sequence" word?,
    ← fs.required "ids" (list? text?)⟩

/-- A bucket as a JSON value. -/
def Bucket.toJson (b : Bucket) : Json :=
  .object [("command_id", .string b.commandId.text), ("sequence", .nat b.sequence),
    ("ids", .strings b.ids)]

/-! ## Actions -/

/-- A descriptor in a JSON text. -/
def ActionDescriptor.read? : Reader ActionDescriptor := fun t => do
  let fs ← Fields.read?
    ["name", "default_bucket_size", "default_batch_size", "default_query_limit"] t
  return ⟨← fs.required "name" text?, ← fs.optional "default_bucket_size" word?,
    ← fs.optional "default_batch_size" word?, ← fs.optional "default_query_limit" word?⟩

/-- A descriptor as a JSON value. -/
def ActionDescriptor.toJson (d : ActionDescriptor) : Json :=
  .object [("name", .string d.name), ("default_bucket_size", .ofOption .nat d.defaultBucketSize),
    ("default_batch_size", .ofOption .nat d.defaultBatchSize),
    ("default_query_limit", .ofOption .nat d.defaultQueryLimit)]

/-- An outcome in a JSON text. -/
def RecordOutcome.read? : Reader RecordOutcome := fun t => do
  let fs ← Fields.read? ["record_id", "error"] t
  return ⟨← fs.required "record_id" text?, ← fs.optional "error" text?⟩

/-- An outcome as a JSON value. -/
def RecordOutcome.toJson (o : RecordOutcome) : Json :=
  .object [("record_id", .string o.recordId), ("error", .ofOption .string o.error)]

/-! ## Counters -/

/-- Channel statistics in a JSON text. -/
def ChannelStats.read? : Reader ChannelStats := fun t => do
  let fs ← Fields.read? ["published", "acknowledged", "redelivered"] t
  return ⟨← fs.required "published" word?, ← fs.required "acknowledged" word?,
    ← fs.required "redelivered" word?⟩

/-- Channel statistics as a JSON value. -/
def ChannelStats.toJson (s : ChannelStats) : Json :=
  .object [("published", .nat s.published), ("acknowledged", .nat s.acknowledged),
    ("redelivered", .nat s.redelivered)]

/-- A summary in a JSON text. -/
def ConsumerSummary.read? : Reader ConsumerSummary := fun t => do
  let fs ← Fields.read?
    ["partition", "buckets_executed", "buckets_skipped", "buckets_interrupted", "failures"] t
  return ⟨← fs.required "partition" word?, ← fs.required "buckets_executed" word?,
    ← fs.required "buckets_skipped" word?, ← fs.required "buckets_interrupted" word?,
    ← fs.required "failures" word?⟩

/-- A summary as a JSON value. -/
def ConsumerSummary.toJson (s : ConsumerSummary) : Json :=
  .object [("partition", .nat s.partition), ("buckets_executed", .nat s.bucketsExecuted),
    ("buckets_skipped", .nat s.bucketsSkipped), ("buckets_interrupted", .nat s.bucketsInterrupted),
    ("failures", .nat s.failures)]

/-! ## Statuses and events -/

/-- A state in a JSON text. -/
def CommandState.read? : Reader CommandState := choice? CommandState.named

/-- A kind of scroller in a JSON text. -/
def ScrollerKind.read? : Reader ScrollerKind := choice? ScrollerKind.named

/-- A timestamp in a JSON text. -/
def Timestamp.read? : Reader Timestamp := fun t => (text? t).bind Timestamp.parse?

/-- A timestamp as a JSON value. -/
def Timestamp.toJson (t : Timestamp) : Json := .string t.text

/-- A status in a JSON text. -/
def Status.read? : Reader Status := fun t => do
  let fs ← Fields.read?
    ["id", "action", "username", "state", "scroll_count", "processed", "error_count", "submitted",
     "error_message", "created_at", "scroll_started_at", "scroll_ended_at", "started_at",
     "completed_at"] t
  let id ← fs.required "id" WireCommand.id?
  let action ← fs.required "action" text?
  let username ← fs.optional "username" text?
  let state ← fs.required "state" CommandState.read?
  let scrollCount ← fs.required "scroll_count" word?
  let processed ← fs.required "processed" word?
  let errorCount ← fs.required "error_count" word?
  let submitted ← fs.required "submitted" flag?
  let errorMessage ← fs.optional "error_message" text?
  let createdAt ← fs.required "created_at" Timestamp.read?
  let scrollStartedAt ← fs.optional "scroll_started_at" Timestamp.read?
  let scrollEndedAt ← fs.optional "scroll_ended_at" Timestamp.read?
  let startedAt ← fs.optional "started_at" Timestamp.read?
  let completedAt ← fs.optional "completed_at" Timestamp.read?
  return ⟨id, action, username, state, scrollCount, processed, errorCount, submitted, errorMessage,
    createdAt, scrollStartedAt, scrollEndedAt, startedAt, completedAt⟩

/-- A status as a JSON value. -/
def Status.toJson (s : Status) : Json :=
  .object [("id", .string s.id.text), ("action", .string s.action),
    ("username", .ofOption .string s.username), ("state", .string s.state.name),
    ("scroll_count", .nat s.scrollCount), ("processed", .nat s.processed),
    ("error_count", .nat s.errorCount), ("submitted", .bool s.submitted),
    ("error_message", .ofOption .string s.errorMessage), ("created_at", s.createdAt.toJson),
    ("scroll_started_at", .ofOption Timestamp.toJson s.scrollStartedAt),
    ("scroll_ended_at", .ofOption Timestamp.toJson s.scrollEndedAt),
    ("started_at", .ofOption Timestamp.toJson s.startedAt),
    ("completed_at", .ofOption Timestamp.toJson s.completedAt)]

/-- An event in a JSON text. -/
def StatusEvent.read? : Reader StatusEvent := fun t => do
  let fs ← Fields.read? ["command_id", "state", "published_at"] t
  return ⟨← fs.required "command_id" WireCommand.id?, ← fs.required "state" CommandState.read?,
    ← fs.required "published_at" Timestamp.read?⟩

/-- An event as a JSON value. -/
def StatusEvent.toJson (e : StatusEvent) : Json :=
  .object [("command_id", .string e.commandId.text), ("state", .string e.state.name),
    ("published_at", e.publishedAt.toJson)]

/-! ## Settings -/

/-- Dispatcher settings in a JSON text; what is not set has its default. -/
def DispatcherSettings.read? : Reader DispatcherSettings := fun t => do
  let fs ← Fields.read?
    ["default_bucket_size", "default_batch_size", "scroll_fetch_multiplier", "default_repository"] t
  let d := DispatcherSettings.default
  return ⟨← fs.defaulted "default_bucket_size" word? d.defaultBucketSize,
    ← fs.defaulted "default_batch_size" word? d.defaultBatchSize,
    ← fs.defaulted "scroll_fetch_multiplier" word? d.scrollFetchMultiplier,
    ← fs.defaulted "default_repository" (nullable? text?) d.defaultRepository⟩

/-- Channel settings in a JSON text; what is not set has its default. -/
def ChannelSettings.read? : Reader ChannelSettings := fun t => do
  let fs ← Fields.read? ["partitions", "capacity"] t
  let d := ChannelSettings.default
  return ⟨← fs.defaulted "partitions" word? d.partitions,
    ← fs.defaulted "capacity" word? d.capacity⟩

/-- Tracker settings in a JSON text; what is not set has its default. -/
def StatusSettings.read? : Reader StatusSettings := fun t => do
  let fs ← Fields.read? ["retention_seconds", "event_capacity"] t
  let d := StatusSettings.default
  return ⟨← fs.defaulted "retention_seconds" word? d.retentionSeconds,
    ← fs.defaulted "event_capacity" word? d.eventCapacity⟩

/-- Settings in a JSON text; what is not set has its default. -/
def Settings.read? : Reader Settings := fun t => do
  let fs ← Fields.read? ["dispatcher", "channel", "status"] t
  let d := Settings.default
  return ⟨← fs.defaulted "dispatcher" DispatcherSettings.read? d.dispatcher,
    ← fs.defaulted "channel" ChannelSettings.read? d.channel,
    ← fs.defaulted "status" StatusSettings.read? d.status⟩

/-- Settings as a JSON value. -/
def Settings.toJson (s : Settings) : Json :=
  .object [
    ("dispatcher", .object [
      ("default_bucket_size", .nat s.dispatcher.defaultBucketSize),
      ("default_batch_size", .nat s.dispatcher.defaultBatchSize),
      ("scroll_fetch_multiplier", .nat s.dispatcher.scrollFetchMultiplier),
      ("default_repository", .ofOption .string s.dispatcher.defaultRepository)]),
    ("channel", .object [
      ("partitions", .nat s.channel.partitions), ("capacity", .nat s.channel.capacity)]),
    ("status", .object [
      ("retention_seconds", .nat s.status.retentionSeconds),
      ("event_capacity", .nat s.status.eventCapacity)])]

end BulkRun
