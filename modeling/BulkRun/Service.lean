import BulkRun.Dispatch.Hand
/-!
# The service

An engine wired from settings: its tracker, its channel, and one consumer for each partition.  On
shutdown the scroll loops come to their end, then nobody may publish any more, and the consumers
work off what is left.
-/

namespace BulkRun

namespace System

variable {σ : Type}

/-- The consumers of all partitions of the channel. -/
def withConsumers (s : System σ) : System σ :=
  { s with consumers := (List.range s.engine.channel.partitions.length).map Consumer.new }

/-- Declares that whoever submits commands will submit no more. -/
def dropPublisher (s : System σ) : System σ :=
  { s with engine := { s.engine with channel := s.engine.channel.dropPublisher } }

end System

/-- A service: its settings, its collaborators and what runs. -/
structure Service (σ : Type) where
  settings : Settings
  setup : Setup σ
  system : System σ

namespace Service

variable {σ : Type}

/-- Starts a service, unless the settings are no good. -/
def start (settings : Settings) (actions : ActionRegistry (Action σ))
    (scrollers : ScrollerRegistry (Scroller σ)) (transactions : TransactionManager σ)
    (now : Timestamp) (world : σ) : Except SettingsFault (Service σ) :=
  settings.check.map fun _ =>
    let engine : Engine σ :=
      ⟨now, .new settings.status.eventCapacity settings.status.retentionSeconds,
        .new settings.channel.partitions settings.channel.capacity, world⟩
    ⟨settings, ⟨actions, scrollers, transactions, settings.dispatcher⟩,
      (System.ofEngine engine).withConsumers⟩

/-- Accepts a command. -/
def submit (s : Service σ) (c : Command) : Except Error (CommandId × Service σ) :=
  (s.system.submit s.setup c).map fun (id, t) => (id, { s with system := t })

/-- Lets the tasks take turns until all of them wait. -/
def settle (steps rounds : Nat) (s : Service σ) : Service σ :=
  { s with system := s.system.settle s.setup steps rounds }

/-- Lets the scroll loops end, then the consumers; what each consumer did. -/
def shutdown (steps rounds : Nat) (s : Service σ) : List ConsumerSummary × Service σ :=
  let s := s.settle steps rounds
  let s := { s with system := s.system.dropPublisher }.settle steps rounds
  (s.system.consumers.map (·.summary), s)

end Service

end BulkRun
