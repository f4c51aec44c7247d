import BulkRun.Dispatch.Preparation
/-!
# Scroll loops

A scroll loop enumerates the records of one command, groups them into buckets and publishes these in
order.  Records are counted before the bucket that holds them is published, so a worker can never
report more than was counted.

A scroll that fails still publishes what it found, and the command ends when that is worked off.  An
aborted command is not scrolled further.

A loop whose buckets or chunks are larger than room can be set aside for collapses: it is over, and
nothing is told about its command.

A loop advances in steps: `resume` is one of them.  A step begins where the loop asks its scroller
for something and where it hands a bucket to the channel; between two steps anything may happen to
the command.
-/

namespace BulkRun

/-- How a scroll loop ended. -/
inductive ScrollEnd where
  /-- So many records were scrolled, and so many buckets published. -/
  | submitted (scrolled buckets : Nat)
  /-- The command was aborted. -/
  | stopped (scrolled buckets : Nat)
  | failed (error : Error)
  /-- More room was wanted than can be set aside. -/
  | collapsed
deriving DecidableEq, Repr

/-- How far the records of a command have been grouped. -/
structure Gathering where
  cursor : Cursor
  bucketizer : Bucketizer
  /-- The number of records scrolled. -/
  scrolled : Nat

/-- What a loop does once a bucket is published. -/
inductive AfterBucket where
  /-- Publish more full buckets, then scroll on unless the scroll is exhausted. -/
  | goOn (full : List Bucket) (exhausted : Bool) (g : Gathering)
  /-- Report the end of the scroll. -/
  | submit (scrolled buckets : Nat)
  /-- Report the failure of the scroll. -/
  | fail (error : Error)

/-- Where a scroll loop stands. -/
inductive ScrollPhase where
  /-- It has not run yet. -/
  | created
  /-- The scroller was asked for a cursor. -/
  | opening
  /-- The scroller was asked for a chunk. -/
  | fetching (g : Gathering)
  /-- It is about to publish a bucket. -/
  | publishing (bucket : Bucket) (after : AfterBucket)
  /-- It found no room for a bucket and waits for it. -/
  | waiting (bucket : Bucket) (after : AfterBucket)
  | ended (how : ScrollEnd)

/-- The scroll of one command. -/
structure ScrollLoop (σ : Type) where
  /-- The name by which it is known as a publisher. -/
  key : PublisherKey
  command : Command
  scroller : Scroller σ
  fetchSize : Nat
  phase : ScrollPhase

namespace ScrollLoop

variable {σ : Type}

/-- The id of the command. -/
def id (l : ScrollLoop σ) : CommandId := l.command.id

/-- The error of a chunk with more records than asked for. -/
def oversized (got asked : Nat) : Error :=
  .scroll ("scroller returned " ++ Text.ofNat got ++ " ids, more than the " ++ Text.ofNat asked ++
    " requested")

/-- The error of a chunk without records that is not the last. -/
def emptyChunk : Error := .scroll "scroller returned an empty chunk without being exhausted"

/-- Refuses a chunk that breaks the rules of scrolling. -/
def checkChunk (asked : Nat) (c : Chunk) : Except Error Chunk :=
  if asked < c.ids.length then .error (oversized c.ids.length asked)
  else if c.ids.isEmpty && !c.exhausted then .error emptyChunk
  else .ok c

/-- Ends a loop, which will publish no more. -/
def finish (l : ScrollLoop σ) (how : ScrollEnd) (e : Engine σ) : ScrollLoop σ × Engine σ :=
  ({ l with phase := .ended how }, { e with channel := e.channel.dropPublisher })

/-- Ends a loop with an error.  A failed scroll lets what was published be worked off; any other
error aborts the command at once. -/
def fail (l : ScrollLoop σ) (err : Error) (e : Engine σ) : ScrollLoop σ × Engine σ :=
  let told : Except Error Tracker := match err with
    | .scroll _ => e.tracker.failScroll e.now l.id err.message
    | _ => (e.tracker.abortWithError e.now l.id err.message).map Prod.snd
  match told with
  | .ok t => l.finish (.failed err) { e with tracker := t }
  -- the command is gone, and there is nothing left to end
  | .error _ => l.finish (.failed err) e

/-- Ends the loop of an aborted command. -/
def stop (l : ScrollLoop σ) (g : Gathering) (e : Engine σ) : ScrollLoop σ × Engine σ :=
  l.finish (.stopped g.scrolled g.bucketizer.emitted) e

/-- Ends a loop without a word about its command. -/
def collapse (l : ScrollLoop σ) (e : Engine σ) : ScrollLoop σ × Engine σ := l.finish .collapsed e

/-- Turns to the publishing of a bucket. -/
def publish (l : ScrollLoop σ) (b : Bucket) (after : AfterBucket) (e : Engine σ) :
    ScrollLoop σ × Engine σ :=
  ({ l with phase := .publishing b after }, e)

/-- Reports the end of the scroll. -/
def submit (l : ScrollLoop σ) (scrolled buckets : Nat) (e : Engine σ) : ScrollLoop σ × Engine σ :=
  match e.tracker.markSubmitted e.now l.id with
  | .error err => l.fail err e
  | .ok t => l.finish (.submitted scrolled buckets) { e with tracker := t }

/-- Publishes the last bucket if there is one, and then reports the end of the scroll. -/
def flush (l : ScrollLoop σ) (g : Gathering) (e : Engine σ) : ScrollLoop σ × Engine σ :=
  match g.bucketizer.finish with
  | none => l.submit g.scrolled g.bucketizer.emitted e
  | some b => l.publish b (.submit g.scrolled (g.bucketizer.emitted + 1)) e

/-- Publishes what was found before a failure, and then ends with the failure. -/
def flushAndFail (l : ScrollLoop σ) (g : Gathering) (err : Error) (e : Engine σ) :
    ScrollLoop σ × Engine σ :=
  match g.bucketizer.finish with
  | none => l.fail err e
  | some b => l.publish b (.fail err) e

/-- Asks for the next chunk, unless the command was aborted. -/
def fetch (l : ScrollLoop σ) (g : Gathering) (e : Engine σ) : ScrollLoop σ × Engine σ :=
  if e.tracker.isAborted l.id then l.stop g e else ({ l with phase := .fetching g }, e)

/-- Publishes the next full bucket unless the command was aborted; without one, scrolls on or comes
to the end. -/
def publishNext (l : ScrollLoop σ) (full : List Bucket) (exhausted : Bool) (g : Gathering)
    (e : Engine σ) : ScrollLoop σ × Engine σ :=
  match full with
  | [] => if exhausted then l.flush g e else l.fetch g e
  | b :: rest =>
    if e.tracker.isAborted l.id then l.stop g e else l.publish b (.goOn rest exhausted g) e

/-- Goes on after a bucket was published. -/
def goOn (l : ScrollLoop σ) (after : AfterBucket) (e : Engine σ) : ScrollLoop σ × Engine σ :=
  match after with
  | .goOn full exhausted g => l.publishNext full exhausted g e
  | .submit scrolled buckets => l.submit scrolled buckets e
  | .fail err => l.fail err e

/-- Takes up a chunk: its records are counted, then the buckets they fill are published. -/
def takeChunk (l : ScrollLoop σ) (g : Gathering) (c : Chunk) (e : Engine σ) :
    ScrollLoop σ × Engine σ :=
  match e.tracker.addScrolled e.now l.id c.ids.length with
  | .error err => l.fail err e
  | .ok t =>
    let pushed := g.bucketizer.push c.ids
    let g := { g with bucketizer := pushed.2, scrolled := g.scrolled + c.ids.length }
    l.publishNext pushed.1 c.exhausted g { e with tracker := t }

/-- One step of a loop. -/
def resume (l : ScrollLoop σ) (e : Engine σ) : ScrollLoop σ × Engine σ :=
  match l.phase with
  | .created =>
    match e.tracker.startScrolling e.now l.id with
    | .error err => l.fail err e
    | .ok t => ({ l with phase := .opening }, { e with tracker := t })
  | .opening =>
    let (opened, world) := l.scroller.start l.command e.world
    let e := { e with world := world }
    match opened with
    | .error err => l.fail err e
    | .ok cursor =>
      match Bucketizer.new l.id l.command.bucketSize with
      | .error f => l.fail f.toError e
      | .ok bucketizer =>
        if maxReserved < bucketizer.size then l.collapse e else l.fetch ⟨cursor, bucketizer, 0⟩ e
  | .fetching g =>
    if maxReserved < l.scroller.reserved g.cursor l.fetchSize then l.collapse e
    else
      let (chunk, cursor, world) := l.scroller.next g.cursor l.fetchSize e.world
      let e := { e with world := world }
      let g := { g with cursor := cursor }
      match chunk.bind (checkChunk l.fetchSize) with
      | .error err => l.flushAndFail g err e
      | .ok c => l.takeChunk g c e
  | .publishing b after =>
    match e.channel.offer b with
    | .error err => l.fail err e
    | .ok (some ch) => l.goOn after { e with channel := ch }
    | .ok none =>
      ({ l with phase := .waiting b after }, { e with channel := e.channel.enlist l.key b })
  | .waiting b after =>
    match e.channel.claim l.key b with
    | .error err => l.fail err e
    | .ok (some ch) => l.goOn after { e with channel := ch }
    | .ok none => (l, e)
  | .ended _ => (l, e)

/-- Whether the loop has ended. -/
def isEnded (l : ScrollLoop σ) : Bool :=
  match l.phase with
  | .ended _ => true
  | _ => false

/-- Whether the loop has to wait for room in its partition before it can go on. -/
def isBlocked (l : ScrollLoop σ) (e : Engine σ) : Bool :=
  match l.phase with
  | .waiting b _ =>
    match e.channel.claim l.key b with
    | .ok none => true
    | _ => false
  | _ => false

/-- Whether the next step hands a bucket to the channel. -/
def spends (l : ScrollLoop σ) : Bool :=
  match l.phase with
  | .publishing _ _ => true
  | .waiting _ _ => true
  | _ => false

/-- The loop when it puts off its next step; `none` when there is no room for its bucket.  If there
is, the place belongs to the loop from now on. -/
def putOff? (l : ScrollLoop σ) (e : Engine σ) : Option (ScrollLoop σ × Engine σ) :=
  match l.phase with
  | .publishing b after =>
    (e.channel.reserve? l.key b).map fun ch =>
      ({ l with phase := .waiting b after }, { e with channel := ch })
  | _ => some (l, e)

end ScrollLoop

end BulkRun
