import NodeSteward.Channel.Ingestion
import NodeSteward.Time.Patrol
import NodeSteward.Channel.Reconciliation
import NodeSteward.Channel.Subscription

/-!
# Rehearsing sweeps

A sweep can be rehearsed without the verification service: a script says what the service
answers, and which updates reach the store while a question is on its way.  The rehearsal keeps
the clock of the timers, on which only the pauses take time, and writes down every question with
its instant.
-/

namespace NodeSteward

/-- What the verification service answers, and what happens meanwhile. -/
structure ServiceScript where
  /-- The details by transaction; a question about any other one fails. -/
  details : List (String × TransactionDetails)
  /-- The texts of short identifiers by the short form of the question.  A question without a
  text fails, and an outpoint that is not listed is not known to the service. -/
  shortIds : List (String × Option String)
  /-- The updates that reach the store during a question, by its number; the first is 1. -/
  meanwhile : List (Nat × ChannelUpdate)

namespace ServiceScript

/-- A service that answers nothing. -/
def silent : ServiceScript := ⟨[], [], []⟩

/-- The answer to a question about a transaction. -/
def answerDetails (script : ServiceScript) (hash : String) :
    Except VerificationError TransactionDetails :=
  match script.details.lookup hash with
  | some details => .ok details
  | none => .error (.request "no answer")

/-- The answer to a question about a short identifier. -/
def answerShortId (script : ServiceScript) (question : Lookup) :
    Except VerificationError (Option ShortChannelId) :=
  match script.shortIds.lookup question.text with
  | none => .ok none
  | some none => .error (.request "no answer")
  | some (some text) =>
    match ShortChannelId.ofText text with
    | .ok id => .ok (some id)
    | .error error => .error (.invalidShortChannelId error)

end ServiceScript

/-- How far a rehearsal has come. -/
structure Rehearsal (σ : Type) where
  state : σ
  now : Nat
  /-- The questions with their instants, the first one first. -/
  asked : List (Nat × Lookup)

/-- What stays the same during a rehearsal. -/
structure Stage (σ : Type) where
  /-- How the store answers. -/
  store : Handler channelCalls σ
  script : ServiceScript
  /-- How often the change of a status is tried. -/
  patience : Nat
  /-- The civil clock, which stands still. -/
  clock : Timestamp
  timing : Timing
  /-- The length of a pause. -/
  delay : Nat
  node : NodeSettings

namespace Rehearsal

variable {σ : Type}

/-- The start of a rehearsal. -/
def start (state : σ) (now : Nat) : Rehearsal σ := ⟨state, now, []⟩

/-- Stores an update while a question is on its way; a failure is of no consequence for it. -/
def receive (stage : Stage σ) (update : ChannelUpdate) (rehearsal : Rehearsal σ) : Rehearsal σ :=
  let recorded := (update.record stage.patience stage.clock false).run
  let (_, state, _) :=
    recorded.run (IngestCall.handler stage.store false) (rehearsal.state, [])
  { rehearsal with state }

/-- Writes a question down, and lets happen what the script arranges for it. -/
def ask (stage : Stage σ) (question : Lookup) (rehearsal : Rehearsal σ) : Rehearsal σ :=
  let asked := { rehearsal with asked := rehearsal.asked ++ [(rehearsal.now, question)] }
  match stage.script.meanwhile.lookup asked.asked.length with
  | none => asked
  | some update => asked.receive stage update

/-- Waits for the length of a pause, unless the cancellation comes first. -/
def pause (stage : Stage σ) (rehearsal : Rehearsal σ) : Bool × Rehearsal σ :=
  let ready := Timer.expiry stage.timing.resolution rehearsal.now stage.delay
  match stage.timing.cancel with
  | none => (true, { rehearsal with now := ready })
  | some stop =>
    if stop < ready then (false, { rehearsal with now := max rehearsal.now stop })
    else (true, { rehearsal with now := ready })

/-- Answers what a sweep asks. -/
def handler (stage : Stage σ) : Handler sweepCalls (Rehearsal σ)
  | .store request, rehearsal =>
    let (answer, state) := stage.store request rehearsal.state
    (answer, { rehearsal with state })
  | .transactionDetails hash, rehearsal =>
    (stage.script.answerDetails hash, rehearsal.ask stage (.details hash))
  | .shortChannelId hash output, rehearsal =>
    (stage.script.answerShortId (.shortChannelId hash output),
      rehearsal.ask stage (.shortChannelId hash output))
  | .pause, rehearsal => rehearsal.pause stage

/-- One sweep. -/
def sweep (stage : Stage σ) (rehearsal : Rehearsal σ) :
    Except StoreError SweepSummary × Rehearsal σ :=
  (Sweep.run stage.clock stage.node).run (handler stage) rehearsal

/-- Sweeps with a period until `stop`, where the first sweep comes after one period. -/
def patrol (stage : Stage σ) (period stop : Nat) (rehearsal : Rehearsal σ) : Rehearsal σ :=
  let work (start : Nat) (rehearsal : Rehearsal σ) : Nat × Rehearsal σ :=
    let swept := (sweep stage { rehearsal with now := start }).2
    (swept.now, swept)
  Patrol.run work period stop (rehearsal.now + period) rehearsal.now rehearsal

end Rehearsal

end NodeSteward
