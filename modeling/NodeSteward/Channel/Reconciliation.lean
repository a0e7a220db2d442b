import NodeSteward.Channel.NodeSettings
import NodeSteward.Channel.Requests
import NodeSteward.Channel.Verification

/-!
# Reconciling channels with the chain

A sweep goes through the channels in the order of their identifiers and asks the verification
service for what a channel lacks: where its closing and its funding transaction were confirmed,
and its short identifier.  Every question is followed by a pause, and a cancellation during a
pause ends the sweep.  A failed question or write is counted, and the sweep goes on.

The sweep works on the list of channels that it read at its start, with what it wrote itself.
-/

namespace NodeSteward

/-- What a sweep asks of others. -/
inductive SweepCall where
  | store (request : ChannelCall)
  | transactionDetails (hash : String)
  | shortChannelId (hash : String) (output : UInt32)
  /-- A pause; the answer is false when it is cancelled. -/
  | pause

abbrev sweepCalls : Interface where
  Call := SweepCall
  Answer
    | .store request => Except StoreError request.Value
    | .transactionDetails _ => Except VerificationError TransactionDetails
    | .shortChannelId _ _ => Except VerificationError (Option ShortChannelId)
    | .pause => Bool

/-- What a sweep did. -/
structure SweepSummary where
  channels : Nat
  lookups : Nat
  updated : Nat
  failures : Nat
  deriving DecidableEq, Repr

namespace SweepSummary

def zero : SweepSummary := ⟨0, 0, 0, 0⟩

/-- One more question was asked. -/
def asked (summary : SweepSummary) : SweepSummary :=
  { summary with lookups := summary.lookups + 1 }

/-- One more answer was stored. -/
def stored (summary : SweepSummary) : SweepSummary :=
  { summary with updated := summary.updated + 1 }

/-- One more question or write failed. -/
def failed (summary : SweepSummary) : SweepSummary :=
  { summary with failures := summary.failures + 1 }

end SweepSummary

namespace Sweep

/-- A part of a sweep for one channel: the channel as the sweep knows it, and the counts. -/
abbrev ChannelProgram := Program sweepCalls (Channel × SweepSummary)

/-- The hash of one of the transactions of a channel. -/
def hashOf (channel : Channel) : ChannelTransaction → String
  | .funding => channel.fundingHash
  | .closing => channel.closingHash.getD ""

/-- Asks where a transaction was confirmed and records it. -/
def lookUpDetails (now : Timestamp) (transaction : ChannelTransaction) (channel : Channel)
    (summary : SweepSummary) : ChannelProgram := do
  let answer ← Program.request (I := sweepCalls)
    (.transactionDetails (hashOf channel transaction))
  match answer with
  | .error _ => return (channel, summary.asked.failed)
  | .ok details =>
    if details.isConfirmed then
      let written ← Program.request (I := sweepCalls)
        (.store (.recordConfirmation now channel.id transaction details.confirmation))
      match written with
      | .ok _ =>
        return (channel.applyConfirmation transaction details.confirmation, summary.asked.stored)
      | .error _ => return (channel, summary.asked.failed)
    else return (channel, summary.asked)

/-- Asks for the short identifier and records it. -/
def lookUpShortId (now : Timestamp) (channel : Channel) (summary : SweepSummary) :
    ChannelProgram := do
  let answer ← Program.request (I := sweepCalls)
    (.shortChannelId channel.fundingHash channel.fundingOutput)
  match answer with
  | .error _ => return (channel, summary.asked.failed)
  | .ok none => return (channel, summary.asked)
  | .ok (some id) =>
    let written ← Program.request (I := sweepCalls)
      (.store (.setShortChannelId now channel.id id))
    match written with
    | .ok _ => return ({ channel with shortChannelId := some id }, summary.asked.stored)
    | .error _ => return (channel, summary.asked.failed)

/-- Takes a step if it is needed, and pauses after it.  Yields whether the sweep goes on. -/
def stepIf (needed : Channel → Bool) (step : Channel → SweepSummary → ChannelProgram)
    (channel : Channel) (summary : SweepSummary) :
    Program sweepCalls (Bool × Channel × SweepSummary) :=
  if needed channel then do
    let (channel, summary) ← step channel summary
    let goesOn ← Program.request (I := sweepCalls) .pause
    return (goesOn, channel, summary)
  else return (true, channel, summary)

/-- Looks up what a channel lacks.  Yields whether the sweep goes on. -/
def sweepChannel (now : Timestamp) (channel : Channel) (summary : SweepSummary) :
    Program sweepCalls (Bool × SweepSummary) := do
  let (goesOn, channel, summary) ←
    stepIf Channel.needsClosingDetails (lookUpDetails now .closing) channel summary
  if goesOn then
    let (goesOn, channel, summary) ←
      stepIf Channel.needsFundingDetails (lookUpDetails now .funding) channel summary
    if goesOn then
      let (goesOn, _, summary) ←
        stepIf Channel.needsShortChannelId (lookUpShortId now) channel summary
      return (goesOn, summary)
    else return (false, summary)
  else return (false, summary)

/-- Looks up what some channels lack, one channel after the other. -/
def sweepChannels (now : Timestamp) : List Channel → SweepSummary → Program sweepCalls SweepSummary
  | [], summary => return summary
  | channel :: channels, summary => do
    let (goesOn, summary) ← sweepChannel now channel summary
    if goesOn then sweepChannels now channels summary else return summary

/-- One sweep over all channels.  Nothing is done unless the node works on the main network of
bitcoin.  Only when the channels cannot be listed does the sweep fail. -/
def run (now : Timestamp) (node : NodeSettings) :
    Program sweepCalls (Except StoreError SweepSummary) :=
  if node.isBitcoinMainnet then do
    let listed ← Program.request (I := sweepCalls) (.store .listChannels)
    match listed with
    | .error error => return .error error
    | .ok channels =>
      let summary ← sweepChannels now channels
        { SweepSummary.zero with channels := channels.length }
      return .ok summary
  else return .ok .zero

end Sweep

end NodeSteward
