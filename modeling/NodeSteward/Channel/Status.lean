import NodeSteward.Json.Decode

/-!
# The life of a channel

A channel is opened, used and closed in one of several ways, and a closed channel stays as it
was closed.

```text
opening ──► open ──► closing ──► closed: cooperative, local force, remote force, breach
   │         └──► closed in any way but funding cancelled
   └──► funding cancelled, abandoned
```
-/

namespace NodeSteward

/-- Where in its life a channel is. -/
inductive ChannelStatus where
  | opening
  | open
  | closing
  | cooperativeClosed
  | localForceClosed
  | remoteForceClosed
  | breachClosed
  | fundingCancelledClosed
  | abandonedClosed
  deriving DecidableEq, Repr

namespace ChannelStatus

def all : List ChannelStatus :=
  [.opening, .open, .closing, .cooperativeClosed, .localForceClosed, .remoteForceClosed,
    .breachClosed, .fundingCancelledClosed, .abandonedClosed]

/-- The number under which a status is stored. -/
def code : ChannelStatus → Int
  | .opening => 0
  | .open => 1
  | .closing => 2
  | .cooperativeClosed => 100
  | .localForceClosed => 101
  | .remoteForceClosed => 102
  | .breachClosed => 103
  | .fundingCancelledClosed => 104
  | .abandonedClosed => 105

def name : ChannelStatus → String
  | .opening => "opening"
  | .open => "open"
  | .closing => "closing"
  | .cooperativeClosed => "cooperative_closed"
  | .localForceClosed => "local_force_closed"
  | .remoteForceClosed => "remote_force_closed"
  | .breachClosed => "breach_closed"
  | .fundingCancelledClosed => "funding_cancelled_closed"
  | .abandonedClosed => "abandoned_closed"

/-- The status stored under a number. -/
def ofCode? (code : Int) : Option ChannelStatus :=
  all.find? (fun status => status.code == code)

/-- True for the closed states, which a channel never leaves. -/
def isTerminal (status : ChannelStatus) : Bool :=
  100 ≤ status.code

/-- True when a channel may move from one status to another; it may always stay. -/
def canBecome (current next : ChannelStatus) : Bool :=
  current == next ||
    match current with
    | .opening => next == .open || next == .fundingCancelledClosed || next == .abandonedClosed
    | .open => next == .closing || (next.isTerminal && next != .fundingCancelledClosed)
    | .closing =>
      next == .cooperativeClosed || next == .localForceClosed || next == .remoteForceClosed ||
        next == .breachClosed
    | _ => false

/-- True for the states whose transactions are never confirmed. -/
def neverConfirms (status : ChannelStatus) : Bool :=
  status == .fundingCancelledClosed || status == .abandonedClosed

def decode? (source : Source) : Option ChannelStatus :=
  source.case? all name

def toJson (status : ChannelStatus) : Json :=
  .text status.name

end ChannelStatus

/-- How a node reports that a channel was closed. -/
inductive CloseType where
  | cooperative
  | localForce
  | remoteForce
  | breach
  | fundingCanceled
  | abandoned
  deriving DecidableEq, Repr

namespace CloseType

def all : List CloseType :=
  [.cooperative, .localForce, .remoteForce, .breach, .fundingCanceled, .abandoned]

def name : CloseType → String
  | .cooperative => "cooperative"
  | .localForce => "local_force"
  | .remoteForce => "remote_force"
  | .breach => "breach"
  | .fundingCanceled => "funding_canceled"
  | .abandoned => "abandoned"

/-- The status in which such a close ends. -/
def status : CloseType → ChannelStatus
  | .cooperative => .cooperativeClosed
  | .localForce => .localForceClosed
  | .remoteForce => .remoteForceClosed
  | .breach => .breachClosed
  | .fundingCanceled => .fundingCancelledClosed
  | .abandoned => .abandonedClosed

def decode? (source : Source) : Option CloseType :=
  source.case? all name

def toJson (type : CloseType) : Json :=
  .text type.name

end CloseType

end NodeSteward
