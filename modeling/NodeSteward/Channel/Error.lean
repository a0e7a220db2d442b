import NodeSteward.Channel.ShortChannelId
import NodeSteward.StoreError

/-!
# Failures in the work on channels

Each kind of failure belongs to the party that failed: the node, the verification service, the
store, or an update that cannot be recorded.
-/

namespace NodeSteward

/-- A failure that the Lightning node reports. -/
inductive RpcError where
  /-- A call or a request for a subscription failed. -/
  | call (operation details : String)
  /-- An open stream failed to deliver the next item. -/
  | stream (operation details : String)
  deriving DecidableEq, Repr

namespace RpcError

def message : RpcError → String
  | .call operation details => operation ++ " failed: " ++ details
  | .stream operation details => operation ++ " stream receive failed: " ++ details

end RpcError

/-- A failure in the talk with the verification service. -/
inductive VerificationError where
  /-- The node did not sign the request. -/
  | signing (details : String)
  /-- The request could not be sent. -/
  | request (details : String)
  /-- The service answered with a status that is no success. -/
  | status (code : Nat)
  /-- The answer is not of the expected form. -/
  | decode (details : String)
  /-- The service returned a short channel identifier that cannot be read. -/
  | invalidShortChannelId (error : ShortChannelIdError)
  deriving DecidableEq, Repr

namespace VerificationError

def message : VerificationError → String
  | .signing details => "signing failed: " ++ details
  | .request details => "verification request failed: " ++ details
  | .status code => "verification service returned status " ++ Decimal.natText code
  | .decode details => "verification response did not decode: " ++ details
  | .invalidShortChannelId error => "verification service returned " ++ error.message

end VerificationError

/-- A binary outpoint that is not one of a transaction: the number of its bytes. -/
structure OutpointError where
  length : Nat
  deriving DecidableEq, Repr

namespace OutpointError

def message (error : OutpointError) : String :=
  "funding txid must be 32 bytes, got " ++ Decimal.natText error.length

end OutpointError

/-- Why an update or a listing could not be recorded, or a sweep could not be made. -/
inductive IngestError where
  | rpc (error : RpcError)
  | store (error : StoreError)
  /-- An update carries an outpoint that cannot be shown. -/
  | outpoint (error : OutpointError)
  /-- An update cannot be written down. -/
  | payload (details : String)
  /-- Others kept changing the status of the channel, more often than the operation puts up
  with. -/
  | unsettled (point : String)
  deriving DecidableEq, Repr

namespace IngestError

def message : IngestError → String
  | .rpc error => error.message
  | .store error => error.message
  | .outpoint error => error.message
  | .payload details => "event payload: " ++ details
  | .unsettled point => "status of channel " ++ point ++ " did not settle"

end IngestError

end NodeSteward
