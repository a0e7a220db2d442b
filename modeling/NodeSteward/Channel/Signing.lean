import NodeSteward.Channel.Error

/-!
# Signing requests

Requests to the verification service are signed with the key of the node.  Only the task that
holds the connection to the node can sign, so a message travels to that task and its answer
back; the task may have stopped, or give the message up unanswered.
-/

namespace NodeSteward

/-- What becomes of messages that are to be signed. -/
inductive SigningTask where
  /-- The node is asked for each signature. -/
  | serving
  /-- Nobody takes messages. -/
  | stopped
  /-- Messages are taken and dropped. -/
  | dropping
  deriving DecidableEq, Repr

namespace SigningTask

/-- The signature of a message, where `node` is how the node answers. -/
def sign (task : SigningTask) (node : String → Except RpcError String) (message : String) :
    Except VerificationError String :=
  match task with
  | .serving => (node message).mapError (fun error => .signing error.message)
  | .stopped => .error (.signing "signing task stopped")
  | .dropping => .error (.signing "signing task dropped the request")

/-- The messages that reach the node. -/
def reaching (task : SigningTask) (message : String) : List String :=
  match task with
  | .serving => [message]
  | _ => []

end SigningTask

end NodeSteward
