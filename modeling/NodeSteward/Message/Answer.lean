import NodeSteward.Channel.Error
import NodeSteward.Json.Basic
import NodeSteward.Schedule.Dispatcher
import NodeSteward.Text.Decimal

/-!
# Answers

An answer is an object: it holds a value under `ok`, or it names the kind of a failure under
`error` and explains it under `message`.  Where the explanation would be that of somebody else it
is left out.
-/

namespace NodeSteward

namespace Answer

/-- The answer that holds a value. -/
def ok (value : Json) : Json :=
  .object [("ok", value)]

/-- The answer about a failure. -/
def failure (kind message : String) : Json :=
  .object [("error", .text kind), ("message", .text message)]

/-- The answer about a failure without an explanation. -/
def kindOnly (kind : String) : Json :=
  .object [("error", .text kind)]

/-- An answer with more members. -/
def also (answer : Json) (members : List (String × Json)) : Json :=
  match answer with
  | .object given => .object (given ++ members)
  | other => other

/-- The answer about a value or a failure. -/
def ofExcept {ε α : Type} (refuse : ε → Json) (encode : α → Json) : Except ε α → Json
  | .ok value => ok (encode value)
  | .error error => refuse error

end Answer

namespace StoreError

def kind : StoreError → String
  | .constraintViolation _ _ => "ConstraintViolation"
  | .storageFailure _ _ => "StorageFailure"

def toAnswer (error : StoreError) : Json :=
  Answer.failure error.kind error.message

end StoreError

namespace WorkflowError

def kind : WorkflowError → String
  | .store error => "Store." ++ error.kind
  | .notImplemented _ => "NotImplemented"
  | .recursionInput _ => "RecursionInput"
  | .cycleDetected _ => "CycleDetected"
  | .linkVersionMismatch _ _ _ => "LinkVersionMismatch"
  | .invalidParameters _ => "InvalidParameters"

def toAnswer (error : WorkflowError) : Json :=
  Answer.failure error.kind error.message

end WorkflowError

namespace ScheduleError

def kind : ScheduleError → String
  | .missingInterval _ => "MissingInterval"
  | .invalidInterval _ _ => "InvalidInterval"
  | .parameters error => "Parameters." ++ error.kind

def toAnswer (error : ScheduleError) : Json :=
  Answer.failure error.kind error.message

end ScheduleError

namespace SchedulerError

def kind : SchedulerError → String
  | .discovery _ => "Discovery"
  | .dispatchClosed => "DispatchClosed"

def toAnswer (error : SchedulerError) : Json :=
  Answer.failure error.kind error.message

end SchedulerError

namespace ShortChannelIdError

def kind : ShortChannelIdError → String
  | .malformed _ => "Malformed"
  | .outOfRange _ _ => "OutOfRange"

def toAnswer (error : ShortChannelIdError) : Json :=
  Answer.failure error.kind error.message

end ShortChannelIdError

namespace IngestError

def kind : IngestError → String
  | .rpc (.call _ _) => "Rpc.Call"
  | .rpc (.stream _ _) => "Rpc.Stream"
  | .store error => "Store." ++ error.kind
  | .outpoint _ => "ChannelPoint"
  | .payload _ => "Payload"
  | .unsettled _ => "Unsettled"

def toAnswer (error : IngestError) : Json :=
  Answer.failure error.kind error.message

end IngestError

namespace VerificationError

/-- The explanations of a failed request and of an answer of a wrong form are not our own. -/
def toAnswer (error : VerificationError) : Json :=
  match error with
  | .signing _ => Answer.failure "Signing" error.message
  | .status _ => Answer.failure "Status" error.message
  | .invalidShortChannelId _ => Answer.failure "InvalidShortChannelId" error.message
  | .request _ => Answer.kindOnly "Request"
  | .decode _ => Answer.kindOnly "Decode"

end VerificationError

end NodeSteward
