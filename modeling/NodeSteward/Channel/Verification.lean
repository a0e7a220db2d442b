import NodeSteward.Calls
import NodeSteward.Channel.Error
import NodeSteward.Channel.Record
import NodeSteward.Channel.Update
import NodeSteward.Json.Printer

/-!
# The verification service

An outside service knows where transactions were confirmed and which short identifier belongs to
an outpoint.  Every request is signed by the node: the signed text consists of the parts of the
request's own body, in their order and with slashes between them.
-/

namespace NodeSteward

/-- Where and when the service saw a transaction confirmed. -/
structure TransactionDetails where
  hash : String
  /-- Zero for a transaction that is not confirmed or not known. -/
  blockHeight : Int
  blockTime : Option Timestamp
  transactionTime : Option Timestamp
  deriving DecidableEq, Repr

namespace TransactionDetails

/-- What the service is taken to say where it says nothing. -/
def unknown : TransactionDetails := ⟨"", 0, none, none⟩

def isConfirmed (details : TransactionDetails) : Bool :=
  details.blockHeight ≠ 0

/-- The confirmation that a channel record takes from the details. -/
def confirmation (details : TransactionDetails) : Confirmation where
  blockHeight := details.blockHeight
  transactionOn := details.transactionTime
  confirmedOn := details.blockTime

def toJson (details : TransactionDetails) : Json :=
  .ofMembers
    [("transactionHash", .text details.hash), ("blockHeight", .ofInt details.blockHeight),
      ("blockTimestamp", .ofOption Timestamp.toJson details.blockTime),
      ("transactionTimestamp", .ofOption Timestamp.toJson details.transactionTime)]

def decode? (source : Source) : Option TransactionDetails := do
  let slots ← source.slots?
    ["transactionHash", "blockHeight", "blockTimestamp", "transactionTimestamp"]
  return {
    hash := ← slots.withDefault "transactionHash" Source.text? unknown.hash
    blockHeight := ← slots.withDefault "blockHeight" Source.int64? unknown.blockHeight
    blockTime := ←
      slots.withDefault "blockTimestamp" (Source.optional? Timestamp.decode?) unknown.blockTime
    transactionTime := ←
      slots.withDefault "transactionTimestamp" (Source.optional? Timestamp.decode?)
        unknown.transactionTime }

end TransactionDetails

/-- What the service can be asked. -/
inductive Lookup where
  /-- The confirmation of a transaction. -/
  | details (hash : String)
  /-- The short identifier of an outpoint. -/
  | shortChannelId (hash : String) (output : UInt32)
  deriving DecidableEq, Repr

namespace Lookup

/-- The transaction that a question is about. -/
def hash : Lookup → String
  | .details hash => hash
  | .shortChannelId hash _ => hash

/-- The short form of a question: the transaction, and the output after a colon. -/
def text : Lookup → String
  | .details hash => hash
  | .shortChannelId hash output => hash ++ ":" ++ Decimal.natText output.toNat

/-- The text that is signed for a question asked at the given second. -/
def signedText (lookup : Lookup) (unixTime : Int) : String :=
  match lookup with
  | .details hash => hash ++ "/" ++ Decimal.intText unixTime
  | .shortChannelId hash output =>
    hash ++ "/" ++ Decimal.natText output.toNat ++ "/" ++ Decimal.intText unixTime

/-- The address of a question on the service. -/
def path : Lookup → String
  | .details _ => "api/bitcoin/transactionDetails"
  | .shortChannelId _ _ => "api/bitcoin/shortChannelId"

/-- The body of a signed request. -/
def body (lookup : Lookup) (unixTime : Int) (signature publicKey : String) : Json :=
  let signed :=
    [("unixTime", .ofInt unixTime), ("signature", .text signature), ("publicKey", .text publicKey)]
  match lookup with
  | .details hash => .object (("transactionHash", .text hash) :: signed)
  | .shortChannelId hash output =>
    .object (("transactionHash", .text hash) :: ("outputIndex", .ofNat output.toNat) :: signed)

end Lookup

/-- A request over HTTP. -/
structure HttpRequest where
  method : String
  url : String
  /-- The header that tells the version of the client. -/
  version : String
  contentType : String
  body : Json
  deriving Repr

/-- The answer to a request. -/
structure HttpResponse where
  status : Nat
  body : String
  deriving DecidableEq, Repr

/-- What the client of the service asks of others: a signature, and the answer to a request,
where there is none if no connection was made or it broke. -/
inductive ClientCall where
  | sign (message : String)
  | fetch (request : HttpRequest)

abbrev clientCalls : Interface where
  Call := ClientCall
  Answer
    | .sign _ => Except VerificationError String
    | .fetch _ => Option HttpResponse

/-- The client of the verification service. -/
structure VerificationClient where
  baseUrl : String
  publicKey : String
  deriving DecidableEq, Repr

namespace VerificationClient

/-- The address of the service where nothing else is said. -/
def standardUrl : String := "https://vector.ln.capital/"

/-- The version that the client tells. -/
def version : String := "0.1.0"

/-- The address of a path, with one slash after the base. -/
def url (client : VerificationClient) (path : String) : String :=
  String.ofList (client.baseUrl.toList.reverse.dropWhile (· == '/')).reverse ++ "/" ++ path

/-- The signed request for a question. -/
def request (client : VerificationClient) (lookup : Lookup) (unixTime : Int)
    (signature : String) : HttpRequest where
  method := "GET"
  url := client.url lookup.path
  version
  contentType := "application/json"
  body := lookup.body unixTime signature client.publicKey

/-- What an answer says, if it is a success and has the expected form. -/
def readAnswer {α : Type} (decode : Source → Option α) :
    Option HttpResponse → Except VerificationError α
  | none => .error (.request "no answer")
  | some response =>
    if 200 ≤ response.status ∧ response.status < 300 then
      match (Source.ofText? response.body).bind decode with
      | some value => .ok value
      | none => .error (.decode "unexpected form")
    else .error (.status response.status)

/-- Signs a question and sends it. -/
def ask {α : Type} (client : VerificationClient) (unixTime : Int) (lookup : Lookup)
    (decode : Source → Option α) : Program clientCalls (Except VerificationError α) := do
  match ← Program.request (I := clientCalls) (.sign (lookup.signedText unixTime)) with
  | .error error => return .error error
  | .ok signature =>
    let answer ← Program.request (I := clientCalls)
      (.fetch (client.request lookup unixTime signature))
    return readAnswer decode answer

/-- Asks where a transaction was confirmed. -/
def transactionDetails (client : VerificationClient) (unixTime : Int) (hash : String) :
    Program clientCalls (Except VerificationError TransactionDetails) :=
  client.ask unixTime (.details hash) TransactionDetails.decode?

/-- The short identifier in an answer; an empty text says that the service does not know it. -/
def readShortChannelId (text : String) : Except VerificationError (Option ShortChannelId) :=
  if text.isEmpty then .ok none
  else
    match ShortChannelId.ofText text with
    | .ok id => .ok (some id)
    | .error error => .error (.invalidShortChannelId error)

/-- Decodes the answer to a question about a short identifier. -/
def decodeShortChannelId? (source : Source) : Option String := do
  let slots ← source.slots? ["shortChannelId"]
  slots.withDefault "shortChannelId" Source.text? ""

/-- Asks for the short identifier of an outpoint. -/
def shortChannelId (client : VerificationClient) (unixTime : Int) (hash : String)
    (output : UInt32) :
    Program clientCalls (Except VerificationError (Option ShortChannelId)) := do
  match ← client.ask unixTime (.shortChannelId hash output) decodeShortChannelId? with
  | .error error => return .error error
  | .ok text => return readShortChannelId text

end VerificationClient

end NodeSteward
