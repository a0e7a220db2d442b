import NodeSteward.Channel.Signing
import NodeSteward.Channel.Verification
import NodeSteward.Proofs.Passages
import NodeSteward.Proofs.Text.Numerals

/-!
# What a signed request commits to

The body of a request tells by itself which text its signature has to be for: the transaction, the
output where one is named, and the second, with slashes between them.  The client has its text
signed before there is a body, and both are put together apart from each other.  They agree, so that
every request that is sent carries a signature of the node for what its own body says.

A number has no slash, so that the slashes of a text tell its parts if the hash has none either.
There are two parts when the details of a transaction are asked for, and three when it is the short
identifier of an outpoint.  Hence no two questions have a text in common, nor has one question at
two different seconds, and a signature for one request is of no use in any other.
-/

namespace NodeSteward

variable {α σ ν : Type}

namespace Json

/-- The member of an object. -/
def field? (name : String) : Json → Option Json
  | .object members => member? name members
  | _ => none

/-- The characters of a text or of an integer, with nothing around them. -/
def plainText? : Json → Option String
  | .text value => some value
  | .number (.integer value) => some (Decimal.intText value)
  | _ => none

/-- The text that the signature in the body of a request has to be for. -/
def dictated? (body : Json) : Option String := do
  let hash ← (body.field? "transactionHash").bind plainText?
  let unixTime ← (body.field? "unixTime").bind plainText?
  match body.field? "outputIndex" with
  | none => return "/".intercalate [hash, unixTime]
  | some output => return "/".intercalate [hash, ← output.plainText?, unixTime]

/-- The body carries a signature that is good for the text it dictates. -/
def Carries (good : String → String → Prop) (body : Json) : Prop :=
  ∃ text signature, body.dictated? = some text ∧
    body.field? "signature" = some (.text signature) ∧ good text signature

end Json

namespace Lookup

variable {one two : Lookup} {first second : Int}

/-- The numbers of the text that is signed; they stand after the hash. -/
def numbers (lookup : Lookup) (unixTime : Int) : List Int :=
  match lookup with
  | details _ => [unixTime]
  | shortChannelId _ output => [output.toNat, unixTime]

/-- The parts of the text that is signed. -/
def parts (lookup : Lookup) (unixTime : Int) : List (List Char) :=
  lookup.hash.toList :: (lookup.numbers unixTime).map Decimal.intChars

theorem toList_signedText (lookup : Lookup) (unixTime : Int) :
    (lookup.signedText unixTime).toList = ['/'].intercalate (lookup.parts unixTime) := by
  cases lookup with
  | details text => simp [signedText, parts, hash, numbers, Decimal.intText]
  | shortChannelId text output =>
    simp [signedText, parts, hash, numbers, Decimal.intText, Decimal.natText,
      Decimal.intChars_natCast]

theorem slash_not_mem_parts (slashless : '/' ∉ one.hash.toList) :
    ∀ part ∈ one.parts first, '/' ∉ part := by
  refine List.forall_mem_cons.mpr ⟨slashless, ?_⟩
  intro part written
  rcases List.mem_map.mp written with ⟨number, -, rfl⟩
  exact (Decimal.signedNumeral_intChars number).not_mem rfl (by decide) (by decide)

/-- The slashes of a signed text stand between its parts, and nowhere else. -/
theorem splitOn_signedText (slashless : '/' ∉ one.hash.toList) :
    (one.signedText first).toList.splitOn '/' = one.parts first := by
  rw [toList_signedText]
  exact List.splitOn_intercalate '/' (slash_not_mem_parts slashless) (List.cons_ne_nil _ _)

/-- Questions of different kinds differ in how many numbers they have. -/
theorem eq_of_numbers_eq (sameHash : one.hash = two.hash)
    (same : one.numbers first = two.numbers second) : one = two ∧ first = second := by
  cases one with
  | details text =>
    cases two with
    | details other =>
      rw [numbers, numbers, List.cons.injEq] at same
      rw [details.injEq]
      exact ⟨sameHash, same.1⟩
    | shortChannelId other output => cases same
  | shortChannelId text output =>
    cases two with
    | details other => cases same
    | shortChannelId other otherOutput =>
      rw [numbers, numbers, List.cons.injEq, List.cons.injEq, Int.natCast_inj,
        UInt32.toNat_inj] at same
      rw [shortChannelId.injEq]
      exact ⟨⟨sameHash, same.1⟩, same.2.1⟩

theorem eq_of_parts_eq (same : one.parts first = two.parts second) :
    one = two ∧ first = second := by
  rw [parts, parts, List.cons.injEq, String.toList_inj,
    List.map_inj_right fun _ _ => Decimal.intChars_inj.mp] at same
  exact eq_of_numbers_eq same.1 same.2

theorem signedText_inj (slashless : '/' ∉ one.hash.toList)
    (otherSlashless : '/' ∉ two.hash.toList) :
    one.signedText first = two.signedText second ↔ one = two ∧ first = second := by
  constructor
  · intro same
    apply eq_of_parts_eq
    rw [← splitOn_signedText slashless, same, splitOn_signedText otherSlashless]
  · rintro ⟨rfl, rfl⟩
    rfl

/-- The body dictates the text that is signed for it. -/
theorem dictated?_body (lookup : Lookup) (unixTime : Int) (signature publicKey : String) :
    (lookup.body unixTime signature publicKey).dictated? = some (lookup.signedText unixTime) := by
  cases lookup with
  | details hash =>
    simp [body, Json.dictated?, Json.field?, Json.member?, Json.plainText?, Json.ofInt, signedText]
  | shortChannelId hash output =>
    simp [body, Json.dictated?, Json.field?, Json.member?, Json.plainText?, Json.ofInt, Json.ofNat,
      signedText, Decimal.intText, Decimal.natText, Decimal.intChars_natCast, String.append_assoc]

theorem field?_signature_body (lookup : Lookup) (unixTime : Int) (signature publicKey : String) :
    (lookup.body unixTime signature publicKey).field? "signature" = some (.text signature) := by
  cases lookup <;> rfl

theorem carries_body {good : String → String → Prop} {lookup : Lookup} {unixTime : Int}
    {signature publicKey : String} :
    (lookup.body unixTime signature publicKey).Carries good ↔
      good (lookup.signedText unixTime) signature := by
  simp [Json.Carries, dictated?_body, field?_signature_body]

end Lookup

/-- What is learned from the answer to a question. -/
abbrev Lookup.Finding : Lookup → Type
  | details _ => TransactionDetails
  | shortChannelId _ _ => Option ShortChannelId

/-- The request that is sent by a call. -/
def ClientCall.request? : ClientCall → Option HttpRequest
  | sign _ => none
  | fetch request => some request

/-- The requests that a program sends when it runs alone. -/
def Program.sent (handler : Handler clientCalls σ) (program : Program clientCalls α) (state : σ) :
    List HttpRequest :=
  (program.passages handler state).filterMap fun passage => passage.request.request?

namespace VerificationClient

variable {handler : Handler clientCalls σ} {state : σ}

/-- Puts a question to the service. -/
def inquire (client : VerificationClient) (unixTime : Int) :
    (lookup : Lookup) → Program clientCalls (Except VerificationError lookup.Finding)
  | .details hash => client.transactionDetails unixTime hash
  | .shortChannelId hash output => client.shortChannelId unixTime hash output

theorem ask_eq_call (client : VerificationClient) (unixTime : Int) (lookup : Lookup)
    (decode : Source → Option α) :
    client.ask unixTime lookup decode =
      .call (I := clientCalls) (.sign (lookup.signedText unixTime)) fun
        | .error error => pure (.error error)
        | .ok signature =>
          .call (I := clientCalls) (.fetch (client.request lookup unixTime signature)) fun answer =>
            pure (readAnswer decode answer) := by
  refine congrArg (Program.call _) (funext fun signed => ?_)
  cases signed <;> rfl

theorem shortChannelId_eq_map (client : VerificationClient) (unixTime : Int) (hash : String)
    (output : UInt32) :
    client.shortChannelId unixTime hash output =
      client.ask unixTime (.shortChannelId hash output) decodeShortChannelId? >>= fun answer =>
        pure (answer.bind readShortChannelId) := by
  refine bind_congr fun answer => ?_
  cases answer <;> rfl

/-- What is sent once the message that is to be signed has been answered. -/
def requestsAfter (client : VerificationClient) (unixTime : Int) (lookup : Lookup) :
    Except VerificationError String → List HttpRequest
  | .error _ => []
  | .ok signature => [client.request lookup unixTime signature]

theorem sent_ask (client : VerificationClient) (unixTime : Int) (lookup : Lookup)
    (decode : Source → Option α) :
    (client.ask unixTime lookup decode).sent handler state =
      client.requestsAfter unixTime lookup
        (handler (.sign (lookup.signedText unixTime)) state).1 := by
  rw [ask_eq_call, Program.sent, Program.passages]
  cases (handler (.sign (lookup.signedText unixTime)) state).1 <;> rfl

theorem sent_inquire (client : VerificationClient) (unixTime : Int) (lookup : Lookup) :
    (client.inquire unixTime lookup).sent handler state =
      client.requestsAfter unixTime lookup
        (handler (.sign (lookup.signedText unixTime)) state).1 := by
  cases lookup with
  | details hash => exact sent_ask client unixTime _ _
  | shortChannelId hash output =>
    rw [inquire, shortChannelId_eq_map, Program.sent, Program.passages_map]
    exact sent_ask client unixTime _ _

end VerificationClient

/-! ## Signatures of the node -/

theorem SigningTask.sign_eq_ok_iff {task : SigningTask} {node : String → Except RpcError String}
    {message signature : String} :
    task.sign node message = .ok signature ↔ task = .serving ∧ node message = .ok signature := by
  cases task with
  | serving =>
    rw [sign]
    cases node message with
    | error error =>
      show Except.error _ = Except.ok signature ↔ _
      simp
    | ok given =>
      show Except.ok given = Except.ok signature ↔ _
      simp
  | stopped => simp [sign]
  | dropping => simp [sign]

/-- What the client works in.  All of it can depend on what has been signed and answered before. -/
structure ClientSurroundings (ν : Type) where
  task : ν → SigningTask
  /-- How the node answers a message that reaches it. -/
  node : String → ν → Except RpcError String
  network : HttpRequest → ν → Option HttpResponse
  after : ClientCall → ν → ν

namespace ClientSurroundings

variable (surroundings : ClientSurroundings ν)

/-- The signature of a message, which goes to the node by way of the task. -/
def sign (message : String) (state : ν) : Except VerificationError String :=
  (surroundings.task state).sign (fun message => surroundings.node message state) message

/-- Answers what the client asks. -/
def handler : Handler clientCalls ν
  | .sign message, state =>
    (surroundings.sign message state, surroundings.after (.sign message) state)
  | .fetch request, state =>
    (surroundings.network request state, surroundings.after (.fetch request) state)

/-- A signature of the node is good for the text that it was made for, and for no other one. -/
def Recognizes (good : String → String → Prop) : Prop :=
  ∀ message signature state, surroundings.node message state = .ok signature →
    ∀ text, good text signature ↔ text = message

variable {surroundings} {client : VerificationClient} {lookup : Lookup} {unixTime : Int}
variable {message signature : String} {state : ν}

theorem node_of_sign (signed : surroundings.sign message state = .ok signature) :
    surroundings.node message state = .ok signature :=
  (SigningTask.sign_eq_ok_iff.mp signed).2

theorem sent_eq_requestsAfter :
    (client.inquire unixTime lookup).sent surroundings.handler state =
      client.requestsAfter unixTime lookup
        (surroundings.sign (lookup.signedText unixTime) state) :=
  VerificationClient.sent_inquire client unixTime lookup

theorem sent_of_sign
    (signed : surroundings.sign (lookup.signedText unixTime) state = .ok signature) :
    (client.inquire unixTime lookup).sent surroundings.handler state =
      [client.request lookup unixTime signature] := by
  rw [sent_eq_requestsAfter, signed, VerificationClient.requestsAfter]

/-- Nothing is sent without a signature. -/
theorem exists_of_mem_sent {request : HttpRequest}
    (sent : request ∈ (client.inquire unixTime lookup).sent surroundings.handler state) :
    ∃ signature, surroundings.sign (lookup.signedText unixTime) state = .ok signature ∧
      request = client.request lookup unixTime signature := by
  rw [sent_eq_requestsAfter] at sent
  cases signed : surroundings.sign (lookup.signedText unixTime) state with
  | error error =>
    rw [signed] at sent
    exact absurd sent List.not_mem_nil
  | ok signature =>
    rw [signed] at sent
    exact ⟨signature, rfl, List.mem_singleton.mp sent⟩

/-- Every request that is sent carries a signature of the node for the text that its own body
dictates, and a request is sent for each question whose text gets signed.  As long as the hashes
have no slash, two questions have the same text only if they are one, asked at the same second.  So
if signatures of the node are good for nothing but what they were made for, the signature for one
question makes the body of another one good just if that is the same question at the same second. -/
theorem signatures_commit (surroundings : ClientSurroundings ν) (client : VerificationClient) :
    (∀ unixTime lookup state,
      (∀ request ∈ (client.inquire unixTime lookup).sent surroundings.handler state,
        request.body.Carries fun text signature =>
          surroundings.node text state = .ok signature) ∧
      ∀ signature, surroundings.sign (lookup.signedText unixTime) state = .ok signature →
        (client.inquire unixTime lookup).sent surroundings.handler state =
          [client.request lookup unixTime signature]) ∧
    (∀ (one two : Lookup) (first second : Int),
      '/' ∉ one.hash.toList → '/' ∉ two.hash.toList →
        (one.signedText first = two.signedText second ↔ one = two ∧ first = second)) ∧
    ∀ good, surroundings.Recognizes good →
      ∀ (one two : Lookup) (first second : Int) (signature publicKey : String) (state : ν),
        '/' ∉ one.hash.toList → '/' ∉ two.hash.toList →
        surroundings.sign (one.signedText first) state = .ok signature →
          ((two.body second signature publicKey).Carries good ↔ two = one ∧ second = first) := by
  refine ⟨fun unixTime lookup state => ⟨?_, fun signature => sent_of_sign⟩, ?_, ?_⟩
  · intro request sent
    rcases exists_of_mem_sent sent with ⟨signature, signed, rfl⟩
    exact Lookup.carries_body.mpr (node_of_sign signed)
  · intro one two first second slashless otherSlashless
    exact Lookup.signedText_inj slashless otherSlashless
  · intro good recognizes one two first second signature publicKey state slashless otherSlashless
      signed
    rw [Lookup.carries_body, recognizes _ _ _ (node_of_sign signed),
      Lookup.signedText_inj otherSlashless slashless]

/-- A hash with a slash could pass for a hash and an output. -/
example : (Lookup.details "cd/1").signedText (-5) =
    (Lookup.shortChannelId "cd" 1).signedText (-5) := by
  cbv

/-- A node that signs a message by putting it in brackets, without a network. -/
def bracketing : ClientSurroundings Unit where
  task _ := .serving
  node message _ := .ok ("sig(" ++ message ++ ")")
  network _ _ := none
  after _ state := state

/-- The signature for a short identifier does not serve for the details of its transaction. -/
theorem signatures_commit_bracketing :
    let client : VerificationClient := ⟨VerificationClient.standardUrl, "02ab"⟩
    let outpoint := Lookup.shortChannelId "cd" 1
    let good := fun text signature => signature = "sig(" ++ text ++ ")"
    let request := client.request outpoint (-5) "sig(cd/1/-5)"
    '/' ∉ "cd".toList ∧
      bracketing.sign (outpoint.signedText (-5)) () = .ok "sig(cd/1/-5)" ∧
      (client.inquire (-5) outpoint).sent bracketing.handler () = [request] ∧
      (request.body.Carries fun text signature => bracketing.node text () = .ok signature) ∧
      (Lookup.details "cd").signedText (-5) ≠ outpoint.signedText (-5) ∧
      bracketing.Recognizes good ∧ request.body.Carries good ∧
      ¬ ((Lookup.details "cd").body (-5) "sig(cd/1/-5)" "02ab").Carries good := by
  intro client outpoint good request
  have slashless : '/' ∉ "cd".toList := by decide
  have written : outpoint.signedText (-5) = "cd/1/-5" := by cbv
  have signed : bracketing.sign (outpoint.signedText (-5)) () = .ok "sig(cd/1/-5)" := by
    rw [written]
    rfl
  have recognizes : bracketing.Recognizes good := by
    rintro message _ state made text
    cases made
    show "sig(" ++ message ++ ")" = "sig(" ++ text ++ ")" ↔ text = message
    rw [String.append_left_inj, String.append_right_inj, eq_comm]
  have other : Lookup.details "cd" ≠ outpoint := Lookup.noConfusion
  rcases signatures_commit bracketing client with ⟨requests, apart, commits⟩
  rcases requests (-5) outpoint () with ⟨carries, sends⟩
  have sent := sends _ signed
  have accepts := fun lookup held => commits good recognizes outpoint lookup (-5) (-5)
    "sig(cd/1/-5)" "02ab" () slashless held signed
  refine ⟨slashless, signed, sent, ?_, ?_, recognizes, ?_, ?_⟩
  · exact carries request (sent ▸ List.mem_singleton_self request)
  · intro same
    exact other ((apart (.details "cd") outpoint _ _ slashless slashless).mp same).1
  · exact (accepts outpoint slashless).mpr ⟨rfl, rfl⟩
  · intro carried
    exact other ((accepts (.details "cd") slashless).mp carried).1

end ClientSurroundings

end NodeSteward
