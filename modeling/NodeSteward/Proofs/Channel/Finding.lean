import NodeSteward.Proofs.Channel.Known

/-!
# Sweeps with a steady service

A steady service answers a question in the same way whenever it is asked.  What a sweep makes of an
answer is a finding, or nothing: the confirmation of a transaction, or a short identifier.  So a
sweep that nothing cancels offers the store the findings of its inquiries, one after the other, and
the store enters each of them into its channel or refuses it.
-/

namespace NodeSteward

variable {σ : Type}

/-- What a sweep can learn from an answer. -/
inductive Finding where
  | confirmation (transaction : ChannelTransaction) (told : Confirmation)
  | shortChannelId (shortId : ShortChannelId)
  deriving DecidableEq, Repr

/-- The channel apart from the instant of its last change. -/
def Channel.unstamped (channel : Channel) : Channel :=
  { channel with updatedOn := .epoch }

namespace Finding

/-- The inquiry that a finding answers. -/
def inquiry : Finding → Inquiry
  | confirmation transaction _ => .details transaction
  | shortChannelId _ => .shortChannelId

/-- The call that offers a finding to the store. -/
def request (now : Timestamp) (id : ChannelId) : Finding → ChannelCall
  | confirmation transaction told => .recordConfirmation now id transaction told
  | shortChannelId shortId => .setShortChannelId now id shortId

/-- The channel with a finding entered. -/
def enter (now : Timestamp) (channel : Channel) : Finding → Channel
  | confirmation transaction told => channel.confirmed now transaction told
  | shortChannelId shortId => { channel.named shortId with updatedOn := now }

/-- A finding that leaves nothing to ask. -/
def isComplete : Finding → Bool
  | confirmation _ told =>
    told.blockHeight != 0 && told.transactionOn.isSome && told.confirmedOn.isSome
  | shortChannelId _ => true

/-- A channel says what a finding says: to enter it changes nothing but the instant of the last
change. -/
def IsIn (finding : Finding) (channel : Channel) : Prop :=
  finding.enter .epoch channel.unstamped = channel.unstamped

variable {finding other : Finding} {now : Timestamp} {channel : Channel}

@[simp]
theorem id_enter : (finding.enter now channel).id = channel.id := by
  rcases finding with ⟨_ | _, told⟩ | shortId <;> rfl

/-- What is entered decides nothing about what is asked for a channel. -/
theorem lookup_enter (asked : Inquiry) :
    asked.lookup (finding.enter now channel) = asked.lookup channel := by
  rcases asked with ⟨_ | _⟩ | _ <;> rcases finding with ⟨_ | _, told⟩ | shortId <;> rfl

theorem unstamped_enter :
    (finding.enter now channel).unstamped = finding.enter .epoch channel.unstamped := by
  rcases finding with ⟨_ | _, told⟩ | shortId <;> rfl

theorem isIn_enter : finding.IsIn (finding.enter now channel) := by
  rcases finding with ⟨_ | _, told⟩ | shortId <;> rfl

/-- A finding stays in a channel when another inquiry is answered. -/
theorem IsIn.enter (isIn : finding.IsIn channel) (different : other.inquiry ≠ finding.inquiry) :
    finding.IsIn (other.enter now channel) := by
  have swapped : finding.enter .epoch (other.enter .epoch channel.unstamped) =
      other.enter .epoch (finding.enter .epoch channel.unstamped) := by
    rcases finding with ⟨_ | _, told⟩ | shortId <;> rcases other with ⟨_ | _, others⟩ | otherId <;>
      first | rfl | exact absurd rfl different
  rw [IsIn, unstamped_enter, swapped, isIn]

theorem isNeeded_enter_of_ne {asked : Inquiry} (different : asked ≠ finding.inquiry) :
    asked.isNeeded (finding.enter now channel) = asked.isNeeded channel := by
  rcases asked with ⟨_ | _⟩ | _ <;> rcases finding with ⟨_ | _, told⟩ | shortId <;>
    first | rfl | exact absurd rfl different

/-- A confirmation leaves something open if a height or an instant is missing in it. -/
theorem missing_eq_not_isComplete (transaction : ChannelTransaction) (told : Confirmation) :
    (told.transactionOn.isNone || Channel.missingHeight (some told.blockHeight) ||
      told.confirmedOn.isNone) = !(confirmation transaction told).isComplete := by
  rcases told with ⟨height, transactionOn, confirmedOn⟩
  simp only [isComplete, Channel.missingHeight, bne, Bool.not_and, Bool.not_not]
  cases transactionOn <;> cases confirmedOn <;> cases height == 0 <;> rfl

/-- After a finding was entered, its inquiry is needed only if the finding left something open. -/
theorem isNeeded_enter (needed : finding.inquiry.isNeeded channel = true) :
    finding.inquiry.isNeeded (finding.enter now channel) = !finding.isComplete := by
  cases finding with
  | confirmation transaction told =>
    rw [← missing_eq_not_isComplete]
    -- what does not depend on the columns of the transaction is as it was
    cases transaction <;>
      exact (congrArg (· && _) ((Bool.and_eq_true _ _).mp needed).1).trans (Bool.true_and _)
  | shortChannelId shortId => rfl

end Finding

namespace ChannelStore

/-- The store does not enter a finding: it refuses all changes, the channel is not there, or another
channel has the short identifier. -/
def refuses (store : ChannelStore) (id : ChannelId) (finding : Finding) : Bool :=
  store.refusesUpdates || !store.channels.contains id ||
    match finding with
    | .confirmation _ _ => false
    | .shortChannelId shortId => store.shortIdTaken (some shortId) id

/-- The store with a finding entered into the channel of the given identifier. -/
def entered (store : ChannelStore) (now : Timestamp) (id : ChannelId) (finding : Finding) :
    ChannelStore :=
  { store with
    channels := store.channels.modify id (fun channel => finding.enter now channel)
      (fun _ => Finding.id_enter) }

variable {store : ChannelStore} {now : Timestamp} {id : ChannelId} {finding : Finding}

theorem mem_rows_entered {held : Channel} :
    held ∈ (store.entered now id finding).channels.rows ↔
      ∃ channel ∈ store.channels.rows,
        (if channel.id = id then finding.enter now channel else channel) = held :=
  Table.mem_rows_modify fun _ => Finding.id_enter

theorem refuses_eq_true_iff :
    store.refuses id finding = true ↔
      store.refusesUpdates = true ∨ (∀ channel ∈ store.channels.rows, channel.id ≠ id) ∨
        ∃ shortId, finding = .shortChannelId shortId ∧
          ∃ other ∈ store.channels.rows, other.id ≠ id ∧ other.shortChannelId = some shortId := by
  have absent : (!store.channels.contains id) = true ↔
      ∀ channel ∈ store.channels.rows, channel.id ≠ id := by
    rw [Bool.not_eq_true', ← Bool.not_eq_true, Table.contains_iff]
    exact ⟨fun none channel member same => none ⟨channel, member, same⟩,
      fun others ⟨channel, member, same⟩ => others channel member same⟩
  unfold refuses
  rw [Bool.or_eq_true, Bool.or_eq_true, or_assoc, absent]
  refine or_congr_right (or_congr_right ?_)
  cases finding with
  | confirmation transaction told => simp
  | shortChannelId shortId => simp [shortIdTaken]

/-- The store enters a finding unless it refuses it. -/
theorem handler_request :
    (handler (finding.request now id) store).1.isOk = !store.refuses id finding ∧
      (handler (finding.request now id) store).2 =
        if store.refuses id finding then store else store.entered now id finding := by
  cases finding with
  | confirmation transaction told =>
    rw [Finding.request, handler, recordConfirmation]
    split
    · rename_i updates
      rw [refuses, updates]
      exact ⟨rfl, rfl⟩
    · rename_i updates
      rw [Bool.not_eq_true] at updates
      split
      · rename_i stored
        have enters : store.refuses id (.confirmation transaction told) = false := by
          rw [refuses, updates, stored]
          rfl
        rw [enters]
        exact ⟨rfl, rfl⟩
      · rename_i absent
        rw [refuses, updates, Bool.eq_false_iff.mpr absent]
        exact ⟨rfl, rfl⟩
  | shortChannelId shortId =>
    rw [Finding.request, handler, setShortChannelId]
    split
    · rename_i updates
      rw [refuses, updates]
      exact ⟨rfl, rfl⟩
    · rename_i updates
      rw [Bool.not_eq_true] at updates
      split
      · rename_i stored
        split
        · rename_i taken
          rw [refuses, updates, stored, taken]
          exact ⟨rfl, rfl⟩
        · rename_i free
          have enters : store.refuses id (.shortChannelId shortId) = false := by
            rw [refuses, updates, stored, Bool.eq_false_iff.mpr free]
            rfl
          rw [enters]
          exact ⟨rfl, rfl⟩
      · rename_i absent
        rw [refuses, updates, Bool.eq_false_iff.mpr absent]
        exact ⟨rfl, rfl⟩

end ChannelStore

/-! ## A steady service -/

/-- The exchange leaves nothing to ask again: a transaction is confirmed and both of its instants
are told, a short identifier is told, and a write succeeds. -/
def Exchange.isConclusive : Exchange sweepCalls σ → Bool
  | ⟨.transactionDetails _, .ok found, _⟩ =>
    found.isConfirmed && found.transactionTime.isSome && found.blockTime.isSome
  | ⟨.transactionDetails _, .error _, _⟩ => false
  | ⟨.shortChannelId _ _, .ok shortId, _⟩ => shortId.isSome
  | ⟨.shortChannelId _ _, .error _, _⟩ => false
  | ⟨.store _, answer, _⟩ => answer.isOk
  | ⟨.pause, _, _⟩ => true

/-- A verification service that answers the same question always in the same way. -/
structure Verifier where
  details : String → Except VerificationError TransactionDetails
  shortChannelId : String → UInt32 → Except VerificationError (Option ShortChannelId)

namespace Verifier

variable (verifier : Verifier)

/-- Answers what a sweep asks that nothing cancels and that has the store for itself. -/
def handler : Handler sweepCalls ChannelStore
  | .store request, store => ChannelStore.handler request store
  | .transactionDetails hash, store => (verifier.details hash, store)
  | .shortChannelId hash output, store => (verifier.shortChannelId hash output, store)
  | .pause, store => (true, store)

/-- The store after a sweep. -/
def sweep (now : Timestamp) (node : NodeSettings) (store : ChannelStore) : ChannelStore :=
  ((Sweep.run now node).run verifier.handler store).2

/-- What a sweep learns from the answer to an inquiry. -/
def finding? (channel : Channel) : Inquiry → Option Finding
  | .details transaction =>
    match verifier.details (Sweep.hashOf channel transaction) with
    | .ok found =>
      if found.isConfirmed then some (.confirmation transaction found.confirmation) else none
    | .error _ => none
  | .shortChannelId =>
    match verifier.shortChannelId channel.fundingHash channel.fundingOutput with
    | .ok shortId => shortId.map Finding.shortChannelId
    | .error _ => none

/-- The store after the finding of an inquiry was offered to it, where there is one. -/
def advance (now : Timestamp) (store : ChannelStore) (inquiry : Channel × Inquiry) : ChannelStore :=
  match verifier.finding? inquiry.1 inquiry.2 with
  | some finding => (ChannelStore.handler (finding.request now inquiry.1.id) store).2
  | none => store

variable {verifier} {now : Timestamp} {channel held : Channel} {inquiry : Inquiry}
  {store : ChannelStore} {finding : Finding}

/-- A finding depends on the question alone. -/
theorem finding?_congr (same : inquiry.lookup held = inquiry.lookup channel) :
    verifier.finding? held inquiry = verifier.finding? channel inquiry := by
  cases inquiry with
  | details transaction => rw [finding?, finding?, Lookup.details.inj same]
  | shortChannelId =>
    rcases Lookup.shortChannelId.inj same with ⟨hash, output⟩
    rw [finding?, finding?, hash, output]

theorem inquiry_of_finding? (found : verifier.finding? channel inquiry = some finding) :
    finding.inquiry = inquiry := by
  cases inquiry with
  | details transaction =>
    rw [finding?] at found
    split at found
    · split at found
      · cases found
        rfl
      · cases found
    · cases found
  | shortChannelId =>
    rw [finding?] at found
    split at found
    · rcases Option.map_eq_some_iff.mp found with ⟨shortId, _, rfl⟩
      rfl
    · cases found

/-- The question of a round is answered for good if the finding is complete. -/
theorem isConclusive_lookup :
    (Passage.through verifier.handler (inquiry.lookup channel).call store).isConclusive =
      (verifier.finding? channel inquiry).any Finding.isComplete := by
  cases inquiry with
  | details transaction =>
    simp only [Inquiry.lookup, Lookup.call, Passage.through, handler, finding?]
    cases verifier.details (Sweep.hashOf channel transaction) with
    | error cause => rfl
    | ok found =>
      simp only [Exchange.isConclusive]
      cases confirmed : found.isConfirmed with
      | false => rfl
      | true =>
        have height : (found.blockHeight != 0) = true := by
          simpa [TransactionDetails.isConfirmed] using confirmed
        simp [Finding.isComplete, TransactionDetails.confirmation, height]
  | shortChannelId =>
    simp only [Inquiry.lookup, Lookup.call, Passage.through, handler, finding?]
    rcases verifier.shortChannelId channel.fundingHash channel.fundingOutput with
      cause | (_ | shortId) <;> rfl

/-- The write of a round offers its finding to the store. -/
theorem write?_eq_request :
    inquiry.write? now channel
        (Passage.through verifier.handler (inquiry.lookup channel).call store).toExchange =
      (verifier.finding? channel inquiry).map (Finding.request now channel.id) := by
  cases inquiry with
  | details transaction =>
    simp only [Inquiry.lookup, Lookup.call, Passage.through, handler, finding?, Inquiry.write?]
    cases verifier.details (Sweep.hashOf channel transaction) with
    | error cause => rfl
    | ok found => cases confirmed : found.isConfirmed <;> simp [confirmed, Finding.request]
  | shortChannelId =>
    simp only [Inquiry.lookup, Lookup.call, Passage.through, handler, finding?, Inquiry.write?]
    rcases verifier.shortChannelId channel.fundingHash channel.fundingOutput with
      cause | (_ | shortId) <;> rfl

/-- The store refuses the finding of an inquiry, if there is one, or enters it. -/
theorem advance_cases (verifier : Verifier) (now : Timestamp) (store : ChannelStore)
    (channel : Channel) (inquiry : Inquiry) :
    ((∀ finding, verifier.finding? channel inquiry = some finding →
          store.refuses channel.id finding = true) ∧
        verifier.advance now store (channel, inquiry) = store) ∨
      ∃ finding, verifier.finding? channel inquiry = some finding ∧
        store.refuses channel.id finding = false ∧
        verifier.advance now store (channel, inquiry) = store.entered now channel.id finding := by
  rw [advance]
  cases found : verifier.finding? channel inquiry with
  | none => exact Or.inl ⟨nofun, rfl⟩
  | some finding =>
    dsimp only
    rw [ChannelStore.handler_request.2]
    cases refused : store.refuses channel.id finding with
    | false => exact Or.inr ⟨finding, rfl, refused, rfl⟩
    | true =>
      refine Or.inl ⟨?_, rfl⟩
      rintro _ ⟨⟩
      exact refused

/-! ## The course of a sweep -/

theorem before_pause :
    (inquiry.round verifier.handler now channel store).pause.before =
      verifier.advance now store (channel, inquiry) := by
  rw [Inquiry.round, write?_eq_request, advance]
  dsimp only [Passage.through]
  cases inquiry <;> cases verifier.finding? channel _ <;> rfl

/-- A round is conclusive if the service answers with a complete finding and the store enters it. -/
theorem isConclusive_round :
    (∀ passage ∈ (inquiry.round verifier.handler now channel store).passages,
        passage.isConclusive = true) ↔
      ∃ finding, verifier.finding? channel inquiry = some finding ∧
        finding.isComplete = true ∧ store.refuses channel.id finding = false := by
  have asked : (Passage.through verifier.handler (inquiry.lookup channel).call store).state =
      store := by
    cases inquiry <;> rfl
  rw [Round.passages, List.forall_mem_cons, List.forall_mem_append, List.forall_mem_singleton,
    Inquiry.round, write?_eq_request, isConclusive_lookup, asked]
  cases found : verifier.finding? channel inquiry with
  | none => simp
  | some finding =>
    have written : (Passage.through verifier.handler
        (.store (finding.request now channel.id)) store).isConclusive =
          !store.refuses channel.id finding := ChannelStore.handler_request.1
    have paused : ∀ before, (Passage.through verifier.handler .pause before).isConclusive = true :=
      fun _ => rfl
    simp [written, paused]

theorem rounds_cons (inquiries : List (Channel × Inquiry)) :
    Sweep.rounds verifier.handler now ((channel, inquiry) :: inquiries) store =
      inquiry.round verifier.handler now channel store ::
        Sweep.rounds verifier.handler now inquiries
          (verifier.advance now store (channel, inquiry)) := by
  rw [Sweep.rounds_cons, before_pause]
  rfl

/-- A sweep offers the findings of its inquiries to the store, one after the other. -/
theorem run_follow (inquiries : List (Channel × Inquiry)) (summary : SweepSummary)
    (store : ChannelStore) :
    ((Sweep.follow now inquiries summary).run verifier.handler store).2 =
      inquiries.foldl (verifier.advance now) store := by
  induction inquiries generalizing summary store with
  | nil => rfl
  | cons first inquiries ih =>
    rcases first with ⟨channel, inquiry⟩
    rcases inquiry.take_course verifier.handler now channel summary store with ⟨_, left, _⟩
    rw [Sweep.follow_cons, Program.run_bind, left, before_pause, List.foldl_cons]
    exact ih _ _

theorem sweep_eq_foldl {node : NodeSettings} (mainnet : node.isBitcoinMainnet = true) :
    verifier.sweep now node store = store.inquiries.foldl (verifier.advance now) store := by
  rw [sweep, Sweep.run_eq_call mainnet]
  show ((Sweep.sweepChannels now store.channels.rows _ >>= _).run verifier.handler store).2 = _
  rw [Program.run_bind, Sweep.sweepChannels_eq_follow, Program.run_bind]
  exact run_follow _ _ _

/-- The calls of a sweep are the list and its rounds. -/
theorem passages_run {node : NodeSettings} (mainnet : node.isBitcoinMainnet = true) :
    (Sweep.run now node).passages verifier.handler store =
      .through verifier.handler (.store .listChannels) store ::
        (Sweep.rounds verifier.handler now store.inquiries store).flatMap Round.passages :=
  (Sweep.run_course now mainnet rfl).1

end Verifier

end NodeSteward
