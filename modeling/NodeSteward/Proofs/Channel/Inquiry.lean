import NodeSteward.Channel.Reconciliation
import NodeSteward.Proofs.Passages

/-!
# A sweep as a series of rounds

What a sweep asks for a channel is settled when the channels are listed.  The answers to earlier
questions change the channel as the sweep knows it, but none of them makes a later question
needed or needless, and none changes it.  So a sweep goes through the inquiries that the list
dictates: each is a round of a question, a write where there is an answer to store, and a pause,
and only a cancelled pause ends the sweep before the last of them.
-/

namespace NodeSteward

/-- The channel with a short identifier. -/
def Channel.named (channel : Channel) (id : ShortChannelId) : Channel :=
  { channel with shortChannelId := some id }

/-- The call that puts a question to the verification service. -/
def Lookup.call : Lookup → SweepCall
  | details hash => .transactionDetails hash
  | shortChannelId hash output => .shortChannelId hash output

theorem Lookup.call_ne_store (lookup : Lookup) (asked : ChannelCall) :
    lookup.call ≠ .store asked := by
  cases lookup <;> nofun

namespace Sweep

variable (now : Timestamp) (channel : Channel) (summary : SweepSummary)

theorem lookUpDetails_eq_call (transaction : ChannelTransaction) :
    lookUpDetails now transaction channel summary =
      .call (I := sweepCalls) (.transactionDetails (hashOf channel transaction)) fun
        | .error _ => pure (channel, summary.asked.failed)
        | .ok details =>
          if details.isConfirmed then
            .call (I := sweepCalls)
              (.store (.recordConfirmation now channel.id transaction details.confirmation)) fun
                | .error _ => pure (channel, summary.asked.failed)
                | .ok _ => pure (channel.applyConfirmation transaction details.confirmation,
                    summary.asked.stored)
          else pure (channel, summary.asked) := by
  refine congrArg (Program.call _) (funext fun answer => ?_)
  cases answer with
  | error cause => rfl
  | ok details =>
    show (if details.isConfirmed then _ else _ : ChannelProgram) =
      if details.isConfirmed then _ else _
    refine congrArg (fun part => if details.isConfirmed then part else _) ?_
    refine congrArg (Program.call _) (funext fun written => ?_)
    cases written <;> rfl

theorem lookUpShortId_eq_call :
    lookUpShortId now channel summary =
      .call (I := sweepCalls) (.shortChannelId channel.fundingHash channel.fundingOutput) fun
        | .error _ => pure (channel, summary.asked.failed)
        | .ok none => pure (channel, summary.asked)
        | .ok (some id) =>
          .call (I := sweepCalls) (.store (.setShortChannelId now channel.id id)) fun
            | .error _ => pure (channel, summary.asked.failed)
            | .ok _ => pure (channel.named id, summary.asked.stored) := by
  refine congrArg (Program.call _) (funext fun answer => ?_)
  rcases answer with cause | (_ | id)
  · rfl
  · rfl
  · refine congrArg (Program.call _) (funext fun written => ?_)
    cases written <;> rfl

end Sweep

/-- What a sweep can ask for a channel. -/
inductive Inquiry where
  | details (transaction : ChannelTransaction)
  | shortChannelId
  deriving DecidableEq, Repr

namespace Inquiry

/-- The inquiries in the order in which a sweep makes them. -/
def order : List Inquiry := [.details .closing, .details .funding, .shortChannelId]

def isNeeded (channel : Channel) : Inquiry → Bool
  | details .closing => channel.needsClosingDetails
  | details .funding => channel.needsFundingDetails
  | shortChannelId => channel.needsShortChannelId

/-- The question to the verification service. -/
def lookup (channel : Channel) : Inquiry → Lookup
  | details transaction => .details (Sweep.hashOf channel transaction)
  | shortChannelId => .shortChannelId channel.fundingHash channel.fundingOutput

/-- The part of a sweep that asks the question and stores the answer. -/
def take (now : Timestamp) : Inquiry → Channel → SweepSummary → Sweep.ChannelProgram
  | details transaction => Sweep.lookUpDetails now transaction
  | shortChannelId => Sweep.lookUpShortId now

/-- A needed question is never about an empty hash. -/
theorem hash_ne_empty {channel : Channel} {inquiry : Inquiry}
    (needed : inquiry.isNeeded channel = true) : (inquiry.lookup channel).hash ≠ "" := by
  cases inquiry with
  | details transaction =>
    cases transaction with
    | funding =>
      simp only [isNeeded, Channel.needsFundingDetails, Bool.and_eq_true,
        Bool.not_eq_true'] at needed
      intro empty
      have present := needed.1.2
      rw [show channel.fundingHash = "" from empty] at present
      cases present
    | closing =>
      simp only [isNeeded, Channel.needsClosingDetails, Bool.and_eq_true] at needed
      rcases (Option.any_eq_true _ _).mp needed.1.2 with ⟨hash, known, present⟩
      intro empty
      rw [lookup, Sweep.hashOf, known] at empty
      rw [show hash = "" from empty] at present
      cases present
  | shortChannelId =>
    simp only [isNeeded, Channel.needsShortChannelId, Bool.and_eq_true,
      Bool.not_eq_true'] at needed
    intro empty
    have present := needed.2
    rw [show channel.fundingHash = "" from empty] at present
    cases present

/-! ## Answers that make no difference -/

/-- An inquiry is the same for a channel in two states. -/
structure SameFor (inquiry : Inquiry) (channel other : Channel) : Prop where
  id : other.id = channel.id
  isNeeded : inquiry.isNeeded other = inquiry.isNeeded channel
  lookup : inquiry.lookup other = inquiry.lookup channel

variable {inquiry other : Inquiry} {channel held third : Channel}

theorem SameFor.refl (inquiry : Inquiry) (channel : Channel) : inquiry.SameFor channel channel :=
  ⟨rfl, rfl, rfl⟩

theorem SameFor.trans (first : inquiry.SameFor channel held)
    (second : inquiry.SameFor held third) : inquiry.SameFor channel third where
  id := second.id.trans first.id
  isNeeded := second.isNeeded.trans first.isNeeded
  lookup := second.lookup.trans first.lookup

theorem sameFor_applyConfirmation {transaction : ChannelTransaction}
    (different : other ≠ .details transaction) (channel : Channel) (confirmation : Confirmation) :
    other.SameFor channel (channel.applyConfirmation transaction confirmation) := by
  cases other with
  | details asked =>
    cases asked <;> cases transaction
    · exact absurd rfl different
    · exact ⟨rfl, rfl, rfl⟩
    · exact ⟨rfl, rfl, rfl⟩
    · exact absurd rfl different
  | shortChannelId => cases transaction <;> exact ⟨rfl, rfl, rfl⟩

theorem sameFor_named (different : other ≠ .shortChannelId) (channel : Channel)
    (id : ShortChannelId) : other.SameFor channel (channel.named id) := by
  cases other with
  | details asked => cases asked <;> exact ⟨rfl, rfl, rfl⟩
  | shortChannelId => exact absurd rfl different

variable {α : Type} {now : Timestamp} {summary : SweepSummary}

/-- A question can be asked for the channel as it was listed, if what follows only depends on the
counts and on what other inquiries need. -/
theorem take_bind_congr (same : inquiry.SameFor channel held)
    {next : Channel × SweepSummary → Program sweepCalls α}
    (last : SweepSummary → Program sweepCalls α)
    (agree : ∀ left summary, (∀ other ≠ inquiry, other.SameFor held left) →
      next (left, summary) = last summary) :
    inquiry.take now held summary >>= next =
      inquiry.take now channel summary >>= fun taken => last taken.2 := by
  have unchanged := fun summary => agree held summary fun other _ => .refl other held
  cases inquiry with
  | details transaction =>
    have hash : Sweep.hashOf held transaction = Sweep.hashOf channel transaction :=
      Lookup.details.inj same.lookup
    rw [take, Sweep.lookUpDetails_eq_call, Sweep.lookUpDetails_eq_call, hash, same.id]
    refine congrArg (Program.call _) (funext fun answer => ?_)
    cases answer with
    | error cause => exact unchanged _
    | ok details =>
      dsimp only
      split
      · refine congrArg (Program.call _) (funext fun written => ?_)
        cases written with
        | error cause => exact unchanged _
        | ok _ =>
          exact agree _ _ fun other different => sameFor_applyConfirmation different held _
      · exact unchanged _
  | shortChannelId =>
    rcases Lookup.shortChannelId.inj same.lookup with ⟨hash, output⟩
    rw [take, Sweep.lookUpShortId_eq_call, Sweep.lookUpShortId_eq_call, hash, output, same.id]
    refine congrArg (Program.call _) (funext fun answer => ?_)
    rcases answer with cause | (_ | id)
    · exact unchanged _
    · exact unchanged _
    · refine congrArg (Program.call _) (funext fun written => ?_)
      cases written with
      | error cause => exact unchanged _
      | ok _ => exact agree _ _ fun other different => sameFor_named different held id

end Inquiry

/-- What a sweep asks for a channel that it has listed. -/
def Channel.inquiries (channel : Channel) : List (Channel × Inquiry) :=
  (Inquiry.order.filter (Inquiry.isNeeded channel)).map (Prod.mk channel)

namespace Sweep

variable {now : Timestamp} {channel held : Channel} {summary : SweepSummary}

/-- Makes inquiries one after the other, with a pause after each.  Yields whether the last pause
was not cancelled. -/
def follow (now : Timestamp) :
    List (Channel × Inquiry) → SweepSummary → Program sweepCalls (Bool × SweepSummary)
  | [], summary => return (true, summary)
  | (channel, inquiry) :: inquiries, summary => do
    let (_, summary) ← inquiry.take now channel summary
    let goesOn ← Program.request (I := sweepCalls) .pause
    if goesOn then follow now inquiries summary else return (false, summary)

/-- The pause after an inquiry, and the inquiries after it. -/
def followOn (now : Timestamp) (inquiries : List (Channel × Inquiry)) (summary : SweepSummary) :
    Program sweepCalls (Bool × SweepSummary) :=
  Program.request (I := sweepCalls) .pause >>= fun goesOn =>
    if goesOn then follow now inquiries summary else pure (false, summary)

theorem follow_cons (inquiry : Inquiry) (inquiries : List (Channel × Inquiry)) :
    follow now ((channel, inquiry) :: inquiries) summary =
      inquiry.take now channel summary >>= fun taken => followOn now inquiries taken.2 :=
  rfl

/-- The steps of a sweep for one channel, each on the channel as the one before has left it. -/
def steps (now : Timestamp) :
    List Inquiry → Channel → SweepSummary → Program sweepCalls (Bool × SweepSummary)
  | [], _, summary => return (true, summary)
  | inquiry :: inquiries, channel, summary => do
    let (goesOn, channel, summary) ←
      stepIf (fun channel => inquiry.isNeeded channel) (inquiry.take now) channel summary
    if goesOn then steps now inquiries channel summary else return (false, summary)

theorem sweepChannel_eq_steps (now : Timestamp) (channel : Channel) (summary : SweepSummary) :
    sweepChannel now channel summary = steps now Inquiry.order channel summary := by
  refine bind_congr fun stepped => ?_
  rcases stepped with ⟨goesOn, channel, summary⟩
  cases goesOn with
  | false => rfl
  | true =>
    refine bind_congr fun stepped => ?_
    rcases stepped with ⟨goesOn, channel, summary⟩
    cases goesOn with
    | false => rfl
    | true =>
      refine bind_congr fun stepped => ?_
      rcases stepped with ⟨goesOn, channel, summary⟩
      cases goesOn <;> rfl

/-- A step that is not needed does nothing. -/
theorem steps_of_needless {inquiry : Inquiry} {inquiries : List Inquiry}
    (needless : inquiry.isNeeded channel = false) :
    steps now (inquiry :: inquiries) channel summary = steps now inquiries channel summary := by
  rw [steps, stepIf, if_neg (by simp [needless])]
  rfl

theorem steps_of_needed {inquiry : Inquiry} {inquiries : List Inquiry}
    (needed : inquiry.isNeeded channel = true) :
    steps now (inquiry :: inquiries) channel summary =
      inquiry.take now channel summary >>= fun taken =>
        Program.request (I := sweepCalls) .pause >>= fun goesOn =>
          if goesOn then steps now inquiries taken.1 taken.2 else pure (false, taken.2) := by
  rw [steps, stepIf, if_pos needed, Program.bind_assoc]
  rfl

/-- The steps make the inquiries that the channel as it was listed needs. -/
theorem steps_eq_follow (inquiries : List Inquiry) (distinct : inquiries.Nodup)
    (same : ∀ inquiry ∈ inquiries, inquiry.SameFor channel held) (summary : SweepSummary) :
    steps now inquiries held summary =
      follow now ((inquiries.filter (Inquiry.isNeeded channel)).map (Prod.mk channel)) summary := by
  induction inquiries generalizing held summary with
  | nil => rfl
  | cons inquiry inquiries ih =>
    rcases List.nodup_cons.mp distinct with ⟨first, others⟩
    rcases List.forall_mem_cons.mp same with ⟨sameFirst, sameOthers⟩
    cases needed : inquiry.isNeeded channel with
    | false =>
      rw [steps_of_needless (sameFirst.isNeeded.trans needed),
        List.filter_cons_of_neg (by simp [needed]), ih others sameOthers]
    | true =>
      rw [steps_of_needed (sameFirst.isNeeded.trans needed), List.filter_cons_of_pos needed,
        List.map_cons, follow_cons]
      refine Inquiry.take_bind_congr sameFirst (followOn now _) fun left summary kept => ?_
      refine bind_congr fun goesOn => ?_
      rw [ih others]
      intro other member
      have different : other ≠ inquiry := fun equal => first (equal ▸ member)
      exact (sameOthers other member).trans (kept other different)

theorem sweepChannel_eq_follow (now : Timestamp) (channel : Channel) (summary : SweepSummary) :
    sweepChannel now channel summary = follow now channel.inquiries summary := by
  rw [sweepChannel_eq_steps]
  exact steps_eq_follow Inquiry.order (by decide) (fun _ _ => .refl _ channel) summary

theorem follow_append (first second : List (Channel × Inquiry)) (summary : SweepSummary) :
    follow now (first ++ second) summary = follow now first summary >>= fun followed =>
      if followed.1 then follow now second followed.2 else pure (false, followed.2) := by
  induction first generalizing summary with
  | nil => rfl
  | cons inquiry first ih =>
    rw [List.cons_append, follow_cons, follow_cons, Program.bind_assoc]
    refine bind_congr fun taken => ?_
    rw [followOn, followOn, Program.bind_assoc]
    refine bind_congr fun goesOn => ?_
    cases goesOn with
    | false => rfl
    | true => exact ih taken.2

/-- The inquiries of a sweep are those of its channels, one channel after the other. -/
theorem sweepChannels_eq_follow (now : Timestamp) (channels : List Channel)
    (summary : SweepSummary) :
    sweepChannels now channels summary =
      follow now (channels.flatMap Channel.inquiries) summary >>= fun followed =>
        pure followed.2 := by
  induction channels generalizing summary with
  | nil => rfl
  | cons channel channels ih =>
    rw [sweepChannels, List.flatMap_cons, follow_append, sweepChannel_eq_follow,
      Program.bind_assoc]
    refine bind_congr fun followed => ?_
    rcases followed with ⟨goesOn, summary⟩
    cases goesOn with
    | false => rfl
    | true => exact ih summary

end Sweep

end NodeSteward
