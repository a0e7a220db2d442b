import Mathlib.Data.List.Forall2
import NodeSteward.Proofs.Channel.Inquiry

/-!
# The rounds of a sweep

A round is a question to the verification service, the write that stores its answer where there is
something to store, and a pause.  Whoever answers the calls, the course of a sweep consists of such
rounds, one for each inquiry in turn, until a pause is cancelled; and the summary counts the rounds,
those whose answer was stored and those with an error.
-/

namespace NodeSteward

variable {σ : Type}

/-- The exchange ended in an error of the service or of the store. -/
def Exchange.fails : Exchange sweepCalls σ → Bool
  | ⟨.transactionDetails _, .error _, _⟩ => true
  | ⟨.shortChannelId _ _, .error _, _⟩ => true
  | ⟨.store _, .error _, _⟩ => true
  | _ => false

/-- The write that the answer to a question calls for: the confirmation of a transaction, or the
short identifier. -/
def Inquiry.write? (now : Timestamp) (channel : Channel) (inquiry : Inquiry)
    (answered : Exchange sweepCalls σ) : Option ChannelCall :=
  match inquiry, answered with
  | .details transaction, ⟨.transactionDetails _, .ok found, _⟩ =>
    if found.isConfirmed then
      some (.recordConfirmation now channel.id transaction found.confirmation)
    else none
  | .shortChannelId, ⟨.shortChannelId _ _, .ok (some id), _⟩ =>
    some (.setShortChannelId now channel.id id)
  | _, _ => none

/-- A question of a sweep with what follows from it. -/
structure Round (σ : Type) where
  question : Passage sweepCalls σ
  write? : Option (Passage sweepCalls σ)
  pause : Passage sweepCalls σ

namespace Round

/-- The exchanges of a round in their order. -/
def passages (round : Round σ) : List (Passage sweepCalls σ) :=
  round.question :: (round.write?.toList ++ [round.pause])

theorem pause_mem_passages (round : Round σ) : round.pause ∈ round.passages :=
  List.mem_cons_of_mem _ (List.mem_append_right _ (List.mem_singleton_self _))

/-- The answer was stored. -/
def isStored (round : Round σ) : Bool :=
  round.write?.any fun write => !write.fails

/-- The question or the write ended in an error. -/
def hasFailed (round : Round σ) : Bool :=
  round.question.fails || round.write?.any fun write => write.fails

/-- A round makes an inquiry for a channel: it asks for what the channel lacks, and writes the
answer if and only if it calls for a write. -/
structure Serves (now : Timestamp) (inquiry : Channel × Inquiry) (round : Round σ) : Prop where
  asks : round.question.request = (inquiry.2.lookup inquiry.1).call
  writes : round.write?.map (fun write => write.request) =
    (inquiry.2.write? now inquiry.1 round.question.toExchange).map SweepCall.store
  pauses : round.pause.request = .pause

end Round

/-- The counts after some rounds more. -/
def SweepSummary.after (summary : SweepSummary) (rounds : List (Round σ)) : SweepSummary :=
  { summary with
    lookups := summary.lookups + rounds.length
    updated := summary.updated + rounds.countP Round.isStored
    failures := summary.failures + rounds.countP Round.hasFailed }

theorem SweepSummary.after_cons (summary : SweepSummary) (round : Round σ)
    (rounds : List (Round σ)) :
    (summary.after [round]).after rounds = summary.after (round :: rounds) := by
  simp only [after, List.length_cons, List.length_nil, List.countP_cons, List.countP_nil,
    SweepSummary.mk.injEq, true_and]
  refine ⟨?_, ?_, ?_⟩ <;> omega

namespace Inquiry

variable (handler : Handler sweepCalls σ) (now : Timestamp)

/-- The round that a handler makes of an inquiry. -/
def round (channel : Channel) (inquiry : Inquiry) (state : σ) : Round σ :=
  let question := Passage.through handler (inquiry.lookup channel).call state
  let write? := (inquiry.write? now channel question.toExchange).map fun request =>
    Passage.through handler (.store request) question.state
  { question
    write?
    pause := .through handler .pause (write?.elim question.state fun write => write.state) }

theorem round_serves (channel : Channel) (inquiry : Inquiry) (state : σ) :
    (inquiry.round handler now channel state).Serves now (channel, inquiry) where
  asks := rfl
  writes := by
    rw [round, Option.map_map]
    rfl
  pauses := rfl

/-- What every call keeps holds when the pause of a round begins. -/
theorem holds_at_pause (Holds : σ → Prop)
    (keeps : ∀ request state, Holds state → Holds (handler request state).2) (channel : Channel)
    (inquiry : Inquiry) {state : σ} (holds : Holds state) :
    Holds (inquiry.round handler now channel state).pause.before := by
  have asked := keeps (inquiry.lookup channel).call state holds
  rw [round]
  dsimp only
  cases inquiry.write? now channel
      (Passage.through handler (inquiry.lookup channel).call state).toExchange with
  | none => exact asked
  | some request => exact keeps (.store request) _ asked

/-- What the course of a question is, where it leads and how it is counted. -/
theorem take_course (channel : Channel) (inquiry : Inquiry) (summary : SweepSummary) (state : σ) :
    (inquiry.take now channel summary).passages handler state =
        (inquiry.round handler now channel state).question ::
          (inquiry.round handler now channel state).write?.toList ∧
      ((inquiry.take now channel summary).run handler state).2 =
        (inquiry.round handler now channel state).pause.before ∧
      ((inquiry.take now channel summary).run handler state).1.2 =
        summary.after [inquiry.round handler now channel state] := by
  cases inquiry with
  | details transaction =>
    rw [take, Sweep.lookUpDetails_eq_call, Program.passages, Program.run]
    simp only [round, write?, lookup, Lookup.call, Passage.through]
    cases (handler (.transactionDetails (Sweep.hashOf channel transaction)) state).1 with
    | error cause => exact ⟨rfl, rfl, rfl⟩
    | ok found =>
      dsimp only
      split
      · simp only [Program.passages, Program.run, Passage.through, Option.map_some,
          Option.elim_some]
        cases (handler (.store (.recordConfirmation now channel.id transaction found.confirmation))
          (handler (.transactionDetails (Sweep.hashOf channel transaction)) state).2).1 with
        | error cause => exact ⟨rfl, rfl, rfl⟩
        | ok _ => exact ⟨rfl, rfl, rfl⟩
      · exact ⟨rfl, rfl, rfl⟩
  | shortChannelId =>
    rw [take, Sweep.lookUpShortId_eq_call, Program.passages, Program.run]
    simp only [round, write?, lookup, Lookup.call, Passage.through]
    rcases (handler (.shortChannelId channel.fundingHash channel.fundingOutput) state).1 with
      cause | (_ | id)
    · exact ⟨rfl, rfl, rfl⟩
    · exact ⟨rfl, rfl, rfl⟩
    · simp only [Program.passages, Program.run, Passage.through, Option.map_some, Option.elim_some]
      cases (handler (.store (.setShortChannelId now channel.id id))
        (handler (.shortChannelId channel.fundingHash channel.fundingOutput) state).2).1 with
      | error cause => exact ⟨rfl, rfl, rfl⟩
      | ok _ => exact ⟨rfl, rfl, rfl⟩

end Inquiry

/-! ## All rounds -/

namespace Sweep

/-- The rounds that a handler makes of some inquiries; a cancelled pause is the end of them. -/
def rounds (handler : Handler sweepCalls σ) (now : Timestamp) :
    List (Channel × Inquiry) → σ → List (Round σ)
  | [], _ => []
  | (channel, inquiry) :: inquiries, state =>
    let round := inquiry.round handler now channel state
    round ::
      match (handler .pause round.pause.before).1 with
      | true => rounds handler now inquiries round.pause.state
      | false => []

variable {handler : Handler sweepCalls σ} {now : Timestamp} {channel : Channel} {inquiry : Inquiry}

/-- The rounds after one, unless its pause was cancelled. -/
def roundsOn (handler : Handler sweepCalls σ) (now : Timestamp)
    (inquiries : List (Channel × Inquiry)) (before : σ) : List (Round σ) :=
  match (handler .pause before).1 with
  | true => rounds handler now inquiries (handler .pause before).2
  | false => []

theorem rounds_cons (inquiries : List (Channel × Inquiry)) (state : σ) :
    rounds handler now ((channel, inquiry) :: inquiries) state =
      inquiry.round handler now channel state ::
        roundsOn handler now inquiries (inquiry.round handler now channel state).pause.before :=
  rfl

theorem pause_of_mem_rounds {inquiries : List (Channel × Inquiry)} {state : σ} {round : Round σ}
    (made : round ∈ rounds handler now inquiries state) :
    round.pause = .through handler .pause round.pause.before := by
  induction inquiries generalizing state with
  | nil => exact absurd made List.not_mem_nil
  | cons first inquiries ih =>
    rcases first with ⟨channel, inquiry⟩
    rw [rounds_cons, roundsOn] at made
    rcases List.mem_cons.mp made with rfl | later
    · rfl
    · split at later
      · exact ih later
      · exact absurd later List.not_mem_nil

/-- The course consists of the rounds that a handler makes, and the summary counts them. -/
def Course (handler : Handler sweepCalls σ) (now : Timestamp) (inquiries : List (Channel × Inquiry))
    (summary : SweepSummary) (state : σ) : Prop :=
  (follow now inquiries summary).passages handler state =
      (rounds handler now inquiries state).flatMap Round.passages ∧
    ((follow now inquiries summary).run handler state).1.2 =
      summary.after (rounds handler now inquiries state)

theorem followOn_course {inquiries : List (Channel × Inquiry)}
    (course : ∀ summary state, Course handler now inquiries summary state)
    (summary : SweepSummary) (before : σ) :
    (followOn now inquiries summary).passages handler before =
        .through handler .pause before ::
          (roundsOn handler now inquiries before).flatMap Round.passages ∧
      ((followOn now inquiries summary).run handler before).1.2 =
        summary.after (roundsOn handler now inquiries before) := by
  have paused : followOn now inquiries summary = .call (I := sweepCalls) .pause fun
      | true => follow now inquiries summary
      | false => pure (false, summary) := by
    refine congrArg (Program.call _) (funext fun goesOn => ?_)
    cases goesOn <;> rfl
  rw [paused, Program.passages, Program.run, roundsOn]
  cases (handler .pause before).1 with
  | false => exact ⟨rfl, rfl⟩
  | true =>
    rcases course summary (handler .pause before).2 with ⟨passages, count⟩
    exact ⟨congrArg _ passages, count⟩

theorem follow_course (inquiries : List (Channel × Inquiry)) (summary : SweepSummary) (state : σ) :
    Course handler now inquiries summary state := by
  induction inquiries generalizing summary state with
  | nil => exact ⟨rfl, rfl⟩
  | cons first inquiries ih =>
    rcases first with ⟨channel, inquiry⟩
    rcases inquiry.take_course handler now channel summary state with ⟨taken, left, counted⟩
    rcases followOn_course ih (summary.after [inquiry.round handler now channel state])
      (inquiry.round handler now channel state).pause.before with ⟨passages, count⟩
    constructor
    · rw [follow_cons, Program.passages_bind, taken, left, counted, passages, rounds_cons,
        List.flatMap_cons, Round.passages, List.cons_append, List.cons_append, List.append_assoc]
      rfl
    · rw [follow_cons, Program.run_bind, left, counted, count, rounds_cons,
        SweepSummary.after_cons]

/-- The rounds serve the inquiries in their order, and only a cancelled pause ends them early. -/
theorem rounds_serve (inquiries : List (Channel × Inquiry)) (state : σ) :
    ∃ taken, taken <+: inquiries ∧
      List.Forall₂ (Round.Serves now) taken (rounds handler now inquiries state) := by
  induction inquiries generalizing state with
  | nil => exact ⟨[], List.nil_prefix, .nil⟩
  | cons first inquiries ih =>
    rcases first with ⟨channel, inquiry⟩
    have serves := inquiry.round_serves handler now channel state
    rw [rounds_cons, roundsOn]
    split
    · rcases ih (handler .pause (inquiry.round handler now channel state).pause.before).2 with
        ⟨taken, early, others⟩
      exact ⟨(channel, inquiry) :: taken, List.cons_prefix_cons.mpr ⟨rfl, early⟩,
        .cons serves others⟩
    · exact ⟨[(channel, inquiry)], List.cons_prefix_cons.mpr ⟨rfl, List.nil_prefix⟩,
        .cons serves .nil⟩

/-- If no pause is cancelled, every inquiry has its round. -/
theorem rounds_serve_all {inquiries : List (Channel × Inquiry)} {state : σ}
    (goesOn : ∀ round ∈ rounds handler now inquiries state,
      (handler .pause round.pause.before).1 = true) :
    List.Forall₂ (Round.Serves now) inquiries (rounds handler now inquiries state) := by
  induction inquiries generalizing state with
  | nil => exact .nil
  | cons first inquiries ih =>
    rcases first with ⟨channel, inquiry⟩
    have paused := goesOn _ List.mem_cons_self
    rw [rounds_cons, roundsOn, paused] at goesOn ⊢
    exact .cons (inquiry.round_serves handler now channel state)
      (ih fun round made => goesOn round (List.mem_cons_of_mem _ made))

theorem run_of_not_mainnet {node : NodeSettings} (elsewhere : ¬ node.isBitcoinMainnet = true) :
    run now node = pure (.ok .zero) :=
  if_neg elsewhere

theorem run_eq_call {node : NodeSettings} (mainnet : node.isBitcoinMainnet = true) :
    run now node = .call (I := sweepCalls) (.store .listChannels) fun
      | .error error => pure (.error error)
      | .ok channels =>
        sweepChannels now channels { SweepSummary.zero with channels := channels.length } >>=
          fun summary => pure (.ok summary) := by
  rw [run, if_pos mainnet]
  refine congrArg (Program.call _) (funext fun answer => ?_)
  cases answer <;> rfl

/-- A sweep reads the list of channels and makes the rounds that it dictates. -/
theorem run_course (now : Timestamp) {node : NodeSettings} {state : σ} {channels : List Channel}
    (mainnet : node.isBitcoinMainnet = true)
    (listed : (handler (.store .listChannels) state).1 = .ok channels) :
    (run now node).passages handler state =
        .through handler (.store .listChannels) state ::
          (rounds handler now (channels.flatMap Channel.inquiries)
            (handler (.store .listChannels) state).2).flatMap Round.passages ∧
      ((run now node).run handler state).1 =
        .ok ({ SweepSummary.zero with channels := channels.length }.after
          (rounds handler now (channels.flatMap Channel.inquiries)
            (handler (.store .listChannels) state).2)) := by
  have course : Course handler now (channels.flatMap Channel.inquiries)
      { SweepSummary.zero with channels := channels.length }
      (handler (.store .listChannels) state).2 := follow_course _ _ _
  rw [run_eq_call mainnet, Program.passages, Program.run, listed]
  dsimp only
  rw [Program.passages_map, Program.run_bind, sweepChannels_eq_follow, Program.passages_map,
    Program.run_bind, course.1, course.2]
  exact ⟨rfl, rfl⟩

end Sweep

end NodeSteward
