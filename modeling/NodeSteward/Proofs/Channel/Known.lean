import Mathlib.Data.List.Nodup
import NodeSteward.Proofs.Channel.Jobs
import NodeSteward.Proofs.Channel.Sweeping

/-!
# What a sweep may forget

A sweep asks for a transaction again as long as one of its three columns is not known, and what it
is told then replaces all three.  The height is always told, the instants are not.  So a sweep
forgets an instant if and only if it records a confirmation without it, and nothing else: each
transaction of a channel is recorded at most once in a sweep, so that nothing makes up for it.
-/

namespace NodeSteward

variable {σ ν : Type}

namespace Channel

/-- The height at which a transaction was confirmed. -/
def height (channel : Channel) : ChannelTransaction → Option Int
  | .funding => channel.fundingHeight
  | .closing => channel.closingHeight

/-- When a transaction was made. -/
def transactionOn (channel : Channel) : ChannelTransaction → Option Timestamp
  | .funding => channel.fundingTransactionOn
  | .closing => channel.closingTransactionOn

/-- When a transaction was confirmed. -/
def confirmedOn (channel : Channel) : ChannelTransaction → Option Timestamp
  | .funding => channel.fundedOn
  | .closing => channel.closedOn

/-- Whatever was known of the transactions and of the short identifier of a channel still is. -/
structure KeepsKnown (channel held : Channel) : Prop where
  height : ∀ transaction, (channel.height transaction).isSome → (held.height transaction).isSome
  transactionOn : ∀ transaction, (channel.transactionOn transaction).isSome →
    (held.transactionOn transaction).isSome
  confirmedOn : ∀ transaction, (channel.confirmedOn transaction).isSome →
    (held.confirmedOn transaction).isSome
  shortChannelId : channel.shortChannelId.isSome → held.shortChannelId.isSome

/-- A confirmation tells every instant of a transaction that is known for a channel. -/
structure IsCoveredBy (channel : Channel) (transaction : ChannelTransaction)
    (confirmation : Confirmation) : Prop where
  transactionOn : (channel.transactionOn transaction).isSome → confirmation.transactionOn.isSome
  confirmedOn : (channel.confirmedOn transaction).isSome → confirmation.confirmedOn.isSome

/-- The channel after a confirmation was recorded. -/
def confirmed (now : Timestamp) (transaction : ChannelTransaction) (confirmation : Confirmation)
    (channel : Channel) : Channel :=
  { channel.applyConfirmation transaction confirmation with updatedOn := now }

/-- What an exchange of a sweep makes of a channel, by what it has recorded. -/
inductive Swept (recorded? : Option (ChannelId × ChannelTransaction × Confirmation))
    (channel : Channel) : Channel → Prop
  | same : Swept recorded? channel channel
  | named (now : Timestamp) (shortId : ShortChannelId) :
    Swept recorded? channel { channel.named shortId with updatedOn := now }
  | confirmed (now : Timestamp) (transaction : ChannelTransaction) (confirmation : Confirmation)
    (told : recorded? = some (channel.id, transaction, confirmation)) :
    Swept recorded? channel (channel.confirmed now transaction confirmation)

variable {channel held : Channel} {now : Timestamp} {transaction : ChannelTransaction}
  {confirmation : Confirmation}

theorem KeepsKnown.refl (channel : Channel) : channel.KeepsKnown channel :=
  ⟨fun _ known => known, fun _ known => known, fun _ known => known, fun known => known⟩

@[simp]
theorem height_confirmed (other : ChannelTransaction) :
    (channel.confirmed now transaction confirmation).height other =
      if other = transaction then some confirmation.blockHeight else channel.height other := by
  cases transaction <;> cases other <;> rfl

@[simp]
theorem transactionOn_confirmed (other : ChannelTransaction) :
    (channel.confirmed now transaction confirmation).transactionOn other =
      if other = transaction then confirmation.transactionOn else channel.transactionOn other := by
  cases transaction <;> cases other <;> rfl

@[simp]
theorem confirmedOn_confirmed (other : ChannelTransaction) :
    (channel.confirmed now transaction confirmation).confirmedOn other =
      if other = transaction then confirmation.confirmedOn else channel.confirmedOn other := by
  cases transaction <;> cases other <;> rfl

theorem KeepsKnown.confirmed (keeps : channel.KeepsKnown held)
    (covered : channel.IsCoveredBy transaction confirmation) :
    channel.KeepsKnown (held.confirmed now transaction confirmation) where
  height other known := by
    rw [height_confirmed]
    split
    · rfl
    · exact keeps.height other known
  transactionOn other known := by
    rw [transactionOn_confirmed]
    split
    · rename_i same
      exact covered.transactionOn (same ▸ known)
    · exact keeps.transactionOn other known
  confirmedOn other known := by
    rw [confirmedOn_confirmed]
    split
    · rename_i same
      exact covered.confirmedOn (same ▸ known)
    · exact keeps.confirmedOn other known
  shortChannelId known := by
    have same : (held.confirmed now transaction confirmation).shortChannelId =
        held.shortChannelId := by
      cases transaction <;> rfl
    rw [same]
    exact keeps.shortChannelId known

theorem KeepsKnown.named (keeps : channel.KeepsKnown held) (id : ShortChannelId) :
    channel.KeepsKnown { held.named id with updatedOn := now } where
  height other known := by
    cases other <;> exact keeps.height _ known
  transactionOn other known := by
    cases other <;> exact keeps.transactionOn _ known
  confirmedOn other known := by
    cases other <;> exact keeps.confirmedOn _ known
  shortChannelId _ := rfl

/-- The instants that are known of a transaction are those of a confirmation. -/
structure IsTold (transaction : ChannelTransaction) (confirmation : Confirmation)
    (channel : Channel) : Prop where
  transactionOn : channel.transactionOn transaction = confirmation.transactionOn
  confirmedOn : channel.confirmedOn transaction = confirmation.confirmedOn

theorem isTold_confirmed :
    (channel.confirmed now transaction confirmation).IsTold transaction confirmation := by
  constructor
  · rw [transactionOn_confirmed, if_pos rfl]
  · rw [confirmedOn_confirmed, if_pos rfl]

/-- The instants of a transaction stay until a confirmation of it is recorded. -/
theorem IsTold.swept {recorded? : Option (ChannelId × ChannelTransaction × Confirmation)}
    (told : channel.IsTold transaction confirmation)
    (other : ∀ another, recorded? ≠ some (channel.id, transaction, another))
    (swept : channel.Swept recorded? held) : held.IsTold transaction confirmation := by
  cases swept with
  | same => exact told
  | named now shortId =>
    constructor
    · rw [← told.transactionOn]
      cases transaction <;> rfl
    · rw [← told.confirmedOn]
      cases transaction <;> rfl
  | confirmed now changed another recorded =>
    have different : transaction ≠ changed := by
      rintro rfl
      exact other another recorded
    constructor
    · rw [transactionOn_confirmed, if_neg different]
      exact told.transactionOn
    · rw [confirmedOn_confirmed, if_neg different]
      exact told.confirmedOn

end Channel

/-! ## What a sweep records -/

/-- The channel, the transaction and the confirmation that an exchange has recorded. -/
def Exchange.recorded? : Exchange sweepCalls σ →
    Option (ChannelId × ChannelTransaction × Confirmation)
  | ⟨.store (.recordConfirmation _ id transaction confirmation), .ok _, _⟩ =>
    some (id, transaction, confirmation)
  | _ => none

namespace Passage

variable {handler : Handler sweepCalls σ} {now : Timestamp} {id : ChannelId}
  {transaction : ChannelTransaction} {confirmation : Confirmation} {before : σ}

theorem recorded?_through
    (answered : (handler (.store (.recordConfirmation now id transaction confirmation)) before).1 =
      .ok ()) :
    (through handler (.store (.recordConfirmation now id transaction confirmation))
      before).recorded? = some (id, transaction, confirmation) := by
  simp only [through, answered, Exchange.recorded?]

theorem through_of_recorded? {request : SweepCall}
    (recorded : (through handler request before).recorded? =
      some (id, transaction, confirmation)) :
    ∃ now, request = .store (.recordConfirmation now id transaction confirmation) ∧
      (handler (.store (.recordConfirmation now id transaction confirmation)) before).1 =
        .ok () := by
  cases request with
  | store request =>
    cases request with
    | recordConfirmation now named told what =>
      cases answered : (handler (.store (.recordConfirmation now named told what)) before).1 with
      | ok value =>
        rw [recorded?_through answered] at recorded
        cases recorded
        exact ⟨now, rfl, answered⟩
      | error error =>
        simp only [through, answered, Exchange.recorded?] at recorded
        cases recorded
    | _ => cases recorded
  | _ => cases recorded

end Passage

/-- Recording a confirmation fails and changes nothing, or changes the one channel. -/
theorem ChannelStore.recordConfirmation_cases (store : ChannelStore) (now : Timestamp)
    (id : ChannelId) (transaction : ChannelTransaction) (confirmation : Confirmation) :
    ((∃ error, (store.recordConfirmation now id transaction confirmation).1 = .error error) ∧
        (store.recordConfirmation now id transaction confirmation).2 = store) ∨
      ((store.recordConfirmation now id transaction confirmation).1 = .ok () ∧
        (∃ channel ∈ store.channels.rows, channel.id = id) ∧
        ∀ held, held ∈ (store.recordConfirmation now id transaction confirmation).2.channels.rows ↔
          ∃ channel ∈ store.channels.rows,
            (if channel.id = id then channel.confirmed now transaction confirmation
              else channel) = held) := by
  unfold recordConfirmation
  split
  · exact Or.inl ⟨⟨_, rfl⟩, rfl⟩
  · split
    · rename_i stored
      refine Or.inr ⟨rfl, Table.contains_iff.mp stored, fun held => ?_⟩
      exact Table.mem_rows_modify fun channel => by cases transaction <;> rfl
    · exact Or.inl ⟨⟨_, rfl⟩, rfl⟩

namespace Surroundings

variable {surroundings : Surroundings ν} {clock : Timestamp} {node : NodeSettings}
  {start : Situation ν} {passage : Passage sweepCalls (Situation ν)}

/-- A call fails and changes nothing, or the store answers it. -/
theorem handler_store_cases (surroundings : Surroundings ν) (request : ChannelCall)
    (situation : Situation ν) :
    ((∃ error, (surroundings.handler (.store request) situation).1 = .error error) ∧
        (surroundings.handler (.store request) situation).2.store = situation.store) ∨
      ((surroundings.handler (.store request) situation).1 =
          (ChannelStore.handler request situation.store).1 ∧
        (surroundings.handler (.store request) situation).2.store =
          (ChannelStore.handler request situation.store).2) := by
  cases failed : (surroundings.failure request situation.rest).1 with
  | none => exact Or.inr (handler_store_of_none failed)
  | some error =>
    have answered := handler_store_of_failure failed
    exact Or.inl ⟨⟨error, answered.1⟩, answered.2⟩

/-- A call leaves the store as it was, or the store answers it. -/
theorem unchanged_or_answered (surroundings : Surroundings ν) (request : SweepCall)
    (situation : Situation ν) :
    (surroundings.handler request situation).2.store = situation.store ∨
      ∃ asked, request = .store asked ∧
        (surroundings.handler (.store asked) situation).1 =
          (ChannelStore.handler asked situation.store).1 ∧
        (surroundings.handler (.store asked) situation).2.store =
          (ChannelStore.handler asked situation.store).2 := by
  cases request with
  | store asked =>
    rcases surroundings.handler_store_cases asked situation with ⟨_, same⟩ | answered
    · exact Or.inl same
    · exact Or.inr ⟨asked, rfl, answered⟩
  | pause =>
    left
    rw [handler_pause, pause]
    split
    · rfl
    · split <;> rfl
  | _ => exact Or.inl rfl

theorem sound_handler (request : SweepCall) {situation : Situation ν}
    (sound : situation.store.Sound) :
    (surroundings.handler request situation).2.store.Sound := by
  rcases surroundings.unchanged_or_answered request situation with
    same | ⟨asked, rfl, _, left⟩
  · rw [same]
    exact sound
  · rw [left]
    exact sound.of_handler asked

/-- The list is read as it is, or not at all. -/
theorem listed_eq {channels : List Channel}
    (listed : (surroundings.handler (.store .listChannels) start).1 = .ok channels) :
    channels = start.store.channels.rows := by
  rcases surroundings.handler_store_cases .listChannels start with
    ⟨⟨error, failed⟩, _⟩ | ⟨answered, _⟩
  · rw [failed] at listed
    cases listed
  · rw [answered] at listed
    exact (Except.ok.inj listed).symm

/-- The calls of a sweep are those that its list allows. -/
theorem sweeps_of_mem_passages
    (made : passage ∈ (Sweep.run clock node).passages surroundings.handler start) :
    passage.request.Sweeps start.store := by
  by_cases mainnet : node.isBitcoinMainnet = true
  · rw [Sweep.run_eq_call mainnet] at made
    rcases List.mem_cons.mp made with rfl | later
    · exact trivial
    · dsimp only at later
      split at later
      · exact absurd later List.not_mem_nil
      · rename_i channels listed
        have rows := listed_eq listed
        refine Program.Only.of_mem_passages (.bind ?_ fun _ => .done _) later
        refine Sweep.only_sweepChannels clock channels _ fun channel member => ?_
        exact rows ▸ member
  · rw [Sweep.run_of_not_mainnet mainnet] at made
    exact absurd made List.not_mem_nil

/-- Every exchange of a sweep leaves a channel as it is, names it or records a confirmation. -/
theorem each_handler {request : SweepCall} {known : ChannelStore} {situation : Situation ν}
    (sweeps : request.Sweeps known) (sound : situation.store.Sound) :
    situation.store.Each
      (Channel.Swept (Passage.through surroundings.handler request situation).recorded?)
      (surroundings.handler request situation).2.store := by
  rcases surroundings.unchanged_or_answered request situation with
    same | ⟨asked, rfl, answered, left⟩
  · rw [same]
    exact .refl _ fun _ => .same
  · rw [left]
    cases asked with
    | listChannels => exact .refl _ fun _ => .same
    | setShortChannelId now id shortId =>
      refine ((ChannelStore.handler_changes _ _).each sound).mono ?_
      rintro channel held (rfl | rewrites)
      · exact .same
      · cases rewrites
        exact .named now shortId
    | recordConfirmation now id transaction confirmation =>
      rcases situation.store.recordConfirmation_cases now id transaction confirmation with
        ⟨_, same⟩ | ⟨recorded, _, rows⟩
      · rw [ChannelStore.handler, same]
        exact .refl _ fun _ => .same
      · intro channel member
        refine ⟨_, (rows _).mpr ⟨channel, member, rfl⟩, ?_⟩
        split
        · rename_i named
          subst named
          refine ⟨by cases transaction <;> rfl, .confirmed now transaction confirmation ?_⟩
          exact Passage.recorded?_through (answered.trans recorded)
        · exact ⟨rfl, .same⟩
    | _ => exact sweeps.elim

/-- A confirmation that was recorded is what is known of the transaction then. -/
theorem exists_confirmed {request : SweepCall} {situation : Situation ν} {id : ChannelId}
    {transaction : ChannelTransaction} {confirmation : Confirmation}
    (recorded : (Passage.through surroundings.handler request situation).recorded? =
      some (id, transaction, confirmation)) :
    ∃ held ∈ (surroundings.handler request situation).2.store.channels.rows, held.id = id ∧
      held.IsTold transaction confirmation := by
  rcases Passage.through_of_recorded? recorded with ⟨now, rfl, answered⟩
  rcases surroundings.handler_store_cases (.recordConfirmation now id transaction confirmation)
    situation with ⟨⟨error, failed⟩, _⟩ | ⟨same, left⟩
  · rw [failed] at answered
    cases answered
  · rw [left]
    rcases situation.store.recordConfirmation_cases now id transaction confirmation with
      ⟨⟨error, failed⟩, _⟩ | ⟨_, ⟨channel, member, named⟩, rows⟩
    · rw [same] at answered
      rw [ChannelStore.handler, failed] at answered
      cases answered
    · refine ⟨_, (rows _).mpr ⟨channel, member, if_pos named⟩, ?_, Channel.isTold_confirmed⟩
      rw [← named]
      cases transaction <;> rfl

end Surroundings

/-! ## No transaction is recorded twice -/

/-- The channel and the transaction whose confirmation an exchange has recorded. -/
def Exchange.subject? (exchange : Exchange sweepCalls σ) :
    Option (ChannelId × ChannelTransaction) :=
  exchange.recorded?.map fun told => (told.1, told.2.1)

/-- The channel and the transaction that an inquiry is about. -/
def Inquiry.subject? : Channel × Inquiry → Option (ChannelId × ChannelTransaction)
  | (channel, .details transaction) => some (channel.id, transaction)
  | (_, .shortChannelId) => none

namespace Exchange

variable {exchange : Exchange sweepCalls σ}

theorem subject?_of_ne (other : ∀ asked, exchange.request ≠ .store asked) :
    exchange.subject? = none := by
  rcases exchange with ⟨request, answer, state⟩
  cases request with
  | store asked => exact absurd rfl (other asked)
  | _ => rfl

theorem subject?_of_recordConfirmation {now : Timestamp} {id : ChannelId}
    {transaction : ChannelTransaction} {confirmation : Confirmation}
    (asked : exchange.request = .store (.recordConfirmation now id transaction confirmation)) :
    exchange.subject? = none ∨ exchange.subject? = some (id, transaction) := by
  rcases exchange with ⟨request, answer, state⟩
  cases asked
  cases answer with
  | error error => exact Or.inl rfl
  | ok value => exact Or.inr rfl

theorem subject?_of_setShortChannelId {now : Timestamp} {id : ChannelId}
    {shortId : ShortChannelId}
    (asked : exchange.request = .store (.setShortChannelId now id shortId)) :
    exchange.subject? = none := by
  rcases exchange with ⟨request, answer, state⟩
  cases asked
  rfl

end Exchange

namespace Inquiry

variable {now : Timestamp} {channel : Channel} {answered : Exchange sweepCalls σ}
  {written : ChannelCall}

theorem write?_details {transaction : ChannelTransaction}
    (writes : (Inquiry.details transaction).write? now channel answered = some written) :
    ∃ confirmation, written = .recordConfirmation now channel.id transaction confirmation := by
  unfold write? at writes
  split at writes
  · rename_i asked _ found _ same
    cases same
    split at writes
    · exact ⟨_, (Option.some_inj.mp writes).symm⟩
    · cases writes
  · rename_i same
    cases same
  · cases writes

theorem write?_shortChannelId
    (writes : Inquiry.shortChannelId.write? now channel answered = some written) :
    ∃ shortId, written = .setShortChannelId now channel.id shortId := by
  unfold write? at writes
  split at writes
  · rename_i same
    cases same
  · exact ⟨_, (Option.some_inj.mp writes).symm⟩
  · cases writes

end Inquiry

namespace Round

variable {now : Timestamp} {inquiry : Channel × Inquiry} {round : Round σ}

/-- A round records nothing but the subject of its inquiry, and that at most once. -/
theorem subjects_sublist (serves : round.Serves now inquiry) :
    List.Sublist (round.passages.filterMap fun passage => passage.subject?)
      (Inquiry.subject? inquiry).toList := by
  have asks : round.question.subject? = none := by
    refine Exchange.subject?_of_ne fun asked same => ?_
    rw [serves.asks] at same
    exact Lookup.call_ne_store _ asked same
  have pauses : round.pause.subject? = none := by
    refine Exchange.subject?_of_ne fun asked same => ?_
    rw [serves.pauses] at same
    cases same
  have writes := serves.writes
  simp only [passages, List.filterMap_cons, asks, List.filterMap_append, pauses,
    List.filterMap_nil, List.append_nil]
  cases written : round.write? with
  | none => exact List.nil_sublist _
  | some write =>
    rw [written, Option.map_some, eq_comm, Option.map_eq_some_iff] at writes
    rcases writes with ⟨call, calls, asked⟩
    rw [Option.toList_some, List.filterMap_cons, List.filterMap_nil]
    rcases inquiry with ⟨channel, transaction | _⟩
    · rcases Inquiry.write?_details calls with ⟨confirmation, rfl⟩
      rcases Exchange.subject?_of_recordConfirmation asked.symm with none | some
      · rw [none]
        exact List.nil_sublist _
      · rw [some]
        exact List.Sublist.refl _
    · rcases Inquiry.write?_shortChannelId calls with ⟨shortId, rfl⟩
      rw [Exchange.subject?_of_setShortChannelId asked.symm]
      exact List.nil_sublist _

theorem subjects_sublist_of_serves {taken : List (Channel × Inquiry)} {rounds : List (Round σ)}
    (serve : List.Forall₂ (Serves now) taken rounds) :
    List.Sublist ((rounds.flatMap passages).filterMap fun passage => passage.subject?)
      (taken.filterMap Inquiry.subject?) := by
  induction serve with
  | nil => exact List.Sublist.refl _
  | @cons inquiry round taken rounds first _ ih =>
    rw [List.flatMap_cons, List.filterMap_append, ← List.singleton_append, List.filterMap_append]
    refine List.Sublist.append ?_ ih
    have own := subjects_sublist first
    cases subject : Inquiry.subject? inquiry with
    | none =>
      rw [subject] at own
      rw [List.filterMap_cons_none subject]
      exact own
    | some about =>
      rw [subject] at own
      rw [List.filterMap_cons_some subject]
      exact own

end Round

/-- What an inquiry is about, whatever is known of the channel. -/
def Inquiry.key (inquiry : Channel × Inquiry) : ChannelId × Inquiry :=
  (inquiry.1.id, inquiry.2)

/-- A sweep never asks the same twice for a channel. -/
theorem ChannelStore.nodup_keys (store : ChannelStore) :
    (store.inquiries.map Inquiry.key).Nodup := by
  rw [inquiries, List.map_flatMap]
  refine List.nodup_flatMap.mpr ⟨fun channel _ => ?_, ?_⟩
  · rw [Channel.inquiries, List.map_map]
    refine List.Nodup.map (fun first second same => (Prod.mk.inj same).2) (List.Nodup.filter _ ?_)
    decide
  · refine store.channels.ascending.imp fun {earlier later} before => ?_
    intro key first second
    rcases List.mem_map.mp first with ⟨one, asked, rfl⟩
    rcases List.mem_map.mp second with ⟨other, again, same⟩
    rcases List.mem_map.mp asked with ⟨_, _, rfl⟩
    rcases List.mem_map.mp again with ⟨_, _, rfl⟩
    exact Int.ne_of_lt before (congrArg Id.raw (Prod.mk.inj same).1.symm)

/-- No two inquiries of a sweep are about the same transaction of the same channel. -/
theorem ChannelStore.nodup_subjects (store : ChannelStore) :
    (store.inquiries.filterMap Inquiry.subject?).Nodup := by
  have distinct := List.pairwise_map.mp store.nodup_keys
  refine List.pairwise_filterMap.mpr (distinct.imp ?_)
  intro first second different subject about other again same
  apply different
  rcases first with ⟨first, transaction | _⟩
  · rcases second with ⟨second, later | _⟩
    · rw [← same, ← about] at again
      rcases Prod.mk.inj (Option.some.inj again) with ⟨sameId, sameTransaction⟩
      exact Prod.ext sameId.symm (congrArg Inquiry.details sameTransaction.symm)
    · cases again
  · cases about

namespace Surroundings

variable {surroundings : Surroundings ν} {clock : Timestamp} {node : NodeSettings}
  {start : Situation ν}

/-- A sweep that does not get its list makes no other call. -/
theorem passages_of_unlisted
    (unlisted : ¬ (node.isBitcoinMainnet = true ∧
      (surroundings.failure .listChannels start.rest).1 = none)) :
    ∀ passage ∈ (Sweep.run clock node).passages surroundings.handler start,
      passage = .through surroundings.handler (.store .listChannels) start := by
  intro passage made
  by_cases mainnet : node.isBitcoinMainnet = true
  · rw [Sweep.run_eq_call mainnet] at made
    rcases List.mem_cons.mp made with first | later
    · exact first
    · cases failed : (surroundings.failure .listChannels start.rest).1 with
      | none => exact absurd ⟨mainnet, failed⟩ unlisted
      | some error =>
        rw [(handler_store_of_failure failed).1] at later
        exact absurd later List.not_mem_nil
  · rw [Sweep.run_of_not_mainnet mainnet] at made
    exact absurd made List.not_mem_nil

/-- A sweep records no transaction of a channel twice. -/
theorem nodup_recorded (surroundings : Surroundings ν) (clock : Timestamp) (node : NodeSettings)
    (start : Situation ν) :
    (((Sweep.run clock node).passages surroundings.handler start).filterMap
      fun passage => passage.subject?).Nodup := by
  by_cases listed : node.isBitcoinMainnet = true ∧
      (surroundings.failure .listChannels start.rest).1 = none
  · rcases exists_conducts clock listed.1 listed.2 with ⟨rounds, conducts⟩
    rcases conducts.inOrder with ⟨taken, early, serve⟩
    rw [conducts.course]
    have few := (Round.subjects_sublist_of_serves serve).trans
      (early.sublist.filterMap Inquiry.subject?)
    exact few.nodup start.store.nodup_subjects
  · have none : ((Sweep.run clock node).passages surroundings.handler start).filterMap
        (fun passage => passage.subject?) = [] := by
      refine List.filterMap_eq_nil_iff.mpr fun passage made => ?_
      rw [passages_of_unlisted listed passage made]
      rfl
    rw [none]
    exact List.nodup_nil

theorem subject?_ne_of_parted {earlier later : List (Passage sweepCalls (Situation ν))}
    {passage : Passage sweepCalls (Situation ν)} {subject : ChannelId × ChannelTransaction}
    (parted : (Sweep.run clock node).passages surroundings.handler start =
      earlier ++ passage :: later)
    (about : passage.subject? = some subject) : ∀ other ∈ later, other.subject? ≠ some subject := by
  intro other behind again
  have once := nodup_recorded surroundings clock node start
  rw [parted, List.filterMap_append, List.filterMap_cons] at once
  simp only [about] at once
  have first := (List.nodup_cons.mp (List.nodup_append.mp once).2.1).1
  exact first (List.mem_filterMap.mpr ⟨other, behind, again⟩)

/-! ## What a sweep keeps -/

/-- Every confirmation that a sweep records tells what was known of the transaction. -/
def Covers (surroundings : Surroundings ν) (clock : Timestamp) (node : NodeSettings)
    (start : Situation ν) : Prop :=
  ∀ passage ∈ (Sweep.run clock node).passages surroundings.handler start,
    ∀ id transaction confirmation,
      passage.recorded? = some (id, transaction, confirmation) →
        ∀ channel ∈ start.store.channels.rows, channel.id = id →
          channel.IsCoveredBy transaction confirmation

theorem keepsKnown_of_covers (sound : start.store.Sound)
    (covers : surroundings.Covers clock node start) :
    start.store.Each Channel.KeepsKnown
      ((Sweep.run clock node).run surroundings.handler start).2.store := by
  suffices kept : ((Sweep.run clock node).run surroundings.handler start).2.store.Sound ∧
      start.store.Each Channel.KeepsKnown
        ((Sweep.run clock node).run surroundings.handler start).2.store from kept.2
  apply Program.holds_of_passages
    (fun later : Situation ν => later.store.Sound ∧ start.store.Each Channel.KeepsKnown later.store)
  · intro passage made holds
    have through := Program.eq_through_of_mem_passages made
    have covered := covers passage made
    have sweeps := sweeps_of_mem_passages made
    rw [through] at covered ⊢
    rcases holds with ⟨soundNow, each⟩
    refine ⟨sound_handler _ soundNow, fun channel member => ?_⟩
    rcases each channel member with ⟨middle, there, same, keeps⟩
    rcases each_handler sweeps soundNow middle there with ⟨held, present, again, swept⟩
    refine ⟨held, present, again.trans same, ?_⟩
    cases swept with
    | same => exact keeps
    | named now shortId => exact keeps.named shortId
    | confirmed now transaction confirmation told =>
      exact keeps.confirmed (covered _ _ _ told channel member same.symm)
  · exact ⟨sound, .refl _ Channel.KeepsKnown.refl⟩

/-- What a confirmation has told of a transaction stays until the end of the sweep. -/
theorem exists_confirmed_after_run (sound : start.store.Sound)
    {passage : Passage sweepCalls (Situation ν)}
    (made : passage ∈ (Sweep.run clock node).passages surroundings.handler start)
    {id : ChannelId} {transaction : ChannelTransaction} {confirmation : Confirmation}
    (recorded : passage.recorded? = some (id, transaction, confirmation)) :
    ∃ held ∈ ((Sweep.run clock node).run surroundings.handler start).2.store.channels.rows,
      held.id = id ∧ held.IsTold transaction confirmation := by
  have soundBefore := Program.holds_before_passages (fun later : Situation ν => later.store.Sound)
    (fun request _ => sound_handler request) sound passage made
  have through := Program.eq_through_of_mem_passages made
  rcases List.append_of_mem made with ⟨earlier, later, parted⟩
  rcases Program.exists_rest_of_passages parted with ⟨rest, course, ran⟩
  have subject : passage.subject? = some (id, transaction) := by
    rw [Exchange.subject?, recorded]
    rfl
  have fresh := subject?_ne_of_parted parted subject
  have sweeps : ∀ other ∈ later, other.request.Sweeps start.store := by
    intro other behind
    have whole : other ∈ (Sweep.run clock node).passages surroundings.handler start := by
      rw [parted]
      exact List.mem_append_right _ (List.mem_cons_of_mem _ behind)
    exact sweeps_of_mem_passages whole
  rw [← ran]
  apply And.right (a := ((rest.run surroundings.handler passage.state).2.store.Sound))
  apply Program.holds_of_passages (fun last : Situation ν => last.store.Sound ∧
    ∃ held ∈ last.store.channels.rows, held.id = id ∧ held.IsTold transaction confirmation)
  · intro other behind holds
    have again := Program.eq_through_of_mem_passages behind
    rw [course] at behind
    have asked := sweeps other behind
    have apart := fresh other behind
    rw [again] at apart ⊢
    rcases holds with ⟨soundNow, held, there, named, told⟩
    rcases each_handler asked soundNow held there with ⟨last, present, same, swept⟩
    refine ⟨sound_handler _ soundNow, last, present, same.trans named, told.swept ?_ swept⟩
    intro another twice
    apply apart
    rw [Exchange.subject?, twice, named]
    rfl
  · rw [through] at recorded ⊢
    exact ⟨sound_handler _ soundBefore, exists_confirmed recorded⟩

theorem covers_of_keepsKnown (sound : start.store.Sound)
    (keeps : start.store.Each Channel.KeepsKnown
      ((Sweep.run clock node).run surroundings.handler start).2.store) :
    surroundings.Covers clock node start := by
  intro passage made id transaction confirmation recorded channel member named
  rcases exists_confirmed_after_run sound made recorded with ⟨held, present, filed, told⟩
  rcases keeps channel member with ⟨other, there, same, kept⟩
  have only : other = held :=
    Table.eq_of_mem_of_idOf there present ((same.trans named).trans filed.symm)
  subst only
  constructor
  · rw [← told.transactionOn]
    exact kept.transactionOn transaction
  · rw [← told.confirmedOn]
    exact kept.confirmedOn transaction

/-- Whatever the service answers, whichever writes fail and whenever it is cancelled: a sweep
forgets nothing of any channel if and only if every confirmation that it records tells what was
known of the instants of its transaction. -/
theorem sweep_keepsKnown_iff (deeds : List ChannelDeed) (surroundings : Surroundings ν)
    (clock : Timestamp) (node : NodeSettings) (rest : ν) (now : Nat) :
    let start : Situation ν := ⟨ChannelDeed.applyAll .empty deeds, rest, now⟩
    start.store.Each Channel.KeepsKnown
        ((Sweep.run clock node).run surroundings.handler start).2.store ↔
      surroundings.Covers clock node start := by
  intro start
  have sound : start.store.Sound := .applyAll deeds
  exact ⟨covers_of_keepsKnown sound, keepsKnown_of_covers sound⟩

/-- A service that knows where every transaction was confirmed, and when it was made, but not when
it was confirmed. -/
def untimed : Surroundings Unit where
  details hash rest := (.ok ⟨hash, 700000, none, some ⟨1600000000, 500000000⟩⟩, rest)
  shortChannelId _ _ rest := (.ok none, rest)
  failure _ rest := (none, rest)
  duration _ _ := 0
  isOver _ := true
  timing := ⟨1000000, none⟩
  delay := 500000000

/-- That a channel was funded at some instant is known and forgotten, where it is asked again since
the instant of the transaction is missing. -/
theorem not_keepsKnown_untimed :
    ¬ ∀ (deeds : List ChannelDeed) (surroundings : Surroundings Unit) (clock : Timestamp)
        (node : NodeSettings) (now : Nat),
      let start : Situation Unit := ⟨ChannelDeed.applyAll .empty deeds, (), now⟩
      start.store.Each Channel.KeepsKnown
        ((Sweep.run clock node).run surroundings.handler start).2.store := by
  intro always
  let known : List ChannelDeed :=
    [.call (.ensureChannel (.ofPoint "aa:0" .open .epoch)),
      .call (.recordConfirmation .epoch ⟨1⟩ .funding ⟨700000, none, some ⟨1600000000, 0⟩⟩)]
  let start : Situation Unit := ⟨ChannelDeed.applyAll .empty known, (), 0⟩
  have held : some ⟨1600000000, 0⟩ ∈ start.store.channels.rows.map Channel.fundedOn := by
    decide +kernel
  have gone : ∀ channel ∈ ((Sweep.run .epoch .standard).run untimed.handler
      start).2.store.channels.rows, channel.fundedOn = none := by decide +kernel
  rcases List.mem_map.mp held with ⟨channel, member, funded⟩
  rcases always known untimed .epoch .standard 0 channel member with ⟨left, present, _, kept⟩
  have still := kept.confirmedOn .funding (by rw [Channel.confirmedOn, funded]; rfl)
  rw [Channel.confirmedOn, gone left present] at still
  cases still

end Surroundings

end NodeSteward
