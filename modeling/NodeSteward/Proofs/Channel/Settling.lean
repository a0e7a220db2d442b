import NodeSteward.Proofs.Channel.Jobs

/-!
# Recording an update settles the status

A report moves the status of its channel from the one that was read, and reads again where the
status is another one by then.  Whoever was faster has moved the channel on by a stage, so that
after three refusals the channel is closed and no change of status remains.

When the recording goes on to the event, there has been a moment, right after one of its own calls,
at which the channel had the status that the report asks for or could no longer come to it.  So a
change of status is never dropped just because others kept changing the status.
-/

namespace NodeSteward

/-- The exchange is a change of status that was refused because the status was another one. -/
def Exchange.isRefusal {σ : Type} : Exchange channelCalls σ → Bool
  | ⟨.changeStatus _ _ _, .ok false, _⟩ => true
  | _ => false

/-- The channel has a status, or cannot come to it. -/
def Channel.SettledFor (channel : Channel) (status : ChannelStatus) : Prop :=
  channel.status = status ∨ channel.status.canBecome status = false

theorem Channel.stage_lt_of_not_settledFor {channel : Channel} {status : ChannelStatus}
    (unsettled : ¬ channel.SettledFor status) : channel.status.stage < 3 := by
  rw [SettledFor, not_or, Bool.not_eq_false] at unsettled
  exact Nat.lt_of_lt_of_le
    (ChannelStatus.stage_lt_of_canBecome unsettled.2 (Ne.symm unsettled.1)) status.stage_le

namespace ChannelStore

variable {store : ChannelStore} {point : String}

/-- The stored channel is settled for the status in which it is wanted. -/
def Settled (store : ChannelStore) (wanted : NewChannel) : Prop :=
  ∃ channel, store.channelAt? wanted.point = some channel ∧ channel.SettledFor wanted.status

/-- A channel that was ensured is stored as the answer shows it. -/
theorem channelAt?_of_ensureChannel (sound : store.Sound) {wanted : NewChannel} {stored : Channel}
    (answered : (handler (.ensureChannel wanted) store).1 = .ok stored) :
    (handler (.ensureChannel wanted) store).2.channelAt? wanted.point = some stored := by
  refine (sound.of_handler (.ensureChannel wanted)).channelAt?_eq_some_iff.mpr ?_
  revert answered
  rw [handler, ensureChannel]
  split
  · rename_i held found
    rintro ⟨⟩
    exact point_of_channelAt? found
  · dsimp only
    split
    · split
      · nofun
      · rintro ⟨⟩
        exact ⟨Table.mem_rows_insert.mpr (Or.inl rfl), rfl⟩
    · rintro ⟨⟩
      exact ⟨Table.mem_rows_insert.mpr (Or.inl rfl), rfl⟩

variable {now : Timestamp} {change : StatusChange}

/-- A change of status that was made has written to the channel that was found. -/
theorem written_of_changeStatus (sound : store.Sound)
    (answered : (handler (.changeStatus now point change) store).1 = .ok true) :
    ∃ channel moved, store.channelAt? point = some channel ∧
      channel.applyStatusChange? change = some moved ∧
      (handler (.changeStatus now point change) store).2.channelAt? point =
        some { moved with updatedOn := now } := by
  suffices ∃ channel moved, store.channelAt? point = some channel ∧
      channel.applyStatusChange? change = some moved ∧
      { moved with updatedOn := now } ∈
        (handler (.changeStatus now point change) store).2.channels.rows by
    rcases this with ⟨channel, moved, found, applies, present⟩
    have filed := (point_of_channelAt? found).2
    have soundNow := sound.of_handler (.changeStatus now point change)
    refine ⟨channel, moved, found, applies, soundNow.channelAt?_eq_some_iff.mpr ⟨present, ?_⟩⟩
    rw [(Channel.applyStatusChange?_eq_some_iff.mp applies).2]
    exact filed
  revert answered
  rw [handler, changeStatus]
  split
  · intro answered
    cases answered
  · split
    · intro answered
      cases answered
    · rename_i channel found
      split
      · intro answered
        cases answered
      · rename_i moved applies
        intro _
        have named : moved.id = channel.id := by
          rw [(Channel.applyStatusChange?_eq_some_iff.mp applies).2]
        refine ⟨channel, moved, found, applies, ?_⟩
        dsimp only
        rw [Table.mem_rows_modify_iff]
        refine Or.inl ⟨channel, (point_of_channelAt? found).1, rfl, ?_⟩
        rw [applies, Option.getD_some, ← named]

/-- A change of status that was made has led the channel to its target. -/
theorem channelAt?_of_changeStatus (sound : store.Sound)
    (answered : (handler (.changeStatus now point change) store).1 = .ok true) :
    ∃ held, (handler (.changeStatus now point change) store).2.channelAt? point = some held ∧
      held.status = change.target := by
  rcases written_of_changeStatus sound answered with ⟨channel, moved, _, applies, there⟩
  refine ⟨_, there, ?_⟩
  rw [(Channel.applyStatusChange?_eq_some_iff.mp applies).2]

/-- A change of status is refused because the status is another one. -/
theorem changeStatus_of_refused
    (answered : (handler (.changeStatus now point change) store).1 = .ok false) :
    (handler (.changeStatus now point change) store).2 = store ∧
      ∀ channel, store.channelAt? point = some channel → channel.status ≠ change.source := by
  revert answered
  rw [handler, changeStatus]
  split
  · intro answered
    cases answered
  · split
    · rename_i missing
      refine fun _ => ⟨rfl, fun channel found => ?_⟩
      rw [missing] at found
      cases found
    · rename_i channel found
      split
      · rename_i stays
        refine fun _ => ⟨rfl, fun other again starts => ?_⟩
        rw [found, Option.some_inj] at again
        subst again
        rw [Channel.applyStatusChange?_eq_some_iff.mpr ⟨starts, rfl⟩] at stays
        cases stays
      · intro answered
        cases answered

end ChannelStore

/-- Telling facts takes no turn. -/
theorem IngestCall.storePart_publish {α β : Type} (facts : List Fact) (part : IngestProgram α)
    (rest : Except IngestError α → Program channelCalls β) :
    (IngestCall.storePart (IngestProgram.publish facts >>= fun _ => part).run >>= rest) =
      IngestCall.storePart part.run >>= rest := by
  induction facts with
  | nil => rfl
  | cons fact facts ih => exact ih

namespace ChannelJob

open IngestProgram (ask)

/-- The recording is about to insert its event. -/
def AtEvent (program : Program channelCalls ChannelOutcome) : Prop :=
  ∃ event next, program = .call (I := channelCalls) (.insertEvent event) next

/-- What is left of a recording when the status is settled. -/
def inserting (event : ChannelEvent) : Program channelCalls ChannelOutcome :=
  .call (I := channelCalls) (.insertEvent event) fun answer =>
    .done (.recorded (answer.mapError .store))

/-- What is left of a recording when it has read its channel. -/
def advancing (now : Timestamp) (wanted : NewChannel) (event : ChannelEvent) (patience : Nat)
    (stored : Channel) : Program channelCalls ChannelOutcome := do
  let result ← IngestCall.storePart
    (Channel.advance now wanted patience stored >>= fun _ => ask (.insertEvent event)).run
  return .recorded result

variable {now : Timestamp} {wanted : NewChannel} {event : ChannelEvent} {patience : Nat}
  {stored : Channel}

theorem advancing_of_settledFor (settled : stored.SettledFor wanted.status) :
    advancing now wanted event patience stored = inserting event := by
  unfold advancing Channel.advance
  rw [if_pos (by simpa [Channel.SettledFor] using settled)]
  rfl

/-- The change that moves a channel from the status that was read to the wanted one. -/
def wantedChange (wanted : NewChannel) (stored : Channel) : StatusChange where
  source := stored.status
  target := wanted.status
  closingHash := wanted.closingHash
  closingHeight := wanted.closingHeight

/-- What is left of a recording when its change of status was refused. -/
def rereading (now : Timestamp) (wanted : NewChannel) (event : ChannelEvent) (patience : Nat) :
    Program channelCalls ChannelOutcome :=
  .call (I := channelCalls) (.findChannel wanted.point) fun
    | .error cause => .done (.recorded (.error (.store cause)))
    | .ok none => inserting event
    | .ok (some channel) => advancing now wanted event patience channel

theorem advancing_of_not_settledFor (filed : stored.point = wanted.point)
    (unsettled : ¬ stored.SettledFor wanted.status) :
    advancing now wanted event (patience + 1) stored =
      .call (I := channelCalls) (.changeStatus now wanted.point (wantedChange wanted stored)) fun
        | .error cause => .done (.recorded (.error (.store cause)))
        | .ok true => inserting event
        | .ok false => rereading now wanted event patience := by
  rw [← filed, advancing, Channel.advance, if_neg (by simpa [Channel.SettledFor] using unsettled)]
  refine congrArg (Program.call _) (funext fun answer => ?_)
  rcases answer with cause | changed
  · rfl
  · cases changed with
    | true => rfl
    | false =>
      rw [filed]
      refine congrArg (Program.call _) (funext fun answer => ?_)
      rcases answer with cause | found
      · rfl
      · cases found <;> rfl

variable {update : ChannelUpdate} {imported : Bool}

theorem begin_record_of_unshown {cause : OutpointError}
    (unshown : ChannelEvent.ofUpdate update imported now = .error cause) :
    (record patience now update imported).begin = .done (.recorded (.error (.outpoint cause))) := by
  rw [begin, ChannelUpdate.record, unshown]
  rfl

theorem begin_record_of_none (shown : ChannelEvent.ofUpdate update imported now = .ok event)
    (missing : update.channel? now = none) :
    (record patience now update imported).begin = inserting event := by
  rw [begin, ChannelUpdate.record, shown]
  dsimp only
  rw [IngestCall.storePart_publish, missing]
  rfl

theorem begin_record_of_some (shown : ChannelEvent.ofUpdate update imported now = .ok event)
    (asks : update.channel? now = some wanted) :
    (record patience now update imported).begin =
      .call (I := channelCalls) (.ensureChannel wanted) fun
        | .error cause => .done (.recorded (.error (.store cause)))
        | .ok stored => advancing now wanted event patience stored := by
  rw [begin, ChannelUpdate.record, shown]
  dsimp only
  rw [IngestCall.storePart_publish, asks]
  refine congrArg (Program.call _) (funext fun answer => ?_)
  cases answer <;> rfl

/-! ## The course of a recording -/

/-- How a recording has gone from a point on at which the channel had come to a stage: by its
exchanges since then, and where it stands now. -/
structure Course (goal : Option NewChannel) (stage : Nat)
    (log : List (Exchange channelCalls ChannelStore)) (last : Program channelCalls ChannelOutcome) :
    Prop where
  refusals : log.countP Exchange.isRefusal + stage ≤ 3
  length : (log.length + 2 * stage ≤ 7 ∧ ∀ outcome, last ≠ .done outcome) ∨
    ∃ result, last = .done (.recorded result)
  failure : ∀ error, last = .done (.recorded (.error error)) →
    ∃ exchange ∈ log, ∃ cause, exchange.answer = .error cause ∧ error = .store cause
  settled : ∀ wanted, goal = some wanted → AtEvent last ∨ last = .done (.recorded (.ok ())) →
    ∃ exchange ∈ log, exchange.state.Settled wanted

namespace Course

variable {goal : Option NewChannel} {stage further : Nat}
  {log rest : List (Exchange channelCalls ChannelStore)}
  {exchange : Exchange channelCalls ChannelStore} {last : Program channelCalls ChannelOutcome}

theorem of_stage_le (course : Course goal further log last) (before : stage ≤ further) :
    Course goal stage log last where
  refusals := by
    have few := course.refusals
    omega
  length := course.length.imp (fun short => ⟨by omega, short.2⟩) id
  failure := course.failure
  settled := course.settled

/-- The recording stands at a call other than the last one. -/
theorem waiting {request : ChannelCall}
    {next : channelCalls.Answer request → Program channelCalls ChannelOutcome}
    (few : log.countP Exchange.isRefusal + stage ≤ 3) (short : log.length + 2 * stage ≤ 7)
    (other : ∀ event, request ≠ .insertEvent event) :
    Course goal stage log (.call (I := channelCalls) request next) where
  refusals := few
  length := Or.inl ⟨short, nofun⟩
  failure _ := nofun
  settled := by
    rintro _ _ (⟨event, next, same⟩ | same)
    · cases same
      exact absurd rfl (other event)
    · cases same

/-- The store has failed. -/
theorem failed (few : log.countP Exchange.isRefusal + stage ≤ 3) (made : exchange ∈ log)
    {cause : StoreError} (answered : exchange.answer = .error cause) :
    Course goal stage log (.done (.recorded (.error (.store cause)))) where
  refusals := few
  length := Or.inr ⟨_, rfl⟩
  failure error same := by
    cases same
    exact ⟨exchange, made, cause, answered, rfl⟩
  settled := by
    rintro _ _ (⟨_, _, same⟩ | same) <;> cases same

/-- The status is settled, so that only the event is left. -/
theorem of_inserting (few : log.countP Exchange.isRefusal + stage ≤ 3)
    (short : log.length + 2 * stage ≤ 7)
    (settled : ∀ wanted, goal = some wanted → ∃ exchange ∈ log, exchange.state.Settled wanted)
    {state : ChannelStore}
    (among : (inserting event).Among ChannelStore.handler ChannelStore.Forward state rest last) :
    Course goal stage (log ++ rest) last := by
  have moment : ∀ wanted, goal = some wanted →
      ∃ exchange ∈ log ++ rest, exchange.state.Settled wanted := by
    intro wanted asked
    rcases settled wanted asked with ⟨exchange, made, holds⟩
    exact ⟨exchange, List.mem_append_left _ made, holds⟩
  cases among with
  | waits =>
    rw [List.append_nil] at moment ⊢
    exact ⟨few, Or.inl ⟨short, nofun⟩, nofun, fun wanted asked _ => moment wanted asked⟩
  | @calls _ _ _ turn _ _ _ later =>
    rcases later.of_done with ⟨rfl, rfl⟩
    refine ⟨?_, Or.inr ⟨_, rfl⟩, ?_, fun wanted asked _ => moment wanted asked⟩
    · rw [List.countP_append]
      exact few
    · intro error same
      refine ⟨_, List.mem_append_right _ (List.mem_singleton_self _), ?_⟩
      dsimp only
      cases answered : (ChannelStore.handler (.insertEvent event) turn).1 with
      | ok =>
        rw [answered] at same
        cases same
      | error cause =>
        rw [answered] at same
        cases same
        exact ⟨cause, rfl, rfl⟩

/-- Before its course from a later stage on, the recording has made two exchanges, of which at most
the second was a refusal. -/
theorem before {first second : Exchange channelCalls ChannelStore}
    (course : Course goal further log last) (advanced : stage < further)
    (accepted : first.isRefusal = false) : Course goal stage (first :: second :: log) last where
  refusals := by
    have few := course.refusals
    rw [List.countP_cons_of_neg (by simp [accepted]), List.countP_cons]
    split <;> omega
  length := by
    refine course.length.imp (fun short => ⟨?_, short.2⟩) id
    simp only [List.length_cons]
    omega
  failure error same := by
    rcases course.failure error same with ⟨exchange, made, failed⟩
    exact ⟨exchange, List.mem_cons_of_mem _ (List.mem_cons_of_mem _ made), failed⟩
  settled wanted asked stands := by
    rcases course.settled wanted asked stands with ⟨exchange, made, settled⟩
    exact ⟨exchange, List.mem_cons_of_mem _ (List.mem_cons_of_mem _ made), settled⟩

end Course

variable {read : Exchange channelCalls ChannelStore} {held : Channel} {state : ChannelStore}
  {log : List (Exchange channelCalls ChannelStore)} {last : Program channelCalls ChannelOutcome}

/-- Reading again finds the channel as it was, or later in its life. -/
theorem among_rereading (sound : state.Sound)
    (present : state.channelAt? wanted.point = some held)
    (among : (rereading now wanted event patience).Among ChannelStore.handler ChannelStore.Forward
      state log last) :
    (log = [] ∧ last = rereading now wanted event patience) ∨
      ∃ read again rest, log = read :: rest ∧ read.state.Sound ∧ read.isRefusal = false ∧
        read.state.channelAt? wanted.point = some again ∧
        held.status.stage ≤ again.status.stage ∧
        (advancing now wanted event patience again).Among ChannelStore.handler
          ChannelStore.Forward read.state rest last := by
  cases among with
  | waits => exact Or.inl ⟨rfl, rfl⟩
  | @calls _ _ _ turn log _ meanwhile later =>
    rcases meanwhile.channelAt? sound present with ⟨again, there, further⟩
    have finds : (ChannelStore.handler (.findChannel wanted.point) turn).1 = .ok (some again) :=
      congrArg Except.ok there
    rw [finds] at later
    exact Or.inr ⟨_, again, log, rfl, (meanwhile sound).1, rfl, there, further.stage_le, later⟩

/-- What can follow the reading of a status that is not settled. -/
theorem among_advancing (sound : state.Sound)
    (found : state.channelAt? wanted.point = some stored)
    (unsettled : ¬ stored.SettledFor wanted.status)
    (among : (advancing now wanted event (patience + 1) stored).Among ChannelStore.handler
      ChannelStore.Forward state log last) :
    (log = [] ∧ ∃ next,
      last = .call (I := channelCalls)
        (.changeStatus now wanted.point (wantedChange wanted stored)) next) ∨
      ∃ change rest, log = change :: rest ∧
        ((∃ cause, change.answer = .error cause ∧ rest = [] ∧
            last = .done (.recorded (.error (.store cause)))) ∨
          (change.state.Settled wanted ∧
            (inserting event).Among ChannelStore.handler ChannelStore.Forward change.state rest
              last) ∨
          ∃ held, change.state.Sound ∧ change.state.channelAt? wanted.point = some held ∧
            stored.status.stage < held.status.stage ∧
            (rereading now wanted event patience).Among ChannelStore.handler
              ChannelStore.Forward change.state rest last) := by
  rw [advancing_of_not_settledFor (ChannelStore.point_of_channelAt? found).2 unsettled] at among
  cases among with
  | waits => exact Or.inl ⟨rfl, _, rfl⟩
  | @calls _ _ _ turn log _ meanwhile later =>
    have soundTurn := (meanwhile sound).1
    refine Or.inr ⟨_, log, rfl, ?_⟩
    cases answered : (ChannelStore.handler
      (.changeStatus now wanted.point (wantedChange wanted stored)) turn).1 with
    | error cause =>
      rw [answered] at later
      exact Or.inl ⟨cause, rfl, later.of_done⟩
    | ok changed =>
      rw [answered] at later
      cases changed with
      | true =>
        rcases ChannelStore.channelAt?_of_changeStatus soundTurn answered with
          ⟨moved, there, reached⟩
        exact Or.inr (Or.inl ⟨⟨moved, there, Or.inl reached⟩, later⟩)
      | false =>
        -- others have moved the channel on since it was read
        rcases ChannelStore.changeStatus_of_refused answered with ⟨unchanged, other⟩
        rcases meanwhile.channelAt? sound found with ⟨held, present, since⟩
        rw [unchanged] at later
        refine Or.inr (Or.inr ⟨held, ?_⟩)
        dsimp only
        rw [unchanged]
        exact ⟨soundTurn, present, since.status.resolve_left (other held present), later⟩

/-! ## The whole course -/

/-- A recording that reads a settled status has only the event left. -/
theorem course_of_settledFor (accepted : read.isRefusal = false)
    (found : read.state.channelAt? wanted.point = some stored)
    (settled : stored.SettledFor wanted.status)
    (among : (advancing now wanted event patience stored).Among ChannelStore.handler
      ChannelStore.Forward read.state log last) :
    Course (some wanted) stored.status.stage (read :: log) last := by
  have bound := stored.status.stage_le
  rw [advancing_of_settledFor settled] at among
  show Course (some wanted) stored.status.stage ([read] ++ log) last
  refine .of_inserting ?_ ?_ ?_ among
  · simpa [accepted] using bound
  · rw [List.length_singleton]
    omega
  · rintro _ ⟨⟩
    exact ⟨read, List.mem_singleton_self read, stored, found, settled⟩

/-- The course of a recording from where it has read its channel.  By induction on the patience:
each refusal is followed by a reading that finds the channel at a later stage. -/
theorem course_of_advancing (sound : read.state.Sound) (accepted : read.isRefusal = false)
    (found : read.state.channelAt? wanted.point = some stored)
    (patient : 3 ≤ patience + stored.status.stage)
    (among : (advancing now wanted event patience stored).Among ChannelStore.handler
      ChannelStore.Forward read.state log last) :
    Course (some wanted) stored.status.stage (read :: log) last := by
  induction patience generalizing read stored log with
  | zero =>
    refine course_of_settledFor accepted found ?_ among
    refine Classical.byContradiction fun unsettled => ?_
    have early := Channel.stage_lt_of_not_settledFor unsettled
    omega
  | succ patience ih =>
    by_cases settled : stored.SettledFor wanted.status
    · exact course_of_settledFor accepted found settled among
    · have early := Channel.stage_lt_of_not_settledFor settled
      have few : ∀ change : Exchange channelCalls ChannelStore,
          [read, change].countP Exchange.isRefusal + stored.status.stage ≤ 3 := by
        intro change
        rw [List.countP_cons_of_neg (by simp [accepted]), List.countP_singleton]
        split <;> omega
      have short : [read, read].length + 2 * stored.status.stage ≤ 7 := by
        simp only [List.length_cons, List.length_nil]
        omega
      have second : ∀ change, change ∈ [read, change] :=
        fun change => List.mem_cons_of_mem _ (List.mem_singleton_self change)
      rcases among_advancing sound found settled among with
        ⟨rfl, next, rfl⟩ | ⟨change, rest, rfl, failed | settling | refused⟩
      · exact .waiting (by simp [accepted]; omega) (by simp; omega) nofun
      · rcases failed with ⟨cause, answered, rfl, rfl⟩
        exact .failed (few change) (second change) answered
      · refine .of_inserting (few change) short ?_ settling.2
        rintro _ ⟨⟩
        exact ⟨change, second change, settling.1⟩
      · rcases refused with ⟨held, soundNow, present, advanced, later⟩
        -- the patience that the refusal takes is made up for by the later stage
        rcases among_rereading soundNow present later with
          ⟨rfl, rfl⟩ | ⟨reread, again, log, rfl, soundThen, reading, there, further, last⟩
        · exact .waiting (few change) short nofun
        · refine (ih soundThen reading there ?_ last).before ?_ accepted
          · omega
          · exact Nat.lt_of_lt_of_le advanced further

/-- The course of a recording from its beginning. -/
theorem course_of_record (sound : state.Sound)
    (shown : ChannelEvent.ofUpdate update imported now = .ok event) (patient : 3 ≤ patience)
    (among : (record patience now update imported).begin.Among ChannelStore.handler
      ChannelStore.Forward state log last) : Course (update.channel? now) 0 log last := by
  cases goal : update.channel? now with
  | none =>
    rw [begin_record_of_none shown goal] at among
    show Course none 0 ([] ++ log) last
    exact .of_inserting (Nat.zero_le 3) (Nat.zero_le 7) (fun _ asked => nomatch asked) among
  | some wanted =>
    rw [begin_record_of_some shown goal] at among
    cases among with
    | waits => exact .waiting (Nat.zero_le 3) (Nat.zero_le 7) nofun
    | @calls _ _ _ turn log _ meanwhile later =>
      have soundTurn := (meanwhile sound).1
      cases answered : (ChannelStore.handler (.ensureChannel wanted) turn).1 with
      | error cause =>
        rw [answered] at later
        rcases later.of_done with ⟨rfl, rfl⟩
        exact .failed (Nat.zero_le 3) (List.mem_singleton_self _) rfl
      | ok stored =>
        rw [answered] at later
        refine (course_of_advancing (soundTurn.of_handler _) rfl ?_ ?_ later).of_stage_le
          (Nat.zero_le _)
        · exact ChannelStore.channelAt?_of_ensureChannel soundTurn answered
        · omega

/-- However its turns are interleaved with others, a recording has at most three changes of status
refused and is done after eight turns.  It fails only because the update cannot be shown or the
store has failed.  When it goes on to the event, or has come to its end, there has been a moment at
which the channel was settled for the status that the update asks for. -/
theorem interleaved_recording_settles (deeds : List ChannelDeed) (jobs : List ChannelJob)
    (schedule : List Nat) (worker patience : Nat) (now : Timestamp) (update : ChannelUpdate)
    (imported : Bool) (given : jobs[worker]? = some (.record patience now update imported))
    (patient : 3 ≤ patience) :
    let log := (started deeds jobs).exchanges ChannelStore.handler worker schedule
    ∃ last,
      ((started deeds jobs).after ChannelStore.handler schedule).programs[worker]? = some last ∧
      log.countP Exchange.isRefusal ≤ 3 ∧
      (8 ≤ schedule.count worker → ∃ result, last = .done (.recorded result)) ∧
      (∀ error, last = .done (.recorded (.error error)) →
        (∃ cause, ChannelEvent.ofUpdate update imported now = .error cause ∧
          error = .outpoint cause) ∨
        ∃ exchange ∈ log, ∃ cause, exchange.answer = .error cause ∧ error = .store cause) ∧
      ∀ wanted, update.channel? now = some wanted →
        AtEvent last ∨ last = .done (.recorded (.ok ())) →
          ∃ exchange ∈ log, exchange.state.Settled wanted := by
  intro log
  have placed : (started deeds jobs).programs[worker]? =
      some (record patience now update imported).begin := by
    rw [started, List.getElem?_map, given]
    rfl
  rcases discipline.among (fit_started deeds jobs) placed schedule with ⟨last, found, among⟩
  refine ⟨last, found, ?_⟩
  cases shown : ChannelEvent.ofUpdate update imported now with
  | error cause =>
    rw [begin_record_of_unshown shown] at among
    rcases among.of_done with ⟨(nothing : log = []), rfl⟩
    refine ⟨?_, fun _ => ⟨_, rfl⟩, ?_, ?_⟩
    · rw [nothing]
      exact Nat.zero_le 3
    · intro error same
      cases same
      exact Or.inl ⟨cause, rfl, rfl⟩
    · rintro _ _ (⟨_, _, same⟩ | same) <;> cases same
  | ok event =>
    have course := course_of_record (.applyAll deeds) shown patient among
    refine ⟨course.refusals, ?_, fun error same => Or.inr (course.failure error same),
      course.settled⟩
    intro enough
    refine course.length.resolve_left ?_
    rintro ⟨short, working⟩
    rcases Crew.length_exchanges ChannelStore.handler schedule placed with
      ⟨outcome, ended⟩ | counted
    · rw [found, Option.some_inj] at ended
      exact working outcome ended
    · omega

/-- The report that a channel was abandoned while it was opening, overtaken by the reports that it
is open and that it was closed cooperatively. -/
def overtaking : List ChannelJob :=
  [.record 3 .epoch (.closedAt "ab:0" "cd" 0 .abandoned) false,
    .record 3 .epoch (.openAt "ab:0") false,
    .record 3 .epoch (.closedAt "ab:0" "ef" 700 .cooperative) false]

/-- The first report is refused twice and gives in to the second closing. -/
theorem interleaved_recording_settles_overtaken :
    let crew := started [.call (.ensureChannel (.ofPoint "ab:0" .opening .epoch))] overtaking
    let schedule := [0, 1, 1, 0, 0, 2, 2, 0, 0, 0, 0, 0]
    let log := crew.exchanges ChannelStore.handler 0 schedule
    overtaking[0]? = some (.record 3 .epoch (.closedAt "ab:0" "cd" 0 .abandoned) false) ∧ 3 ≤ 3 ∧
      log.countP Exchange.isRefusal = 2 ∧
      (crew.after ChannelStore.handler schedule).state.channels.rows.map Channel.status =
        [.cooperativeClosed] ∧
      ∃ last, (crew.after ChannelStore.handler schedule).programs[0]? = some last ∧
        (∃ result, last = .done (.recorded result)) ∧
        ∀ wanted, (ChannelUpdate.closedAt "ab:0" "cd" 0 .abandoned).channel? .epoch = some wanted →
          AtEvent last ∨ last = .done (.recorded (.ok ())) →
            ∃ exchange ∈ log, exchange.state.Settled wanted := by
  intro crew schedule log
  rcases interleaved_recording_settles [.call (.ensureChannel (.ofPoint "ab:0" .opening .epoch))]
      overtaking schedule 0 3 .epoch (.closedAt "ab:0" "cd" 0 .abandoned) false rfl (Nat.le_refl 3)
    with ⟨last, found, _, ends, _, settles⟩
  exact ⟨rfl, Nat.le_refl 3, by decide +kernel, by decide +kernel, last, found, ends (by decide),
    settles⟩

end ChannelJob

end NodeSteward
