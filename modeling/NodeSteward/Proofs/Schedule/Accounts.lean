import NodeSteward.Proofs.Schedule.Firing

/-!
# What a tick writes down and what it hands out

For each trigger that is due a tick writes a log entry, hands out a dispatch and remembers the
firing, in this order.  Whoever takes dispatches may stop doing so at any of them, and then the
tick ends between the first of these effects and the second.  So the entries of a tick are those of
the dispatches that were taken, and one more if the tick was ended by a dispatch that was not.
-/

namespace NodeSteward

open WorkflowProgram (outcome)

/-- The reference and the node under which a dispatch is known. -/
def Dispatch.firing (dispatch : Dispatch) : String × NodeId :=
  (dispatch.reference.text, dispatch.trigger.id)

namespace LogEntry

/-- The reference and the node under which an entry tells of a firing. -/
def firing (entry : LogEntry) : String × NodeId :=
  (entry.triggerReference, entry.node)

/-- An entry that the store accepts is written behind the others. -/
theorem outcome_append (now : Timestamp) (entry : LogEntry) {store : WorkflowStore}
    (writes : store.refusesLogs = false) :
    outcome (append now entry) store =
      (.ok { entry with createdOn := now },
        { store with logs := store.logs ++ [{ entry with createdOn := now }] }) := by
  have accepted : WorkflowStore.handler (.insertLog { entry with createdOn := now }) store =
      (.ok (), { store with logs := store.logs ++ [{ entry with createdOn := now }] }) := by
    show store.insertLog _ = _
    rw [WorkflowStore.insertLog, writes]
    rfl
  rw [append, WorkflowProgram.outcome_ask_bind accepted]
  rfl

end LogEntry

namespace Dispatcher

/-- A tick of a dispatcher on a store that nobody else uses. -/
structure Tick where
  store : WorkflowStore
  dispatcher : Dispatcher
  /-- Whether a further dispatch is taken after those that this tick has handed out. -/
  listens : List Dispatch → Bool
  now : Timestamp
  instant : Nat

namespace Tick

/-- Answers the calls of a tick while it is open anew before each of them whether somebody takes
dispatches. -/
def handler (listens : List Dispatch → Bool) :
    Handler dispatcherCalls (WorkflowStore × List Dispatch)
  | request, (store, delivered) =>
    let (answer, (store, _, delivered)) :=
      DispatcherCall.handler WorkflowStore.handler request (store, listens delivered, delivered)
    (answer, (store, delivered))

def runs (tick : Tick) :
    (Except SchedulerError Nat × Dispatcher) × WorkflowStore × List Dispatch :=
  (tick.dispatcher.tick tick.now tick.instant).run (handler tick.listens) (tick.store, [])

def answer (tick : Tick) : Except SchedulerError Nat :=
  tick.runs.1.1

/-- The history after the tick. -/
def history (tick : Tick) : FiringHistory :=
  tick.runs.1.2.history

/-- The store after the tick. -/
def left (tick : Tick) : WorkflowStore :=
  tick.runs.2.1

/-- The dispatches that were taken, the oldest first. -/
def delivered (tick : Tick) : List Dispatch :=
  tick.runs.2.2

/-- The tick remembers a firing of the trigger that was not remembered before. -/
def Marks (tick : Tick) (node : NodeId) : Prop :=
  ∃ instant, tick.history.last? node = some instant ∧
    tick.dispatcher.history.last? node ≠ some instant

/-- The entries of a tick, the dispatches that were taken and the triggers that are remembered as
fired are the same firings, and each of them stands once. -/
structure Accounted (tick : Tick) : Prop where
  logged : ∃ entries, tick.left = { tick.store with logs := tick.store.logs ++ entries } ∧
    entries.map LogEntry.firing = tick.delivered.map Dispatch.firing
  once : ((tick.delivered.map Dispatch.trigger).map NodeView.id).Nodup
  marked : ∀ node, tick.Marks node ↔ node ∈ (tick.delivered.map Dispatch.trigger).map NodeView.id

theorem run_ofWorkflow {α : Type} (listens : List Dispatch → Bool)
    (program : Program workflowCalls α) (store : WorkflowStore) (delivered : List Dispatch) :
    (DispatcherCall.ofWorkflow program).run (handler listens) (store, delivered) =
      ((program.run WorkflowStore.handler store).1,
        ((program.run WorkflowStore.handler store).2, delivered)) := by
  induction program generalizing store with
  | done result => rfl
  | call request next ih => exact ih _ _

theorem run_deliver_of_listens {listens : List Dispatch → Bool} {delivered : List Dispatch}
    (store : WorkflowStore) (dispatch : Dispatch) (taken : listens delivered = true) :
    (Program.request (I := dispatcherCalls) (.deliver dispatch)).run (handler listens)
      (store, delivered) = (true, store, delivered ++ [dispatch]) := by
  simp [Program.request, Program.run, handler, DispatcherCall.handler, taken]

theorem run_deliver_of_not_listens {listens : List Dispatch → Bool} {delivered : List Dispatch}
    (store : WorkflowStore) (dispatch : Dispatch) (refused : listens delivered = false) :
    (Program.request (I := dispatcherCalls) (.deliver dispatch)).run (handler listens)
      (store, delivered) = (false, store, delivered) := by
  simp [Program.request, Program.run, handler, DispatcherCall.handler, refused]

end Tick

/-! ## Firing until a dispatch is not taken -/

/-- What came of firing those of some triggers that are due: the dispatches that were taken, the
one that was not and ended the firing, and the entries that were written. -/
structure FiredUntil (instant : Nat) (triggers : List NodeView) (before : FiringHistory)
    (delivered : List Dispatch) (refused : Option Dispatch) (entries : List LogEntry)
    (answer : Except SchedulerError Nat) (after : FiringHistory) : Prop where
  chosen : (delivered ++ refused.toList).map Dispatch.trigger <+:
    triggers.filter (isDue before instant)
  answered : answer = refused.elim (.ok delivered.length) fun _ => .error .dispatchClosed
  logged : entries.map LogEntry.firing = (delivered ++ refused.toList).map Dispatch.firing
  recorded : ∀ node, after.last? node =
    if node ∈ (delivered.map Dispatch.trigger).map NodeView.id then some instant
    else before.last? node

section FiredUntil

variable {instant : Nat} {trigger : NodeView} {triggers : List NodeView}
  {before after : FiringHistory} {delivered : List Dispatch} {refused : Option Dispatch}
  {dispatch : Dispatch} {entry : LogEntry} {entries : List LogEntry}
  {answer : Except SchedulerError Nat}

theorem FiredUntil.skip
    (fired : FiredUntil instant triggers before delivered refused entries answer after)
    (early : isDue before instant trigger = false) :
    FiredUntil instant (trigger :: triggers) before delivered refused entries answer after where
  chosen := by
    rw [List.filter_cons, early]
    exact fired.chosen
  answered := fired.answered
  logged := fired.logged
  recorded := fired.recorded

theorem FiredUntil.fire
    (fired : FiredUntil instant triggers (before.record trigger.id instant) delivered refused
      entries answer after)
    (due : isDue before instant trigger = true) (hands : dispatch.trigger = trigger)
    (tells : entry.firing = dispatch.firing) (once : ∀ other ∈ triggers, other.id ≠ trigger.id) :
    FiredUntil instant (trigger :: triggers) before (dispatch :: delivered) refused
      (entry :: entries) (answer.map (· + 1)) after where
  chosen := by
    have others : triggers.filter (isDue (before.record trigger.id instant) instant) =
        triggers.filter (isDue before instant) :=
      List.filter_congr fun other later => isDue_record (once other later)
    rw [List.cons_append, List.map_cons, hands, List.filter_cons_of_pos due, ← others]
    exact List.cons_prefix_cons.mpr ⟨rfl, fired.chosen⟩
  answered := by
    rw [fired.answered]
    cases refused <;> rfl
  logged := by
    rw [List.map_cons, List.cons_append, List.map_cons, tells, fired.logged]
  recorded node := by
    rw [fired.recorded, FiringHistory.last?_record, List.map_cons, List.map_cons, hands]
    by_cases own : node = trigger.id
    · simp [own]
    · simp [own]

/-- A dispatch that is not taken ends the firing after its entry has been written. -/
theorem FiredUntil.refuse (due : isDue before instant trigger = true)
    (hands : dispatch.trigger = trigger) (tells : entry.firing = dispatch.firing) :
    FiredUntil instant (trigger :: triggers) before [] (some dispatch) [entry]
      (.error .dispatchClosed) before where
  chosen := by
    rw [List.filter_cons_of_pos due]
    exact List.cons_prefix_cons.mpr ⟨hands, List.nil_prefix⟩
  answered := rfl
  logged := congrArg (fun firing => [firing]) tells
  recorded _ := rfl

/-- A due trigger has its entry written first.  Only if its dispatch is taken it is remembered, and
the others follow. -/
theorem run_fireAll_until_of_due (triggers : List NodeView) (listens : List Dispatch → Bool)
    (now : Timestamp) {dispatcher : Dispatcher}
    (due : isDue dispatcher.history instant trigger = true)
    {store : WorkflowStore} (writes : store.refusesLogs = false) (earlier : List Dispatch) :
    ∃ dispatch entry, dispatch.trigger = trigger ∧ entry.firing = dispatch.firing ∧
      (fireAll now instant dispatcher (trigger :: triggers)).run (Tick.handler listens)
          (store, earlier) =
        if listens earlier then
          (fireAll now instant (dispatcher.afterFiring trigger.id instant) triggers >>=
            fun others => pure (others.1.map (· + 1), others.2)).run (Tick.handler listens)
              ({ store with logs := store.logs ++ [entry] }, earlier ++ [dispatch])
        else
          ((.error .dispatchClosed,
              { dispatcher with nextReference := dispatcher.nextReference + 1 }),
            { store with logs := store.logs ++ [entry] }, earlier) := by
  rw [fireAll]
  cases gives : Schedule.ofNode trigger.node with
  | error error =>
    rw [isDue, gives] at due
    cases due
  | ok schedule =>
    have own : schedule.node = trigger.id := (Schedule.ofNode_eq_ok_iff.mp gives).1
    rw [isDue, gives] at due
    let numbered := { dispatcher with nextReference := dispatcher.nextReference + 1 }
    let reference : TriggerReference := ⟨dispatcher.nextReference⟩
    let entry := { numbered.entryOf reference schedule now with createdOn := now }
    refine ⟨⟨reference, trigger, now⟩, entry, rfl, congrArg (Prod.mk reference.text) own, ?_⟩
    have written := LogEntry.outcome_append now (numbered.entryOf reference schedule now) writes
    dsimp only
    rw [if_pos due, Program.run_bind, Tick.run_ofWorkflow, ← own]
    unfold WorkflowProgram.outcome at written
    rw [written, Program.run_bind]
    cases taken : listens earlier with
    | true =>
      rw [Tick.run_deliver_of_listens _ _ taken]
      rfl
    | false =>
      rw [Tick.run_deliver_of_not_listens _ _ taken]
      rfl

/-- Those of the triggers that are due have their entries written and their dispatches handed out
in their order, until a dispatch is not taken. -/
theorem run_fireAll_until (listens : List Dispatch → Bool) (now : Timestamp) (instant : Nat)
    (once : (triggers.map NodeView.id).Nodup) (dispatcher : Dispatcher) {store : WorkflowStore}
    (writes : store.refusesLogs = false) (earlier : List Dispatch) :
    ∃ answer final delivered refused entries,
      (fireAll now instant dispatcher triggers).run (Tick.handler listens) (store, earlier) =
        ((answer, final), { store with logs := store.logs ++ entries }, earlier ++ delivered) ∧
      FiredUntil instant triggers dispatcher.history delivered refused entries answer
        final.history := by
  induction triggers generalizing dispatcher store earlier with
  | nil =>
    refine ⟨.ok 0, dispatcher, [], none, [], ?_, ⟨List.prefix_rfl, rfl, rfl, fun _ => rfl⟩⟩
    rw [List.append_nil, List.append_nil]
    rfl
  | cons trigger triggers ih =>
    rcases List.nodup_cons.mp once with ⟨new, onceLater⟩
    cases due : isDue dispatcher.history instant trigger with
    | false =>
      rcases ih onceLater dispatcher writes earlier with
        ⟨answer, final, delivered, refused, entries, runs, fired⟩
      rw [fireAll_of_early due]
      exact ⟨answer, final, delivered, refused, entries, runs, fired.skip due⟩
    | true =>
      rcases run_fireAll_until_of_due triggers listens now due writes earlier with
        ⟨dispatch, entry, hands, tells, first⟩
      cases taken : listens earlier with
      | false =>
        let stopped := { dispatcher with nextReference := dispatcher.nextReference + 1 }
        refine ⟨_, stopped, [], some dispatch, [entry], ?_, .refuse due hands tells⟩
        rw [first, if_neg (Bool.eq_false_iff.mp taken), List.append_nil]
      | true =>
        let next := dispatcher.afterFiring trigger.id instant
        let written := { store with logs := store.logs ++ [entry] }
        have writesOn : written.refusesLogs = false := writes
        rcases ih onceLater next writesOn (earlier ++ [dispatch]) with
          ⟨answer, final, delivered, refused, entries, runs, fired⟩
        refine ⟨answer.map (· + 1), final, dispatch :: delivered, refused, entry :: entries, ?_,
          fired.fire due hands tells ?_⟩
        · rw [first, if_pos taken, Program.run_bind, runs, List.append_assoc, List.append_assoc]
          rfl
        · intro other later same
          exact new (same ▸ List.mem_map_of_mem later)

end FiredUntil

namespace Tick

variable {tick : Tick}

/-- The active time triggers in the store of the tick. -/
def found (tick : Tick) : List NodeView :=
  (tick.store.allTriggers .timeTrigger).map tick.store.viewOf

theorem nodup_found (tick : Tick) : (tick.found.map NodeView.id).Nodup := by
  rw [found, List.map_map]
  exact tick.store.nodup_allTriggers .timeTrigger

/-- A tick fires what is due of the triggers that it finds, until a dispatch is not taken. -/
theorem exists_firedUntil (tick : Tick) (writes : tick.store.refusesLogs = false) :
    ∃ refused entries, tick.left = { tick.store with logs := tick.store.logs ++ entries } ∧
      FiredUntil tick.instant tick.found
        (tick.dispatcher.history.retain (tick.found.map NodeView.id)) tick.delivered refused
        entries tick.answer tick.history := by
  let known : Dispatcher :=
    { tick.dispatcher with
      history := tick.dispatcher.history.retain (tick.found.map NodeView.id) }
  have discovers : (NodeView.activeTriggers .timeTrigger).run.run WorkflowStore.handler tick.store =
      (.ok tick.found, tick.store) := NodeView.outcome_activeTriggers .timeTrigger tick.store
  have goes : tick.runs = (fireAll tick.now tick.instant known tick.found).run
      (handler tick.listens) (tick.store, []) := by
    rw [runs, Dispatcher.tick, Program.run_bind, run_ofWorkflow, discovers]
  rcases run_fireAll_until tick.listens tick.now tick.instant tick.nodup_found known writes [] with
    ⟨answer, final, delivered, refused, entries, ends, fired⟩
  have all := goes.trans ends
  refine ⟨refused, entries, ?_, ?_⟩
  · rw [left, all]
  · rw [Tick.delivered, Tick.answer, history, all]
    exact fired

/-- What is newly remembered are the dispatches that were taken. -/
theorem marks_iff_delivered (writes : tick.store.refusesLogs = false) {node : NodeId} :
    tick.Marks node ↔ node ∈ (tick.delivered.map Dispatch.trigger).map NodeView.id := by
  rcases tick.exists_firedUntil writes with ⟨refused, entries, -, fired⟩
  have recorded := fired.recorded node
  rw [FiringHistory.last?_retain] at recorded
  constructor
  · rintro ⟨instant, now, before⟩
    by_contra spared
    rw [if_neg spared] at recorded
    rw [recorded] at now
    split at now
    · exact before now
    · cases now
  · intro handed
    rw [if_pos handed] at recorded
    refine ⟨tick.instant, recorded, fun already => ?_⟩
    rcases List.mem_map.mp handed with ⟨trigger, listed, named⟩
    have due : trigger ∈ tick.found ∧ isDue (tick.dispatcher.history.retain
        (tick.found.map NodeView.id)) tick.instant trigger = true := by
      refine List.mem_filter.mp (fired.chosen.subset ?_)
      rw [List.map_append]
      exact List.mem_append_left _ listed
    rcases isDue_iff.mp due.2 with ⟨seconds, interval, passed⟩
    have positive : 0 < Timer.ofSeconds seconds := Nat.mul_pos interval.1 (by decide)
    rw [FiringHistory.isDue_retain (List.mem_map_of_mem due.1),
      FiringHistory.isDue_iff positive, named] at passed
    have late := passed _ already
    omega

/-- While log entries are written, the entries of a tick, the dispatches that were taken and the
triggers that are remembered as fired are the same firings if and only if every dispatch was
taken. -/
theorem accounted_iff (tick : Tick) (writes : tick.store.refusesLogs = false) :
    tick.Accounted ↔ tick.answer ≠ .error .dispatchClosed := by
  rcases tick.exists_firedUntil writes with ⟨refused, entries, left, fired⟩
  have answered := fired.answered
  have logged := fired.logged
  constructor
  · rintro ⟨⟨others, same, told⟩, -, -⟩ closed
    have equal : tick.store.logs ++ others = tick.store.logs ++ entries :=
      congrArg WorkflowStore.logs (same.symm.trans left)
    rw [List.append_cancel_left equal, logged, List.map_append, List.append_right_eq_self,
      List.map_eq_nil_iff] at told
    cases refused with
    | none =>
      rw [closed] at answered
      cases answered
    | some dispatch => cases told
  · intro ended
    cases refused with
    | some dispatch => exact absurd answered ended
    | none =>
      rw [Option.toList_none, List.append_nil] at logged
      have chosen := fired.chosen
      rw [Option.toList_none, List.append_nil] at chosen
      have ordered := (chosen.sublist.trans List.filter_sublist).map NodeView.id
      exact ⟨⟨entries, left, logged⟩, tick.nodup_found.sublist ordered,
        fun node => marks_iff_delivered writes⟩

/-- A tick by a dispatcher that has fired nothing, in a store with a time trigger in each of two
workflows. -/
def ofTwo (listens : List Dispatch → Bool) : Tick where
  store := WorkflowEdit.applyAll .empty <| WorkflowEdit.atOnce
    [.createNamed "fees", .cloneOrCreateVersion ⟨1⟩ 1 "only", .addNode Watch.everyMinute,
      .releaseOf ⟨1⟩ 1 ⟨2⟩, .createNamed "swaps", .cloneOrCreateVersion ⟨4⟩ 1 "only",
      .addNode { Watch.everyMinute with versionId := ⟨5⟩ }, .releaseOf ⟨4⟩ 1 ⟨5⟩]
  dispatcher := .start 1 0
  listens
  now := ⟨0, 0⟩
  instant := 0

/-- Both triggers are accounted for if somebody takes two dispatches. -/
theorem accounted_iff_ofTwo :
    let tick := ofTwo fun delivered => delivered.length < 2
    tick.store.refusesLogs = false ∧ tick.answer = .ok 2 ∧ tick.Accounted := by
  intro tick
  have writes : tick.store.refusesLogs = false := by decide +kernel
  have answered : tick.answer = .ok 2 := by decide +kernel
  refine ⟨writes, answered, (accounted_iff tick writes).mpr ?_⟩
  rw [answered]
  exact nofun

/-- Where nobody listens any more, an entry is left about a trigger whose dispatch was not taken. -/
theorem not_accounted_ofTwo :
    ¬ ∀ tick : Tick, tick.store.refusesLogs = false → tick.Accounted := by
  intro always
  let tick := ofTwo fun _ => false
  have accounted : tick.Accounted := always tick (by decide +kernel)
  rcases accounted.logged with ⟨entries, same, told⟩
  have none : tick.delivered = [] := by decide +kernel
  have before : tick.store.logs.length = 0 := by decide +kernel
  have after : tick.left.logs.length = 1 := by decide +kernel
  rw [none, List.map_nil, List.map_eq_nil_iff] at told
  rw [same, told, List.length_append, before] at after
  cases after

end Tick

end Dispatcher

end NodeSteward
