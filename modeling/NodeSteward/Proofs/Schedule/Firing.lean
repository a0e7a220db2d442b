import NodeSteward.Schedule.Dispatcher
import NodeSteward.Proofs.Workflow.Discovery

/-!
# When triggers fire

The dispatcher forgets a trigger as soon as a tick does not find it, so its history holds for each
trigger the last firing in the unbroken row of ticks that have found it up to now.  A trigger
fires in the first of these ticks in which its parameters give an interval, and from then on as
soon as the interval has passed since it fired last, whatever interval it had before.

Between two ticks the store may become any other store, and any log entry may be refused.
-/

namespace NodeSteward

open WorkflowProgram (only_ask outcome)

namespace FiringHistory

variable {history : FiringHistory} {node : NodeId}

theorem last?_retain (history : FiringHistory) (nodes : List NodeId) (node : NodeId) :
    (history.retain nodes).last? node = if node ∈ nodes then history.last? node else none := by
  rcases history with ⟨fired⟩
  show (fired.filter (fun firing => firing.1 ∈ nodes)).lookup node = _
  induction fired with
  | nil => exact (ite_self none).symm
  | cons firing rest ih =>
    rcases firing with ⟨held, instant⟩
    rw [List.filter_cons]
    by_cases same : node = held
    · subst same
      by_cases kept : node ∈ nodes
      · simp [kept, last?]
      · simpa [kept] using ih
    · have differs : (node == held) = false := by simpa using same
      have skipped : last? ⟨(held, instant) :: rest⟩ node = rest.lookup node := by
        simp [last?, List.lookup_cons, differs]
      rw [skipped]
      split
      · rw [List.lookup_cons, differs]
        exact ih
      · exact ih

theorem isDue_retain {nodes : List NodeId} (kept : node ∈ nodes) (interval now : Nat) :
    (history.retain nodes).isDue node interval now = history.isDue node interval now := by
  rw [isDue, isDue, last?_retain, if_pos kept]

theorem isDue_iff {interval now : Nat} (positive : 0 < interval) :
    history.isDue node interval now = true ↔
      ∀ last, history.last? node = some last → last + interval ≤ now := by
  rw [isDue]
  cases history.last? node with
  | none => simp
  | some last =>
    rw [decide_eq_true_eq]
    constructor
    · rintro passed _ ⟨⟩
      omega
    · intro passed
      have after := passed last rfl
      omega

end FiringHistory

/-- The parameters of the node give a valid interval of some seconds. -/
def Node.GivesInterval (node : Node) (seconds : Nat) : Prop :=
  0 < seconds ∧ ∃ parameters, node.readParameters = .ok parameters ∧
    (parameters.get .timeInSeconds).intValue? = some (seconds : Int)

theorem Schedule.ofNode_eq_ok_iff {node : Node} {schedule : Schedule} :
    Schedule.ofNode node = .ok schedule ↔
      schedule.node = node.id ∧ node.GivesInterval schedule.seconds := by
  rcases schedule with ⟨id, seconds⟩
  unfold Schedule.ofNode Node.GivesInterval
  cases node.readParameters with
  | error error => simp
  | ok parameters =>
    cases given : (parameters.get .timeInSeconds).intValue? with
    | none => simp [given]
    | some value =>
      by_cases positive : 0 < value
      · simp only [given, positive, if_true]
        constructor
        · rintro ⟨⟩
          refine ⟨rfl, by omega, parameters, rfl, ?_⟩
          rw [given]
          congr 1
          omega
        · rintro ⟨rfl, _, _, ⟨⟩, same⟩
          rw [given] at same
          cases same
          simp
      · simp only [given, positive, if_false]
        refine iff_of_false nofun ?_
        rintro ⟨_, above, _, ⟨⟩, same⟩
        rw [given] at same
        cases same
        exact positive (by omega)

/-! ## Firing what is due -/

theorem DispatcherCall.run_ofWorkflow {α σ : Type} (store : Handler workflowCalls σ)
    (program : Program workflowCalls α) (state : σ) (taken : Bool × List Dispatch) :
    (ofWorkflow program).run (handler store) (state, taken) =
      ((program.run store state).1, ((program.run store state).2, taken)) := by
  induction program generalizing state with
  | done result => rfl
  | call request next ih => exact ih _ _

namespace Dispatcher

/-- Whether a trigger that was found has an interval and is due by it. -/
def isDue (history : FiringHistory) (instant : Nat) (trigger : NodeView) : Bool :=
  match Schedule.ofNode trigger.node with
  | .error _ => false
  | .ok schedule => history.isDue schedule.node schedule.interval instant

/-- What came of firing those of some triggers that are due. -/
structure Fired (instant : Nat) (triggers : List NodeView) (before : FiringHistory)
    (dispatches : List Dispatch) (answer : Except SchedulerError Nat)
    (after : FiringHistory) : Prop where
  chosen : dispatches.map Dispatch.trigger = triggers.filter (isDue before instant)
  counted : answer = .ok dispatches.length
  recorded : ∀ node, after.last? node =
    if node ∈ (dispatches.map Dispatch.trigger).map NodeView.id then some instant
    else before.last? node

section Firing

variable {instant : Nat} {trigger : NodeView} {triggers : List NodeView}
  {before after : FiringHistory} {dispatches : List Dispatch} {answer : Except SchedulerError Nat}

theorem isDue_of_ok {schedule : Schedule} (gives : Schedule.ofNode trigger.node = .ok schedule) :
    isDue before instant trigger = before.isDue trigger.id schedule.interval instant := by
  rw [isDue, gives]
  show before.isDue schedule.node _ _ = _
  rw [(Schedule.ofNode_eq_ok_iff.mp gives).1]
  rfl

theorem isDue_iff : isDue before instant trigger = true ↔ ∃ seconds,
    trigger.node.GivesInterval seconds ∧
      before.isDue trigger.id (Timer.ofSeconds seconds) instant = true := by
  constructor
  · intro due
    cases gives : Schedule.ofNode trigger.node with
    | error error =>
      rw [isDue, gives] at due
      cases due
    | ok schedule =>
      rw [isDue_of_ok gives] at due
      exact ⟨schedule.seconds, (Schedule.ofNode_eq_ok_iff.mp gives).2, due⟩
  · rintro ⟨seconds, interval, due⟩
    have gives : Schedule.ofNode trigger.node = .ok ⟨trigger.id, seconds⟩ :=
      Schedule.ofNode_eq_ok_iff.mpr ⟨rfl, interval⟩
    rw [isDue_of_ok gives]
    exact due

/-- A trigger is due whatever is remembered of others. -/
theorem isDue_record {node : NodeId} (other : trigger.id ≠ node) :
    isDue (before.record node instant) instant trigger = isDue before instant trigger := by
  cases gives : Schedule.ofNode trigger.node with
  | error error => rw [isDue, isDue, gives]
  | ok schedule =>
    rw [isDue_of_ok gives, isDue_of_ok gives, FiringHistory.isDue, FiringHistory.isDue,
      FiringHistory.last?_record, if_neg other]

theorem Fired.skip (fired : Fired instant triggers before dispatches answer after)
    (early : isDue before instant trigger = false) :
    Fired instant (trigger :: triggers) before dispatches answer after where
  chosen := by
    rw [List.filter_cons, early]
    exact fired.chosen
  counted := fired.counted
  recorded := fired.recorded

theorem Fired.fire {dispatch : Dispatch}
    (fired : Fired instant triggers (before.record trigger.id instant) dispatches answer after)
    (due : isDue before instant trigger = true) (hands : dispatch.trigger = trigger)
    (once : ∀ other ∈ triggers, other.id ≠ trigger.id) :
    Fired instant (trigger :: triggers) before (dispatch :: dispatches) (answer.map (· + 1))
      after where
  chosen := by
    rw [List.map_cons, hands, List.filter_cons, due, fired.chosen]
    congr 1
    apply List.filter_congr
    intro other later
    exact isDue_record (once other later)
  counted := by
    rw [fired.counted]
    rfl
  recorded node := by
    rw [fired.recorded, FiringHistory.last?_record, List.map_cons, List.map_cons, hands]
    by_cases own : node = trigger.id
    · simp [own]
    · simp [own]

theorem fireAll_of_early {dispatcher : Dispatcher} {now : Timestamp}
    (early : isDue dispatcher.history instant trigger = false) :
    fireAll now instant dispatcher (trigger :: triggers) =
      fireAll now instant dispatcher triggers := by
  rw [fireAll]
  cases gives : Schedule.ofNode trigger.node with
  | error error => rfl
  | ok schedule =>
    rw [isDue, gives] at early
    exact if_neg (Bool.eq_false_iff.mp early)

/-- The dispatcher after it fired a trigger. -/
def afterFiring (dispatcher : Dispatcher) (node : NodeId) (instant : Nat) : Dispatcher :=
  { dispatcher with
    nextReference := dispatcher.nextReference + 1
    history := dispatcher.history.record node instant }

/-- A due trigger is handed out whatever becomes of the log entry, and remembered before the others
are looked at. -/
theorem run_fireAll_of_due {σ : Type} (store : Handler workflowCalls σ) (now : Timestamp)
    {dispatcher : Dispatcher} (due : isDue dispatcher.history instant trigger = true) (state : σ)
    (delivered : List Dispatch) :
    ∃ dispatch left, dispatch.trigger = trigger ∧
      (fireAll now instant dispatcher (trigger :: triggers)).run (DispatcherCall.handler store)
          (state, true, delivered) =
        (fireAll now instant (dispatcher.afterFiring trigger.id instant) triggers >>= fun others =>
          pure (others.1.map (· + 1), others.2)).run (DispatcherCall.handler store)
            (left, true, delivered ++ [dispatch]) := by
  rw [fireAll]
  cases gives : Schedule.ofNode trigger.node with
  | error error =>
    rw [isDue, gives] at due
    cases due
  | ok schedule =>
    have own : schedule.node = trigger.id := (Schedule.ofNode_eq_ok_iff.mp gives).1
    rw [isDue, gives] at due
    let numbered := { dispatcher with nextReference := dispatcher.nextReference + 1 }
    let reference : TriggerReference := ⟨dispatcher.nextReference⟩
    let entry := numbered.entryOf reference schedule now
    let written := (LogEntry.append now entry).run.run store state
    refine ⟨⟨reference, trigger, now⟩, written.2, rfl, ?_⟩
    dsimp only
    rw [if_pos due, Program.run_bind, DispatcherCall.run_ofWorkflow, ← own]
    rfl

/-- Those of the triggers that are due fire in their order, and only their firings are
remembered. -/
theorem run_fireAll {σ : Type} (store : Handler workflowCalls σ) (now : Timestamp) (instant : Nat)
    (once : (triggers.map NodeView.id).Nodup) (dispatcher : Dispatcher) (state : σ)
    (delivered : List Dispatch) :
    ∃ answer final left dispatches,
      (fireAll now instant dispatcher triggers).run (DispatcherCall.handler store)
        (state, true, delivered) = ((answer, final), (left, true, delivered ++ dispatches)) ∧
      Fired instant triggers dispatcher.history dispatches answer final.history := by
  induction triggers generalizing dispatcher state delivered with
  | nil =>
    refine ⟨.ok 0, dispatcher, state, [], ?_, ⟨rfl, rfl, fun node => rfl⟩⟩
    rw [List.append_nil]
    rfl
  | cons trigger triggers ih =>
    rcases List.nodup_cons.mp once with ⟨new, onceLater⟩
    cases due : isDue dispatcher.history instant trigger with
    | false =>
      rcases ih onceLater dispatcher state delivered with
        ⟨answer, final, left, dispatches, runs, done⟩
      rw [fireAll_of_early due]
      exact ⟨answer, final, left, dispatches, runs, done.skip due⟩
    | true =>
      rcases run_fireAll_of_due store now due state delivered with
        ⟨dispatch, waiting, hands, first⟩
      let next := dispatcher.afterFiring trigger.id instant
      rcases ih onceLater next waiting (delivered ++ [dispatch]) with
        ⟨answer, final, left, dispatches, runs, done⟩
      refine ⟨answer.map (· + 1), final, left, dispatch :: dispatches, ?_, done.fire due hands ?_⟩
      · rw [first, Program.run_bind, runs, List.append_assoc]
        rfl
      · intro other later same
        exact new (same ▸ List.mem_map_of_mem later)

end Firing

/-! ## Rounds -/

/-- A tick with what comes before it. -/
structure Round where
  /-- What has become of the store since the last tick. -/
  meanwhile : WorkflowStore → WorkflowStore
  /-- The failures of log entries during the tick. -/
  logFailure? : LogEntry → Option StoreError
  now : Timestamp
  instant : Nat

namespace Round

/-- Answers like the store, except for the log entries that are refused. -/
def handler (round : Round) : Handler workflowCalls WorkflowStore
  | .insertLog entry, store =>
    match round.logFailure? entry with
    | some failure => (.error failure, store)
    | none => store.insertLog entry
  | request, store => WorkflowStore.handler request store

theorem run_activeTriggers (round : Round) (type : NodeType) (store : WorkflowStore) :
    (NodeView.activeTriggers type).run.run round.handler store =
      (.ok ((store.allTriggers type).map store.viewOf), store) := by
  refine Eq.trans ?_ (NodeView.outcome_activeTriggers type store)
  apply Program.Only.run_congr
  refine .exceptBind (only_ask rfl) ?_
  intro versions
  refine (NodeView.only_triggersOfAll type _).mono ?_
  intro request reads
  cases request with
  | insertLog entry => cases reads
  | _ => rfl

end Round

/-- What is seen of a tick. -/
structure Report where
  /-- The store that the tick finds. -/
  store : WorkflowStore
  instant : Nat
  answer : Except SchedulerError Nat
  /-- What was handed out, the oldest first. -/
  dispatches : List Dispatch

namespace Report

/-- The active time triggers in the store of the tick. -/
def found (report : Report) : List NodeView :=
  match (outcome (NodeView.activeTriggers .timeTrigger) report.store).1 with
  | .ok views => views
  | .error _ => []

def discovers (report : Report) (node : NodeId) : Bool :=
  (report.found.map NodeView.id).contains node

def fires (report : Report) (node : NodeId) : Bool :=
  ((report.dispatches.map Dispatch.trigger).map NodeView.id).contains node

theorem discovers_iff {report : Report} {node : NodeId} :
    report.discovers node = true ↔ node ∈ report.found.map NodeView.id :=
  List.contains_iff_mem

theorem fires_iff {report : Report} {node : NodeId} :
    report.fires node = true ↔
      node ∈ (report.dispatches.map Dispatch.trigger).map NodeView.id :=
  List.contains_iff_mem

theorem found_eq (report : Report) :
    report.found = (report.store.allTriggers .timeTrigger).map report.store.viewOf := by
  rw [found, NodeView.outcome_activeTriggers]

theorem nodup_found (report : Report) : (report.found.map NodeView.id).Nodup := by
  rw [found_eq, List.map_map]
  exact report.store.nodup_allTriggers .timeTrigger

end Report

/-- A dispatcher at work, with the reports on its ticks, the last one first. -/
structure Watch where
  store : WorkflowStore
  dispatcher : Dispatcher
  reports : List Report

namespace Watch

/-- The beginning of a run: nothing has been fired. -/
def start (store : WorkflowStore) (lightningNode : Int) (nextReference : Nat) : Watch :=
  ⟨store, .start lightningNode nextReference, []⟩

/-- The tick of a round, while somebody takes all that is dispatched. -/
def runs (watch : Watch) (round : Round) :
    (Except SchedulerError Nat × Dispatcher) × WorkflowStore × Bool × List Dispatch :=
  (watch.dispatcher.tick round.now round.instant).run (DispatcherCall.handler round.handler)
    (round.meanwhile watch.store, true, [])

def report (watch : Watch) (round : Round) : Report where
  store := round.meanwhile watch.store
  instant := round.instant
  answer := (watch.runs round).1.1
  dispatches := (watch.runs round).2.2.2

def tick (watch : Watch) (round : Round) : Watch where
  store := (watch.runs round).2.1
  dispatcher := (watch.runs round).1.2
  reports := watch.report round :: watch.reports

def after (watch : Watch) (rounds : List Round) : Watch :=
  rounds.foldl tick watch

variable {watch : Watch}

/-- A tick forgets the triggers that it does not find, and fires what is due of the others. -/
theorem fired_report (watch : Watch) (round : Round) :
    Fired round.instant (watch.report round).found
      (watch.dispatcher.history.retain ((watch.report round).found.map NodeView.id))
      (watch.report round).dispatches (watch.report round).answer
      (watch.tick round).dispatcher.history := by
  let known : Dispatcher :=
    { watch.dispatcher with
      history := watch.dispatcher.history.retain ((watch.report round).found.map NodeView.id) }
  have runs : watch.runs round =
      (fireAll round.now round.instant known (watch.report round).found).run
        (DispatcherCall.handler round.handler) (round.meanwhile watch.store, true, []) := by
    rw [Watch.runs, Dispatcher.tick, Program.run_bind, DispatcherCall.run_ofWorkflow,
      round.run_activeTriggers]
    simp only [known, Report.found_eq]
    rfl
  rcases run_fireAll round.handler round.now round.instant (watch.report round).nodup_found known
    (round.meanwhile watch.store) [] with ⟨answer, final, left, dispatches, ends, fired⟩
  have all : watch.runs round = ((answer, final), (left, true, dispatches)) := runs.trans ends
  have dispatched : (watch.report round).dispatches = dispatches := by rw [report, all]
  have answered : (watch.report round).answer = answer := by rw [report, all]
  have remembered : (watch.tick round).dispatcher = final := by rw [tick, all]
  rw [dispatched, answered, remembered]
  exact fired

/-- The history holds the last firing of each trigger since a tick did not find it. -/
def Remembers (watch : Watch) : Prop :=
  ∀ node, watch.dispatcher.history.last? node =
    ((watch.reports.takeWhile (fun report => report.discovers node)).find?
      (fun report => report.fires node)).map Report.instant

theorem discovers_of_fires {round : Round} {node : NodeId}
    (fires : (watch.report round).fires node = true) :
    (watch.report round).discovers node = true := by
  have chosen := (watch.fired_report round).chosen
  rw [Report.fires_iff, chosen] at fires
  rcases List.mem_map.mp fires with ⟨trigger, listed, named⟩
  apply Report.discovers_iff.mpr
  exact List.mem_map.mpr ⟨trigger, (List.mem_filter.mp listed).1, named⟩

theorem Remembers.tick (remembers : watch.Remembers) (round : Round) :
    (watch.tick round).Remembers := by
  intro node
  show _ = (((watch.report round :: watch.reports).takeWhile _).find? _).map Report.instant
  have last := (watch.fired_report round).recorded node
  rw [FiringHistory.last?_retain] at last
  rw [last]
  by_cases fires : (watch.report round).fires node = true
  · rw [if_pos (Report.fires_iff.mp fires), List.takeWhile_cons, if_pos (discovers_of_fires fires),
      List.find?_cons, fires]
    rfl
  · rw [if_neg (fun handed => fires (Report.fires_iff.mpr handed))]
    by_cases found : (watch.report round).discovers node = true
    · rw [if_pos (Report.discovers_iff.mp found), List.takeWhile_cons, if_pos found,
        List.find?_cons, Bool.eq_false_iff.mpr fires]
      exact remembers node
    · rw [if_neg (fun listed => found (Report.discovers_iff.mpr listed)), List.takeWhile_cons,
        if_neg found]
      rfl

theorem remembers_after (store : WorkflowStore) (lightningNode : Int) (nextReference : Nat)
    (rounds : List Round) :
    ((start store lightningNode nextReference).after rounds).Remembers := by
  have through : ∀ watch : Watch, watch.Remembers → (watch.after rounds).Remembers := by
    induction rounds with
    | nil => exact fun watch remembers => remembers
    | cons round rounds ih =>
      exact fun watch remembers => ih _ (remembers.tick round)
  exact through _ fun node => rfl

/-- A trigger has not fired since the start or since the last tick that did not find it, or its
interval has passed since it fired last. -/
def Rested (past : List Report) (node : NodeId) (interval instant : Nat) : Prop :=
  (∀ report ∈ past.takeWhile (fun report => report.discovers node), report.fires node = false) ∨
    ∃ last, past.find? (fun report => report.fires node) = some last ∧
      last.instant + interval ≤ instant

theorem Remembers.isDue_iff_rested (remembers : watch.Remembers) {node : NodeId}
    {interval instant : Nat} (positive : 0 < interval) :
    watch.dispatcher.history.isDue node interval instant = true ↔
      Rested watch.reports node interval instant := by
  rw [FiringHistory.isDue_iff positive, remembers node]
  cases found : (watch.reports.takeWhile (fun report => report.discovers node)).find?
      (fun report => report.fires node) with
  | none =>
    refine iff_of_true nofun (Or.inl ?_)
    intro report listed
    exact Bool.eq_false_iff.mpr (List.find?_eq_none.mp found report listed)
  | some last =>
    have overall : watch.reports.find? (fun report => report.fires node) = some last := by
      have whole := List.takeWhile_append_dropWhile
        (p := fun report : Report => report.discovers node) (l := watch.reports)
      rw [← whole, List.find?_append, found]
      rfl
    constructor
    · intro passed
      exact Or.inr ⟨last, overall, passed _ rfl⟩
    · rintro (idle | ⟨other, same, passed⟩)
      · have fired := List.find?_some found
        rw [idle last (List.mem_of_find?_eq_some found)] at fired
        cases fired
      · rw [overall] at same
        cases same
        rintro _ ⟨⟩
        exact passed

/-- In every tick of a run exactly those of the triggers that are found fire that have an interval
and have rested, each once and in the order in which they are found, and the tick yields their
number. -/
theorem dispatches_exact (store : WorkflowStore) (lightningNode : Int) (nextReference : Nat)
    (rounds : List Round) (round : Round) :
    let watch := (start store lightningNode nextReference).after rounds
    let report := watch.report round
    outcome (NodeView.activeTriggers .timeTrigger) (round.meanwhile watch.store) =
        (.ok report.found, round.meanwhile watch.store) ∧
      (∀ trigger, trigger ∈ report.dispatches.map Dispatch.trigger ↔
        trigger ∈ report.found ∧ ∃ seconds, trigger.node.GivesInterval seconds ∧
          Rested watch.reports trigger.id (Timer.ofSeconds seconds) round.instant) ∧
      ((report.dispatches.map Dispatch.trigger).map NodeView.id).Nodup ∧
      (report.dispatches.map Dispatch.trigger).Sublist report.found ∧
      report.answer = .ok report.dispatches.length := by
  intro watch report
  have remembers : watch.Remembers := remembers_after store lightningNode nextReference rounds
  have fired := watch.fired_report round
  have ordered : (report.dispatches.map Dispatch.trigger).Sublist report.found := by
    rw [fired.chosen]
    exact List.filter_sublist
  refine ⟨?_, ?_, report.nodup_found.sublist (ordered.map _), ordered, fired.counted⟩
  · rw [report.found_eq]
    exact NodeView.outcome_activeTriggers .timeTrigger _
  · intro trigger
    rw [fired.chosen, List.mem_filter, isDue_iff]
    refine and_congr_right ?_
    intro found
    refine exists_congr fun seconds => and_congr_right ?_
    intro interval
    rw [FiringHistory.isDue_retain (List.mem_map_of_mem found)]
    exact remembers.isDue_iff_rested (Nat.mul_pos interval.1 (by decide))

/-- A tick after some edits, while every log entry is written. -/
def roundAt (seconds : Nat) (edits : List WorkflowEdit) : Round where
  meanwhile store := WorkflowEdit.applyAll store (WorkflowEdit.atOnce edits)
  logFailure? _ := none
  now := ⟨0, 0⟩
  instant := Timer.ofSeconds seconds

/-- A time trigger in version 2 with an interval of a minute. -/
def everyMinute : NewNode :=
  { NewNode.plain ⟨2⟩ with
    type := .timeTrigger
    parameters := Parameters.toText ⟨[.ofValue .timeInSeconds (.ofInt 60)]⟩ }

/-- The trigger fires, waits for its minute and fires again.  One tick does not find it, so in the
next one it fires although its minute has not passed. -/
example :
    ((start .empty 1 0).after
      [roundAt 0 [.createNamed "fees", .cloneOrCreateVersion ⟨1⟩ 1 "only", .addNode everyMinute,
        .releaseOf ⟨1⟩ 1 ⟨2⟩],
      roundAt 59 [], roundAt 60 [],
      roundAt 61 [.updateNode ({ everyMinute with status := .inactive }.withId ⟨3⟩)],
      roundAt 62 [.updateNode (everyMinute.withId ⟨3⟩)]]).reports.map
        (fun report => report.dispatches.length) = [1, 0, 1, 0, 1] := by
  decide +kernel

end Watch

end Dispatcher

end NodeSteward
