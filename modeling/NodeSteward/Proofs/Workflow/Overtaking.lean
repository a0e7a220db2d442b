import NodeSteward.Proofs.Crew
import NodeSteward.Proofs.Workflow.Change
import NodeSteward.Proofs.Workflow.Expansion

/-!
# Edits that take turns

Several edits work on one store.  A turn of an edit is one of its calls, so that the check on the
ends of a link and the write of the link are turns of their own, with those of others in between.
Adding a link looks for both ends once more in the call that writes it.  Updating one does not: a
node that was found by the check may have been deleted when the write comes, and then the link is
led over to a node that is not there.

The ends of all links stay stored exactly as long as no update is overtaken in this way.  It takes
both an update of a link and a delete among the edits for that to happen.
-/

namespace NodeSteward

open WorkflowProgram (ask only_ask outcome)

namespace WorkflowStore

variable {store after : WorkflowStore}

/-- Both ends of a link are stored. -/
def HoldsEnds (store : WorkflowStore) (link : NewLink) : Prop :=
  store.nodes.contains link.parent = true ∧ store.nodes.contains link.child = true

instance (store : WorkflowStore) (link : NewLink) : Decidable (store.HoldsEnds link) :=
  inferInstanceAs (Decidable (_ ∧ _))

/-- No link has an end that is not stored. -/
def EndsStored (store : WorkflowStore) : Prop :=
  ∀ link ∈ store.links.rows, store.HoldsEnds link.toNewLink

instance (store : WorkflowStore) : Decidable store.EndsStored :=
  inferInstanceAs (Decidable (∀ link ∈ store.links.rows, store.HoldsEnds link.toNewLink))

/-- Every stored node stays stored. -/
def NodesStay (store after : WorkflowStore) : Prop :=
  ∀ id, store.nodes.contains id = true → after.nodes.contains id = true

/-- Every stored node stays stored, and what is new among the links has both its ends. -/
structure Extends (store after : WorkflowStore) : Prop where
  nodes : store.NodesStay after
  links : ∀ link ∈ after.links.rows, link ∈ store.links.rows ∨ store.HoldsEnds link.toNewLink

theorem Extends.of_same (nodes : after.nodes = store.nodes) (links : after.links = store.links) :
    store.Extends after where
  nodes id held := by
    rw [nodes]
    exact held
  links link member := by
    rw [links] at member
    exact Or.inl member

namespace EndsStored

theorem empty : WorkflowStore.empty.EndsStored :=
  fun _ member => absurd member List.not_mem_nil

theorem of_extends (stored : store.EndsStored) (grows : store.Extends after) :
    after.EndsStored := by
  have stay : ∀ link, store.HoldsEnds link → after.HoldsEnds link :=
    fun _ ends => ⟨grows.nodes _ ends.1, grows.nodes _ ends.2⟩
  intro link member
  rcases grows.links link member with old | ends
  · exact stay _ (stored link old)
  · exact stay _ ends

theorem withoutNodes (stored : store.EndsStored) (gone : NodeId → Bool) :
    (store.withoutNodes gone).EndsStored := by
  intro link member
  rcases Table.mem_rows_filter.mp member with ⟨listed, spared⟩
  rw [Bool.and_eq_true, Bool.not_eq_true', Bool.not_eq_true'] at spared
  have ends := stored link listed
  exact ⟨contains_withoutNodes ends.1 spared.1, contains_withoutNodes ends.2 spared.2⟩

theorem withoutVersions (stored : store.EndsStored) (gone : VersionId → Bool) :
    (store.withoutVersions gone).EndsStored := by
  intro link member
  exact stored.withoutNodes _ link (Table.mem_rows_filter.mp member).1

end EndsStored

end WorkflowStore

namespace WorkflowCall

variable {store : WorkflowStore}

/-- True for the calls that may take nodes away. -/
def deletesNodes : WorkflowCall → Bool
  | deleteWorkflow _ | deleteVersion _ | deleteNode _ => true
  | _ => false

theorem endsStored_of_deletesNodes {request : WorkflowCall} (deletes : request.deletesNodes = true)
    (stored : store.EndsStored) : (WorkflowStore.handler request store).2.EndsStored := by
  cases request with
  | deleteWorkflow id =>
    show (store.deleteWorkflow id).2.EndsStored
    by_cases held : store.workflows.contains id = true
    · rw [WorkflowStore.deleteWorkflow_of_contains held]
      exact stored.withoutVersions _
    · rw [WorkflowStore.deleteWorkflow, if_neg held]
      exact stored
  | deleteVersion id =>
    show (store.deleteVersion id).2.EndsStored
    by_cases held : store.versions.contains id = true
    · rw [WorkflowStore.deleteVersion_of_contains held]
      exact stored.withoutVersions _
    · rw [WorkflowStore.deleteVersion, if_neg held]
      exact stored
  | deleteNode id =>
    show (store.deleteNode id).2.EndsStored
    by_cases held : store.nodes.contains id = true
    · rw [WorkflowStore.deleteNode_of_contains held]
      exact stored.withoutNodes _
    · rw [WorkflowStore.deleteNode, if_neg held]
      exact stored
  | _ => cases deletes

/-- The other calls, but for the update of a link, add to the graph or leave it as it is. -/
theorem extends_handler {request : WorkflowCall} (keeps : request.deletesNodes = false)
    (noUpdate : ∀ given, request ≠ updateLink given) :
    store.Extends (WorkflowStore.handler request store).2 := by
  cases request with
  | deleteWorkflow => cases keeps
  | deleteVersion => cases keeps
  | deleteNode => cases keeps
  | updateLink given => exact absurd rfl (noUpdate given)
  | insertNode node =>
    show store.Extends (store.insertNode node).2
    unfold WorkflowStore.insertNode
    split
    · exact ⟨fun id held => Table.contains_insert.mpr (Or.inr held), fun _ => Or.inl⟩
    · exact .of_same rfl rfl
  | updateNode node =>
    show store.Extends (store.updateNode node).2
    unfold WorkflowStore.updateNode
    split
    · exact ⟨fun id held => (Table.contains_modify (by intro held; rfl)).mpr held, fun _ => Or.inl⟩
    · exact .of_same rfl rfl
  | insertLink link =>
    show store.Extends (store.insertLink link).2
    unfold WorkflowStore.insertLink
    split
    · rename_i ends
      refine ⟨fun _ held => held, ?_⟩
      intro other member
      rcases Table.mem_rows_insert.mp member with rfl | ⟨old, _⟩
      · exact Or.inr ((Bool.and_eq_true _ _).mp ends)
      · exact Or.inl old
    · exact .of_same rfl rfl
  | deleteLink id =>
    show store.Extends (store.deleteLink id).2
    unfold WorkflowStore.deleteLink
    split
    · exact ⟨fun _ held => held, fun _ member => Or.inl (Table.mem_rows_erase.mp member).1⟩
    · exact .of_same rfl rfl
  | updateWorkflow workflow =>
    show store.Extends (store.updateWorkflow workflow).2
    unfold WorkflowStore.updateWorkflow
    split <;> exact .of_same rfl rfl
  | insertVersion version =>
    show store.Extends (store.insertVersion version).2
    unfold WorkflowStore.insertVersion
    split
    · exact .of_same rfl rfl
    · split <;> exact .of_same rfl rfl
  | updateVersion version =>
    show store.Extends (store.updateVersion version).2
    unfold WorkflowStore.updateVersion
    split
    · exact .of_same rfl rfl
    · split <;> exact .of_same rfl rfl
  | insertLog entry =>
    show store.Extends (store.insertLog entry).2
    unfold WorkflowStore.insertLog
    split <;> exact .of_same rfl rfl
  | _ => exact .of_same rfl rfl

/-- What the update of a link leaves behind, whatever was checked before it. -/
theorem endsStored_updateLink_iff (stored : store.EndsStored) (given : Link) :
    (store.updateLink given).2.EndsStored ↔
      (store.links.contains given.id = true → store.HoldsEnds given.toNewLink) := by
  by_cases held : store.links.contains given.id = true
  · rw [WorkflowStore.updateLink, if_pos held]
    constructor
    · intro after _
      rcases Table.contains_iff.mp held with ⟨link, member, named⟩
      have written := after _
        ((Table.mem_rows_modify (by intro held; rfl)).mpr ⟨link, member, rfl⟩)
      rw [if_pos named] at written
      exact written
    · intro ends
      refine stored.of_extends ⟨fun _ held => held, ?_⟩
      intro link member
      rcases (Table.mem_rows_modify (by intro held; rfl)).mp member with ⟨old, listed, rfl⟩
      split
      · exact Or.inr (ends held)
      · exact Or.inl listed
  · rw [WorkflowStore.updateLink, if_neg held]
    exact iff_of_true stored (fun here => absurd here held)

theorem endsStored_handler {request : WorkflowCall} (noUpdate : ∀ given, request ≠ updateLink given)
    (stored : store.EndsStored) : (WorkflowStore.handler request store).2.EndsStored := by
  by_cases deletes : request.deletesNodes = true
  · exact endsStored_of_deletesNodes deletes stored
  · exact stored.of_extends (extends_handler (Bool.eq_false_iff.mpr deletes) noUpdate)

end WorkflowCall

/-! ## Edits as programs -/

namespace WorkflowEdit

variable {store : WorkflowStore}

/-- True for the edits that may take nodes away. -/
def deletesNodes : WorkflowEdit → Bool
  | deleteWorkflow _ | deleteVersion _ | deleteNode _ => true
  | _ => false

/-- True for the updates of links. -/
def relinks : WorkflowEdit → Bool
  | updateLink _ => true
  | _ => false

/-- The calls that an edit may make: only some edits take nodes away, or write to a link. -/
def Makes (edit : WorkflowEdit) (request : WorkflowCall) : Prop :=
  (request.deletesNodes = true → edit.deletesNodes = true) ∧
    ∀ given, request = .updateLink given → edit.relinks = true

/-- An edit as one of several; nobody waits for what it yields. -/
def job (edit : Timestamp × WorkflowEdit) : Program workflowCalls Unit :=
  (edit.2.program edit.1).run >>= fun _ => pure ()

theorem only_checkEnds {edit : WorkflowEdit} (link : NewLink) :
    link.checkEnds.run.Only edit.Makes := by
  have one : ∀ id, (NewLink.checkEnd link.versionId id).run.Only edit.Makes := by
    intro id
    apply Program.Only.exceptBind (only_ask ⟨nofun, nofun⟩)
    intro node
    dsimp only
    split
    · exact .done _
    · exact .done _
  exact .exceptBind (one link.parent) fun _ => one link.child

theorem only_program (now : Timestamp) (edit : WorkflowEdit) :
    (edit.program now).run.Only edit.Makes := by
  cases edit with
  | createWorkflow => exact only_ask ⟨nofun, nofun⟩
  | updateWorkflow => exact .exceptBind (only_ask ⟨nofun, nofun⟩) fun _ => .done _
  | deleteWorkflow => exact only_ask ⟨fun _ => rfl, nofun⟩
  | cloneOrCreateVersion workflowId number name =>
    have looks : (Version.copySource workflowId number).run.Only
        (Makes (cloneOrCreateVersion workflowId number name)) := by
      unfold Version.copySource
      split
      · exact only_ask ⟨nofun, nofun⟩
      · exact only_ask ⟨nofun, nofun⟩
    apply Program.Only.exceptBind looks
    intro source
    cases source with
    | some held => exact .done _
    | none => exact only_ask ⟨nofun, nofun⟩
  | updateVersion => exact .exceptBind (only_ask ⟨nofun, nofun⟩) fun _ => .done _
  | deleteVersion => exact only_ask ⟨fun _ => rfl, nofun⟩
  | addNode given =>
    show (Node.add now given).run.Only _
    unfold Node.add
    cases given.checkParameters none with
    | error error => exact .done _
    | ok parameters => exact only_ask ⟨nofun, nofun⟩
  | updateNode given =>
    show (Node.update now given).run.Only _
    unfold Node.update
    cases given.readParameters with
    | error error => exact .done _
    | ok parameters =>
      apply Program.Only.exceptBind (.done _)
      intro _
      exact .exceptBind (only_ask ⟨nofun, nofun⟩) fun _ => .done _
  | deleteNode => exact only_ask ⟨fun _ => rfl, nofun⟩
  | addLink given => exact .exceptBind (only_checkEnds given) fun _ => only_ask ⟨nofun, nofun⟩
  | updateLink given =>
    apply Program.Only.exceptBind (only_checkEnds given.toNewLink)
    intro _
    exact .exceptBind (only_ask ⟨nofun, fun _ _ => rfl⟩) fun _ => .done _
  | deleteLink => exact only_ask ⟨nofun, nofun⟩
  | appendLog => exact .exceptBind (only_ask ⟨nofun, nofun⟩) fun _ => .done _

theorem only_job (edit : Timestamp × WorkflowEdit) : (job edit).Only edit.2.Makes :=
  .bind (only_program edit.1 edit.2) fun _ => .done _

/-- What an edit may call where no node is taken away: it writes to a link only while both the ends
that it gives are stored. -/
def Safe (edit : Timestamp × WorkflowEdit) (store : WorkflowStore) (request : WorkflowCall) :
    Prop :=
  edit.2.Makes request ∧ request.deletesNodes = false ∧
    ∀ given, request = .updateLink given → store.HoldsEnds given.toNewLink

/-- No link loses an end. -/
def KeepsEnds (before after : WorkflowStore) : Prop :=
  before.EndsStored → after.EndsStored

/-- No node is taken away, and no link loses an end. -/
def Keeping (before after : WorkflowStore) : Prop :=
  before.NodesStay after ∧ KeepsEnds before after

theorem keeping_discipline : Crew.Discipline WorkflowStore.handler Safe Keeping where
  refl _ := ⟨fun _ held => held, id⟩
  trans first second := ⟨fun id held => second.1 id (first.1 id held), second.2 ∘ first.2⟩
  moves := by
    intro edit state request safe
    rcases safe with ⟨_, keeps, ends⟩
    by_cases update : ∃ given, request = .updateLink given
    · rcases update with ⟨given, rfl⟩
      refine ⟨?_, fun stored => ?_⟩
      · show state.NodesStay (state.updateLink given).2
        unfold WorkflowStore.updateLink
        split <;> exact fun _ held => held
      · exact (WorkflowCall.endsStored_updateLink_iff stored given).mpr fun _ => ends given rfl
    · have noUpdate : ∀ given, request ≠ .updateLink given :=
        fun given same => update ⟨given, same⟩
      have grows : state.Extends _ := WorkflowCall.extends_handler keeps noUpdate
      exact ⟨grows.nodes, fun stored => stored.of_extends grows⟩

theorem Safe.of_keeping {edit : Timestamp × WorkflowEdit} {before after : WorkflowStore}
    {request : WorkflowCall} (moved : Keeping before after) (safe : Safe edit before request) :
    Safe edit after request := by
  refine ⟨safe.1, safe.2.1, ?_⟩
  intro given same
  have ends := safe.2.2 given same
  exact ⟨moved.1 _ ends.1, moved.1 _ ends.2⟩

theorem contains_of_placed {version : VersionId} {id : NodeId}
    (placed : (store.node? id).map (fun node => node.versionId) = some version) :
    store.nodes.contains id = true := by
  rcases Option.map_eq_some_iff.mp placed with ⟨node, found, _⟩
  exact Option.isSome_iff_exists.mpr ⟨node, found⟩

/-- The check finds each end in a turn of its own, and where nothing is deleted both are still
there when the write comes. -/
theorem keeps_updateLink (now : Timestamp) (given : Link) :
    (job (now, updateLink given)).Keeps WorkflowStore.handler Keeping
      (Safe (now, updateLink given)) store := by
  refine .call (fun _ _ => ⟨⟨nofun, nofun⟩, rfl, nofun⟩) ?_
  intro first _
  show Program.Keeps _ _ _ first
    (Program.bind (Program.bind (Program.bind (ExceptT.run (if _ then _ else _)) _) _) _)
  split
  · rename_i parentPlaced
    refine .call (fun _ _ => ⟨⟨nofun, nofun⟩, rfl, nofun⟩) ?_
    intro second firstMoved
    show Program.Keeps _ _ _ second
      (Program.bind (Program.bind (ExceptT.run (if _ then _ else _)) _) _)
    split
    · rename_i childPlaced
      refine .call ?_ (fun _ _ => ?_)
      · intro third secondMoved
        refine ⟨⟨nofun, fun _ _ => rfl⟩, rfl, ?_⟩
        rintro written ⟨⟩
        have parentHeld := firstMoved.1 _ (contains_of_placed parentPlaced)
        exact ⟨secondMoved.1 _ parentHeld, secondMoved.1 _ (contains_of_placed childPlaced)⟩
      · generalize (WorkflowStore.handler _ _).1 = answer
        cases answer with
        | ok _ => exact .done _ _
        | error _ => exact .done _ _
    · exact .done _ _
  · exact .done _ _

theorem keeps_job {edit : Timestamp × WorkflowEdit} (keeps : edit.2.deletesNodes = false) :
    (job edit).Keeps WorkflowStore.handler Keeping (Safe edit) store := by
  by_cases update : ∃ given, edit.2 = updateLink given
  · rcases edit with ⟨now, edit⟩
    rcases update with ⟨given, rfl⟩
    exact keeps_updateLink now given
  · apply keeping_discipline.keeps_of_only Safe.of_keeping
    apply (only_job edit).mono
    intro request makes
    refine ⟨makes, ?_, ?_⟩
    · apply Bool.eq_false_iff.mpr
      intro deletes
      rw [makes.1 deletes] at keeps
      cases keeps
    · intro given same
      have relinks := makes.2 given same
      rcases edit with ⟨now, edit⟩
      cases edit with
      | updateLink other => exact absurd ⟨other, rfl⟩ update
      | _ => cases relinks

/-! ## Any edits, any schedule -/

/-- Edits that are about to work on the empty store. -/
def together (edits : List (Timestamp × WorkflowEdit)) :
    Crew workflowCalls Unit WorkflowStore :=
  ⟨.empty, edits.map job⟩

/-- In its next turn a worker leads a stored link over to two nodes that are not both stored. -/
def Overtaken (crew : Crew workflowCalls Unit WorkflowStore) (worker : Nat) : Prop :=
  ∃ given next, crew.programs[worker]? = some (.call (.updateLink given) next) ∧
    crew.state.links.contains given.id = true ∧ ¬ crew.state.HoldsEnds given.toNewLink

theorem endsStored_turn_iff {crew : Crew workflowCalls Unit WorkflowStore}
    (stored : crew.state.EndsStored) (worker : Nat) :
    (crew.turn WorkflowStore.handler worker).state.EndsStored ↔ ¬ Overtaken crew worker := by
  rcases Crew.turn_cases WorkflowStore.handler crew worker with
    ⟨idle, exchangesNone⟩ | ⟨request, next, calls⟩
  · rw [idle]
    refine iff_of_true stored ?_
    rintro ⟨given, next, calls, _⟩
    rw [Crew.exchange?_of_call calls] at exchangesNone
    cases exchangesNone
  · rw [Crew.turn_of_call calls]
    by_cases update : ∃ given, request = .updateLink given
    · rcases update with ⟨given, rfl⟩
      have written : (WorkflowStore.handler (.updateLink given) crew.state).2.EndsStored ↔ _ :=
        WorkflowCall.endsStored_updateLink_iff stored given
      refine written.trans ⟨?_, ?_⟩
      · rintro ends ⟨other, _, same, held, missing⟩
        rw [calls] at same
        cases same
        exact missing (ends held)
      · intro onTime held
        by_contra missing
        exact onTime ⟨given, next, calls, held, missing⟩
    · have noUpdate : ∀ given, request ≠ .updateLink given :=
        fun given same => update ⟨given, same⟩
      refine iff_of_true (WorkflowCall.endsStored_handler noUpdate stored) ?_
      rintro ⟨given, _, same, _⟩
      rw [calls] at same
      cases same
      exact update ⟨given, rfl⟩

variable {edits : List (Timestamp × WorkflowEdit)}

/-- What an edit may call that writes to no link. -/
def Plain (edit : Timestamp × WorkflowEdit) (_ : WorkflowStore) (request : WorkflowCall) : Prop :=
  edit.2.Makes request ∧ ∀ given, request ≠ .updateLink given

theorem plain_discipline : Crew.Discipline WorkflowStore.handler Plain KeepsEnds where
  refl _ := id
  trans first second := second ∘ first
  moves plain stored := WorkflowCall.endsStored_handler plain.2 stored

/-- Where no link is updated, every link keeps its ends. -/
theorem endsStored_of_relinks_eq_false (none : ∀ edit ∈ edits, edit.2.relinks = false)
    (schedule : List Nat) :
    ((together edits).after WorkflowStore.handler schedule).state.EndsStored := by
  have fit : (together edits).Fit WorkflowStore.handler Plain KeepsEnds edits := by
    apply Crew.Fit.start
    intro edit member
    apply plain_discipline.keeps_of_only (fun _ plain => plain)
    apply (only_job edit).mono
    intro request makes
    refine ⟨makes, ?_⟩
    intro given same
    have relinks := makes.2 given same
    rw [none edit member] at relinks
    cases relinks
  exact plain_discipline.moves_after fit schedule .empty

/-- Where nothing is deleted, every link keeps its ends. -/
theorem endsStored_of_deletesNodes_eq_false (none : ∀ edit ∈ edits, edit.2.deletesNodes = false)
    (schedule : List Nat) :
    ((together edits).after WorkflowStore.handler schedule).state.EndsStored := by
  have fit : (together edits).Fit WorkflowStore.handler Safe Keeping edits :=
    Crew.Fit.start fun edit member => keeps_job (none edit member)
  exact (keeping_discipline.moves_after fit schedule).2 .empty

/-- In all states that edits pass through when they take turns on a store that was empty, every
link has both its ends, exactly if none of their turns is the write of a link update to nodes that
are not both stored any more.  It takes an update of a link and a delete for such a turn. -/
theorem interleaved_ends_stored_iff (edits : List (Timestamp × WorkflowEdit))
    (schedule : List Nat) :
    ((∀ before after, schedule = before ++ after →
        ((together edits).after WorkflowStore.handler before).state.EndsStored) ↔
      ∀ before worker after, schedule = before ++ worker :: after →
        ¬ Overtaken ((together edits).after WorkflowStore.handler before) worker) ∧
    ((∀ edit ∈ edits, edit.2.relinks = false) ∨ (∀ edit ∈ edits, edit.2.deletesNodes = false) →
      ∀ before after, schedule = before ++ after →
        ((together edits).after WorkflowStore.handler before).state.EndsStored) := by
  constructor
  · have one : ∀ (crew : Crew workflowCalls Unit WorkflowStore) (worker : Nat),
        crew.state.EndsStored →
          ((crew.turn WorkflowStore.handler worker).state.EndsStored ↔ ¬ Overtaken crew worker) :=
      fun crew worker stored => endsStored_turn_iff stored worker
    exact foldl_throughout_iff one .empty schedule
  · rintro (noUpdate | noDelete) before _ _
    · exact endsStored_of_relinks_eq_false noUpdate before
    · exact endsStored_of_deletesNodes_eq_false noDelete before

/-- Link 6 leads from node 3 to node 4, and its update leads it over to come from node 5, which is
deleted at the same time. -/
def relinking : List (Timestamp × WorkflowEdit) :=
  atOnce
    [createNamed "fees", .cloneOrCreateVersion ⟨1⟩ 1 "first", .addNode (.plain ⟨2⟩),
      .addNode (.plain ⟨2⟩), .addNode (.plain ⟨2⟩), .addLink (.plain ⟨2⟩ ⟨3⟩ ⟨4⟩),
      .updateLink ((NewLink.plain ⟨2⟩ ⟨5⟩ ⟨4⟩).withId ⟨6⟩), .deleteNode ⟨5⟩]

/-- The delete comes after the update has found both ends and before it writes. -/
theorem not_endsStored_relinking :
    let store := ((together relinking).after WorkflowStore.handler
      [0, 1, 1, 2, 3, 4, 5, 5, 5, 6, 6, 7, 6]).state
    ¬ store.EndsStored ∧ store.node? ⟨5⟩ = none ∧
      ∃ link ∈ store.links.rows, link.id = ⟨6⟩ ∧ link.parent = ⟨5⟩ := by
  decide +kernel

end WorkflowEdit

end NodeSteward
