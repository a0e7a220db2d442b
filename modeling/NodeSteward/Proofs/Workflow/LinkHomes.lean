import NodeSteward.Proofs.Workflow.Consistency
import NodeSteward.Proofs.Workflow.Expansion

/-!
# The version that a link carries

A link carries the identifier of a version, and both of its ends are to be nodes of that version.
Adding a link checks the version that is then stored with it.  Updating one does not: the ends are
looked for in the version that the caller hands in, while the link keeps the version that it was
added to.  So an update can lead a link over to the nodes of another version, if the caller names
that one, and the link is then deleted with a version to which neither end belongs.

A history of edits keeps links at home exactly as long as no update of that kind is made.
-/

namespace NodeSteward

namespace WorkflowStore

variable {store : WorkflowStore}

instance (store : WorkflowStore) (version : VersionId) (id : NodeId) :
    Decidable (store.InVersion version id) :=
  inferInstanceAs (Decidable (∃ node ∈ store.nodes.rows, node.id = id ∧ node.versionId = version))

/-- Both ends of a link are stored nodes of the version that the link carries. -/
def AtHome (store : WorkflowStore) (link : Link) : Prop :=
  store.InVersion link.versionId link.parent ∧ store.InVersion link.versionId link.child

instance (store : WorkflowStore) (link : Link) : Decidable (store.AtHome link) :=
  inferInstanceAs (Decidable (_ ∧ _))

/-- Every link is at home. -/
def LinksAtHome (store : WorkflowStore) : Prop :=
  ∀ link ∈ store.links.rows, store.AtHome link

instance (store : WorkflowStore) : Decidable store.LinksAtHome :=
  inferInstanceAs (Decidable (∀ link ∈ store.links.rows, store.AtHome link))

/-- Deleting a version removes no link between nodes of another one. -/
def DeletesApart (store : WorkflowStore) : Prop :=
  ∀ deleted version, version ≠ deleted → ∀ link ∈ store.links.rows,
    store.InVersion version link.parent → store.InVersion version link.child →
      link ∈ (store.deleteVersion deleted).2.links.rows

/-- An update that passes the check on its ends in the version that it names, although the link
that it updates carries another version. -/
structure Strays (store : WorkflowStore) (given : Link) : Prop where
  parent : store.InVersion given.versionId given.parent
  child : store.InVersion given.versionId given.child
  foreign : ∃ held ∈ store.links.rows, held.id = given.id ∧ held.versionId ≠ given.versionId

namespace LinksAtHome

theorem empty : WorkflowStore.empty.LinksAtHome :=
  fun _ member => absurd member List.not_mem_nil

/-- Changes that leave every node in its version keep the links at home that were there before. -/
theorem of_stays (home : store.LinksAtHome) {after : WorkflowStore}
    (stays : ∀ version id, store.InVersion version id → after.InVersion version id)
    (links : ∀ link ∈ after.links.rows, link ∈ store.links.rows ∨ after.AtHome link) :
    after.LinksAtHome := by
  intro link member
  rcases links link member with old | placed
  · exact ⟨stays _ _ (home link old).1, stays _ _ (home link old).2⟩
  · exact placed

theorem withoutNodes (home : store.LinksAtHome) (gone : NodeId → Bool) :
    (store.withoutNodes gone).LinksAtHome := by
  intro link member
  rcases Table.mem_rows_filter.mp member with ⟨listed, spared⟩
  rw [Bool.and_eq_true, Bool.not_eq_true', Bool.not_eq_true'] at spared
  exact ⟨(home link listed).1.withoutNodes spared.1, (home link listed).2.withoutNodes spared.2⟩

theorem withoutVersions (home : store.LinksAtHome) (gone : VersionId → Bool) :
    (store.withoutVersions gone).LinksAtHome := by
  intro link member
  rcases Table.mem_rows_filter.mp member with ⟨inner, spared⟩
  have listed := (Table.mem_rows_filter.mp inner).1
  rw [Bool.not_eq_true'] at spared
  exact ⟨(home link listed).1.withoutVersions spared, (home link listed).2.withoutVersions spared⟩

/-- Edits other than the update of a link keep links at home. -/
theorem of_changes {after : WorkflowStore} {edit : WorkflowEdit} (home : store.LinksAtHome)
    (consistent : store.Consistent) (changes : store.Changes edit after)
    (noUpdate : ∀ given, edit ≠ .updateLink given) : after.LinksAtHome := by
  cases changes with
  | nothing => exact home
  | workflowAdded => exact home
  | workflowWritten => exact home
  | workflowDeleted => exact home.withoutVersions _
  | versionAdded => exact home
  | versionWritten => exact home
  | versionDeleted => exact home.withoutVersions _
  | nodeAdded given node =>
    exact home.of_stays (fun _ _ => consistent.inVersion_addNode node) (fun _ => Or.inl)
  | nodeWritten given change keeps owner =>
    exact home.of_stays (fun _ _ stored => stored.writeNode given.id owner) (fun _ => Or.inl)
  | nodeDeleted => exact home.withoutNodes _
  | linkAdded given link same parent child =>
    refine home.of_stays (fun _ _ stored => stored) ?_
    intro other member
    rcases Table.mem_rows_insert.mp member with rfl | ⟨old, _⟩
    · rw [← same.1, ← same.2.1] at parent
      rw [← same.1, ← same.2.2] at child
      exact Or.inr ⟨parent, child⟩
    · exact Or.inl old
  | linkWritten given => exact absurd rfl (noUpdate given)
  | linkDeleted =>
    exact home.of_stays (fun _ _ stored => stored)
      (fun _ member => Or.inl (Table.mem_rows_erase.mp member).1)
  | logAdded => exact home

/-- Leading a stored link over to nodes of one version keeps links at home exactly if the link
carries that version. -/
theorem modify_iff (home : store.LinksAtHome) {id : LinkId} {parent child : NodeId}
    {version : VersionId} {change : Link → Link}
    (keeps : ∀ held, Filed.idOf (change held) = (Filed.idOf held : LinkId))
    (owner : ∀ held, (change held).versionId = held.versionId)
    (joins : ∀ held, (change held).parent = parent ∧ (change held).child = child)
    (parentIn : store.InVersion version parent) (childIn : store.InVersion version child) :
    LinksAtHome { store with links := store.links.modify id change keeps } ↔
      ∀ held ∈ store.links.rows, held.id = id → held.versionId = version := by
  constructor
  · intro after held member named
    have written : (if held.id = id then change held else held) ∈
        (store.links.modify id change keeps).rows :=
      (Table.mem_rows_modify keeps).mpr ⟨held, member, rfl⟩
    rw [if_pos named] at written
    have moved : store.InVersion (change held).versionId (change held).parent :=
      (after _ written).1
    rw [owner, (joins held).1] at moved
    exact moved.unique parentIn
  · intro own
    refine home.of_stays (fun _ _ stored => stored) ?_
    intro other member
    rcases (Table.mem_rows_modify keeps).mp member with ⟨held, old, rfl⟩
    split
    · rename_i named
      have carried : (change held).versionId = version := (owner held).trans (own held old named)
      refine Or.inr ⟨?_, ?_⟩
      · rw [carried, (joins held).1]
        exact parentIn
      · rw [carried, (joins held).2]
        exact childIn
    · exact Or.inl old

/-- What the update of a link does, once the check on its ends has passed; the new stamp does not
matter. -/
theorem updateLink_iff (home : store.LinksAtHome) (given : Link) (now : Timestamp)
    (parent : store.InVersion given.versionId given.parent)
    (child : store.InVersion given.versionId given.child) :
    (store.updateLink { given with updatedOn := now }).2.LinksAtHome ↔ ¬ store.Strays given := by
  by_cases held : store.links.contains given.id = true
  · rw [updateLink, if_pos held]
    refine (home.modify_iff (by intro held; rfl) (by intro held; rfl)
      (by intro held; exact ⟨rfl, rfl⟩) parent child).trans ?_
    constructor
    · intro own strays
      rcases strays.foreign with ⟨link, member, named, other⟩
      exact other (own link member named)
    · intro noStray link member named
      by_contra other
      exact noStray ⟨parent, child, link, member, named, other⟩
  · rw [updateLink, if_neg held]
    refine iff_of_true home ?_
    intro strays
    rcases strays.foreign with ⟨link, member, named, _⟩
    exact held (named ▸ Table.contains_of_mem member)

/-- Where links are at home, a version takes only its own links along. -/
theorem deletesApart (home : store.LinksAtHome) : store.DeletesApart := by
  intro deleted version other link member parent child
  by_cases held : store.versions.contains deleted = true
  · have spared : ∀ id, store.InVersion version id →
        store.nodeWithin (fun version => version = deleted) id = false := by
      rintro id ⟨node, nodeMember, rfl, rfl⟩
      rw [nodeWithin_of_mem nodeMember]
      exact decide_eq_false other
    have carried : link.versionId = version := (home link member).1.unique parent
    rw [deleteVersion_of_contains held]
    refine Table.mem_rows_filter.mpr ⟨Table.mem_rows_filter.mpr ⟨member, ?_⟩, ?_⟩
    · rw [spared _ parent, spared _ child]
      rfl
    · rw [carried, Bool.not_eq_true']
      exact decide_eq_false other
  · rw [deleteVersion, if_neg held]
    exact member

end LinksAtHome

end WorkflowStore

namespace WorkflowEdit

variable {store : WorkflowStore}

/-- The edit is an update that leads a link astray. -/
def Strays (store : WorkflowStore) : WorkflowEdit → Prop
  | updateLink given => store.Strays given
  | _ => False

/-- One edit keeps links at home exactly if it leads none astray. -/
theorem apply_linksAtHome_iff (consistent : store.Consistent) (home : store.LinksAtHome)
    (now : Timestamp) (edit : WorkflowEdit) :
    (edit.apply store now).LinksAtHome ↔ ¬ edit.Strays store := by
  by_cases update : ∃ given, edit = updateLink given
  · rcases update with ⟨given, rfl⟩
    rcases apply_updateLink store now given with ⟨parent, child, run⟩ | ⟨failed, run⟩
    · rw [run]
      exact home.updateLink_iff given now parent child
    · rw [run]
      exact iff_of_true home (fun strays => failed ⟨strays.parent, strays.child⟩)
  · have noUpdate : ∀ given, edit ≠ updateLink given := fun given same => update ⟨given, same⟩
    refine iff_of_true (home.of_changes consistent (apply_changes store now edit) noUpdate) ?_
    intro strays
    cases edit with
    | updateLink given => exact noUpdate given rfl
    | _ => exact strays

/-- In the states after the parts of a history of edits, both ends of every link are nodes of the
version that the link carries and deleting a version spares the links of all others, exactly if no
edit of the history is an update that leads a link over to another version. -/
theorem edited_links_at_home_iff (edits : List (Timestamp × WorkflowEdit)) :
    (∀ before after, edits = before ++ after →
      (applyAll .empty before).LinksAtHome ∧ (applyAll .empty before).DeletesApart) ↔
      ∀ before edit after, edits = before ++ edit :: after →
        ¬ edit.2.Strays (applyAll .empty before) := by
  have step : ∀ (store : WorkflowStore) (now : Timestamp) (edit : WorkflowEdit),
      store.Consistent ∧ store.LinksAtHome →
        ((edit.apply store now).Consistent ∧ (edit.apply store now).LinksAtHome ↔
          ¬ edit.Strays store) := by
    intro store now edit holds
    rw [← apply_linksAtHome_iff holds.1 holds.2 now edit]
    exact and_iff_right (holds.1.of_changes (apply_changes store now edit))
  rw [← applyAll_throughout_iff step ⟨.empty, .empty⟩ edits]
  constructor
  · intro home before after split
    exact ⟨.applyAll before, (home before after split).1⟩
  · intro home before after split
    exact ⟨(home before after split).2, (home before after split).2.deletesApart⟩

/-- Link 8 of version 2 is led over to the nodes of version 3 by an update that names version 3. -/
def foreignRelinking : List (Timestamp × WorkflowEdit) :=
  atOnce
    [createNamed "fees", .cloneOrCreateVersion ⟨1⟩ 1 "first",
      .cloneOrCreateVersion ⟨1⟩ 2 "second", .addNode (.plain ⟨2⟩), .addNode (.plain ⟨2⟩),
      .addNode (.plain ⟨3⟩), .addNode (.plain ⟨3⟩), .addLink (.plain ⟨2⟩ ⟨4⟩ ⟨5⟩),
      .updateLink ((NewLink.plain ⟨3⟩ ⟨6⟩ ⟨7⟩).withId ⟨8⟩)]

/-- The link joins nodes of version 3, but is deleted with version 2. -/
theorem not_linksAtHome_foreignRelinking :
    let store := applyAll .empty foreignRelinking
    ¬ store.LinksAtHome ∧ ∃ link ∈ store.links.rows, store.InVersion ⟨3⟩ link.parent ∧
      store.InVersion ⟨3⟩ link.child ∧ link ∉ (store.deleteVersion ⟨2⟩).2.links.rows := by
  decide +kernel

end WorkflowEdit

end NodeSteward
