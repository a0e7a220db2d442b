import NodeSteward.Proofs.Workflow.Change
import NodeSteward.Proofs.Workflow.Payload
import NodeSteward.Schedule.Interval

/-!
# The intervals of stored triggers

The parameters of a node are read before the node is written, whether it is new or not, so that the
parameters of every stored node can be read.  What they say about the interval is then the value in
the first record of this type, and nothing else: a positive integer of 64 bits is the interval in
seconds, another integer of 64 bits is refused with its value, and in all other cases there is no
interval.
-/

namespace NodeSteward

open WorkflowProgram (outcome outcome_bind_of_ok)

namespace Json

variable {members : List (String × Json)} {name : String} {value : Json}

/-- Where each name stands once, a look-up finds exactly the members. -/
theorem member?_eq_some_iff (ascending : Ascending members) :
    member? name members = some value ↔ (name, value) ∈ members := by
  induction members with
  | nil => simp [member?]
  | cons held members ih =>
    rcases held with ⟨other, content⟩
    rw [Ascending, List.map_cons, List.pairwise_cons] at ascending
    rw [member?, List.mem_cons, Prod.mk.injEq]
    split
    · rename_i same
      subst same
      have once : (other, value) ∉ members := fun again =>
        absurd (ascending.1 other (List.mem_map_of_mem again)) (String.lt_irrefl other)
      simp [once, eq_comm]
    · rename_i different
      rw [ih ascending.2]
      simp [Ne.symm different]

theorem asInt64?_eq_some_iff {number : Int} :
    asInt64? value = some number ↔
      value = .ofInt number ∧ -0x8000000000000000 ≤ number ∧ number < 0x8000000000000000 := by
  constructor
  · intro holds
    unfold asInt64? at holds
    split at holds
    · split at holds
      · rename_i fits
        cases holds
        exact ⟨rfl, fits⟩
      · cases holds
    · cases holds
  · rintro ⟨rfl, fits⟩
    exact if_pos fits

end Json

namespace Parameters

variable {parameters : Parameters} {type : ParameterType} {value : Json}

/-- The first record of a type has a value. -/
def Gives (parameters : Parameters) (type : ParameterType) (value : Json) : Prop :=
  ∃ earlier record later, parameters.records = earlier ++ record :: later ∧
    (∀ other ∈ earlier, other.type ≠ type.name) ∧ record.type = type.name ∧
    ("value", value) ∈ record.fields

theorem value?_get_eq_some_iff (formed : parameters.Formed) :
    (parameters.get type).value? = some value ↔ parameters.Gives type value := by
  have found_iff : ∀ record,
      parameters.records.find? (fun record => record.type == type.name) = some record ↔
        ∃ earlier later, parameters.records = earlier ++ record :: later ∧
          (∀ other ∈ earlier, other.type ≠ type.name) ∧ record.type = type.name := by
    intro record
    rw [List.find?_eq_some_iff_append]
    simp only [beq_iff_eq, Bool.not_eq_true', beq_eq_false_iff_ne]
    constructor
    · rintro ⟨named, earlier, later, parted, others⟩
      exact ⟨earlier, later, parted, others, named⟩
    · rintro ⟨earlier, later, parted, others, named⟩
      exact ⟨named, earlier, later, parted, others⟩
  have read_iff : ∀ record ∈ parameters.records,
      (record.value? = some value ↔ ("value", value) ∈ record.fields) :=
    fun record listed => Json.member?_eq_some_iff (formed record listed).ascending
  constructor
  · intro given
    unfold get at given
    cases found : parameters.records.find? (fun record => record.type == type.name) with
    | none =>
      rw [found] at given
      cases given
    | some record =>
      rw [found, Option.getD_some, read_iff record (List.mem_of_find?_eq_some found)] at given
      rcases (found_iff record).mp found with ⟨earlier, later, parted, others, named⟩
      exact ⟨earlier, record, later, parted, others, named, given⟩
  · rintro ⟨earlier, record, later, parted, others, named, given⟩
    have found := (found_iff record).mpr ⟨earlier, later, parted, others, named⟩
    rw [get, found, Option.getD_some, read_iff record (List.mem_of_find?_eq_some found)]
    exact given

/-- The first record of the type of intervals has an integer of 64 bits. -/
theorem intValue?_get_eq_some_iff (formed : parameters.Formed) {number : Int} :
    (parameters.get type).intValue? = some number ↔
      parameters.Gives type (.ofInt number) ∧ -0x8000000000000000 ≤ number ∧
        number < 0x8000000000000000 := by
  rw [Parameter.intValue?, Option.bind_eq_some_iff]
  simp only [value?_get_eq_some_iff formed, Json.asInt64?_eq_some_iff]
  constructor
  · rintro ⟨_, given, rfl, fits⟩
    exact ⟨given, fits⟩
  · rintro ⟨given, fits⟩
    exact ⟨_, given, rfl, fits⟩

end Parameters

namespace Node

variable {node : Node} {parameters : Parameters}

theorem readParameters_eq_ok_iff :
    node.readParameters = .ok parameters ↔
      Parameters.ofText? node.parameters = some parameters := by
  unfold readParameters NewNode.checkParameters
  cases Parameters.ofText? node.parameters <;> simp

section Reads

variable (reads : Parameters.ofText? node.parameters = some parameters)
include reads

theorem schedule_of_reads :
    Schedule.ofNode node =
      match (parameters.get .timeInSeconds).intValue? with
      | none => .error (.missingInterval node.id)
      | some seconds =>
        if 0 < seconds then .ok ⟨node.id, seconds.toNat⟩
        else .error (.invalidInterval node.id seconds) := by
  rewrite [Schedule.ofNode, readParameters_eq_ok_iff.mpr reads]
  rfl

theorem schedule_eq_ok_iff {schedule : Schedule} :
    Schedule.ofNode node = .ok schedule ↔
      schedule.node = node.id ∧ 1 ≤ schedule.seconds ∧
        (parameters.get .timeInSeconds).intValue? = some (schedule.seconds : Int) := by
  rw [schedule_of_reads reads]
  rcases schedule with ⟨id, seconds⟩
  cases (parameters.get .timeInSeconds).intValue? with
  | none => simp
  | some value =>
    dsimp only
    split
    · simp only [Except.ok.injEq, Schedule.mk.injEq, Option.some_inj]
      constructor
      · rintro ⟨rfl, rfl⟩
        exact ⟨rfl, by omega, by omega⟩
      · rintro ⟨rfl, _, rfl⟩
        exact ⟨rfl, rfl⟩
    · simp only [reduceCtorEq, Option.some_inj, false_iff]
      omega

theorem schedule_eq_invalid_iff {id : NodeId} {seconds : Int} :
    Schedule.ofNode node = .error (.invalidInterval id seconds) ↔
      id = node.id ∧ seconds ≤ 0 ∧
        (parameters.get .timeInSeconds).intValue? = some seconds := by
  rw [schedule_of_reads reads]
  cases (parameters.get .timeInSeconds).intValue? with
  | none => simp
  | some value =>
    dsimp only
    split
    · simp only [reduceCtorEq, Option.some_inj, false_iff]
      omega
    · simp only [Except.error.injEq, ScheduleError.invalidInterval.injEq, Option.some_inj]
      constructor
      · rintro ⟨rfl, rfl⟩
        exact ⟨rfl, by omega, rfl⟩
      · rintro ⟨rfl, _, rfl⟩
        exact ⟨rfl, rfl⟩

theorem schedule_eq_missing_iff {id : NodeId} :
    Schedule.ofNode node = .error (.missingInterval id) ↔
      id = node.id ∧ (parameters.get .timeInSeconds).intValue? = none := by
  rw [schedule_of_reads reads]
  cases (parameters.get .timeInSeconds).intValue? with
  | none => simp [eq_comm]
  | some value =>
    dsimp only
    split <;> simp

theorem schedule_ne_parameters (error : WorkflowError) :
    Schedule.ofNode node ≠ .error (.parameters error) := by
  rw [schedule_of_reads reads]
  split
  · exact nofun
  · split <;> exact nofun

end Reads

/-- What a node with these parameters comes to as a trigger. -/
structure Timed (node : Node) (parameters : Parameters) : Prop where
  scheduled : ∀ schedule, Schedule.ofNode node = .ok schedule ↔
    schedule.node = node.id ∧ 1 ≤ schedule.seconds ∧ schedule.seconds < 0x8000000000000000 ∧
      parameters.Gives .timeInSeconds (.ofInt schedule.seconds)
  invalid : ∀ id seconds, Schedule.ofNode node = .error (.invalidInterval id seconds) ↔
    id = node.id ∧ -0x8000000000000000 ≤ seconds ∧ seconds ≤ 0 ∧
      parameters.Gives .timeInSeconds (.ofInt seconds)
  missing : ∀ id, Schedule.ofNode node = .error (.missingInterval id) ↔
    id = node.id ∧ ¬ ∃ seconds : Int, -0x8000000000000000 ≤ seconds ∧
      seconds < 0x8000000000000000 ∧ parameters.Gives .timeInSeconds (.ofInt seconds)
  readable : ∀ error, Schedule.ofNode node ≠ .error (.parameters error)

theorem timed (reads : Parameters.ofText? node.parameters = some parameters) :
    node.Timed parameters := by
  have given_iff : ∀ number, (parameters.get .timeInSeconds).intValue? = some number ↔ _ :=
    fun _ => Parameters.intValue?_get_eq_some_iff (Parameters.formed_of_ofText? reads)
  constructor
  case scheduled =>
    intro schedule
    rw [schedule_eq_ok_iff reads, given_iff]
    constructor
    · rintro ⟨named, positive, there, _, fits⟩
      exact ⟨named, positive, by omega, there⟩
    · rintro ⟨named, positive, fits, there⟩
      exact ⟨named, positive, there, by omega, by omega⟩
  case invalid =>
    intro id seconds
    rw [schedule_eq_invalid_iff reads, given_iff]
    constructor
    · rintro ⟨named, negative, there, fits, _⟩
      exact ⟨named, fits, negative, there⟩
    · rintro ⟨named, fits, negative, there⟩
      exact ⟨named, negative, there, fits, by omega⟩
  case missing =>
    intro id
    rw [schedule_eq_missing_iff reads, Option.eq_none_iff_forall_ne_some, not_exists]
    refine and_congr_right fun _ => forall_congr' fun seconds => not_congr ?_
    rw [given_iff, and_comm, and_assoc]
  case readable => exact schedule_ne_parameters reads

end Node

/-! ## Stored nodes -/

namespace WorkflowStore

/-- The parameters of every stored node can be read. -/
def Readable (store : WorkflowStore) : Prop :=
  ∀ node ∈ store.nodes.rows, ∃ parameters, Parameters.ofText? node.parameters = some parameters

variable {store after : WorkflowStore} {edit : WorkflowEdit}

/-- Only two kinds of edits write to nodes; the others leave some of them as they are. -/
theorem Changes.mem_nodes (changes : store.Changes edit after) {node : Node}
    (stored : node ∈ after.nodes.rows) :
    node ∈ store.nodes.rows ∨ (∃ given, edit = .addNode given) ∨
      ∃ given, edit = .updateNode given := by
  cases changes with
  | nodeAdded given => exact Or.inr (Or.inl ⟨given, rfl⟩)
  | nodeWritten given => exact Or.inr (Or.inr ⟨given, rfl⟩)
  | workflowDeleted => exact Or.inl (mem_nodes_withoutVersions.mp stored).1
  | versionDeleted => exact Or.inl (mem_nodes_withoutVersions.mp stored).1
  | nodeDeleted => exact Or.inl (Table.mem_rows_filter.mp stored).1
  | _ => exact Or.inl stored

theorem Readable.insertNode (readable : store.Readable) {given : NewNode} {parameters : Parameters}
    (reads : Parameters.ofText? given.parameters = some parameters) :
    (store.insertNode given).2.Readable := by
  unfold WorkflowStore.insertNode
  split
  · intro node stored
    rcases Table.mem_rows_insert.mp stored with rfl | ⟨old, _⟩
    · exact ⟨parameters, reads⟩
    · exact readable node old
  · exact readable

theorem Readable.writeNode (readable : store.Readable) (id : NodeId) {change : Node → Node}
    {keeps : ∀ held, Filed.idOf (change held) = (Filed.idOf held : NodeId)}
    (reads : ∀ held, ∃ parameters,
      Parameters.ofText? (change held).parameters = some parameters) :
    Readable { store with nodes := store.nodes.modify id change keeps } := by
  intro node stored
  rcases (Table.mem_rows_modify keeps).mp stored with ⟨held, old, rfl⟩
  split
  · exact reads held
  · exact readable held old

theorem Readable.updateNode (readable : store.Readable) {given : Node} {parameters : Parameters}
    (reads : Parameters.ofText? given.parameters = some parameters) :
    (store.updateNode given).2.Readable := by
  unfold WorkflowStore.updateNode
  split
  · exact readable.writeNode given.id fun _ => ⟨parameters, reads⟩
  · exact readable

/-- Every edit keeps the parameters readable: they are read before a node is written. -/
theorem Readable.apply (readable : store.Readable) (now : Timestamp) (edit : WorkflowEdit) :
    (edit.apply store now).Readable := by
  have unwritten : (∀ given, edit ≠ .addNode given) → (∀ given, edit ≠ .updateNode given) →
      (edit.apply store now).Readable := by
    intro adds updates node stored
    rcases (WorkflowEdit.apply_changes store now edit).mem_nodes stored with
      old | ⟨given, same⟩ | ⟨given, same⟩
    · exact readable node old
    · exact absurd same (adds given)
    · exact absurd same (updates given)
  cases edit with
  | addNode given =>
    show (outcome (Node.add now given) store).2.Readable
    unfold Node.add NewNode.checkParameters
    cases reads : Parameters.ofText? given.parameters with
    | none => exact readable
    | some parameters =>
      have inserted : (store.insertNode { given with
          name := now.nameOr given.name
          createdOn := now
          updatedOn := now }).2.Readable := readable.insertNode reads
      exact inserted
  | updateNode given =>
    show (outcome (Node.update now given) store).2.Readable
    unfold Node.update Node.readParameters NewNode.checkParameters
    cases reads : Parameters.ofText? given.parameters with
    | none => exact readable
    | some parameters =>
      have passed : outcome (ofExcept (.ok parameters : Except WorkflowError Parameters)) store =
          (.ok parameters, store) := rfl
      rw [outcome_bind_of_ok passed]
      dsimp only
      rw [WorkflowEdit.snd_outcome_ask_bind_pure]
      show (store.updateNode { given with updatedOn := now }).2.Readable
      exact readable.updateNode reads
  | _ => exact unwritten (fun _ => nofun) (fun _ => nofun)

theorem Readable.applyAll (edits : List (Timestamp × WorkflowEdit)) (readable : store.Readable) :
    (WorkflowEdit.applyAll store edits).Readable := by
  induction edits generalizing store with
  | nil => exact readable
  | cons edit edits ih => exact ih (readable.apply edit.1 edit.2)

end WorkflowStore

namespace WorkflowEdit

/-- After any history of edits the parameters of every stored node can be read.  As a trigger it
gives its interval exactly if the first record of this type has a positive integer of 64 bits, is
refused with the value if that is another integer of 64 bits, and has no interval in all other
cases. -/
theorem edited_intervals_exact (edits : List (Timestamp × WorkflowEdit)) :
    ∀ node ∈ (applyAll .empty edits).nodes.rows,
      ∃ parameters, node.readParameters = .ok parameters ∧ node.Timed parameters := by
  have start : WorkflowStore.empty.Readable := fun _ stored => absurd stored List.not_mem_nil
  intro node stored
  rcases start.applyAll edits node stored with ⟨parameters, reads⟩
  exact ⟨parameters, Node.readParameters_eq_ok_iff.mpr reads, Node.timed reads⟩

/-- A trigger that is given another interval after it was added.  Only the first of the records
with an interval counts. -/
def retimed : List (Timestamp × WorkflowEdit) :=
  let trigger (parameters : String) : NewNode :=
    { versionId := ⟨2⟩, name := "t", type := .timeTrigger, status := .active, parameters,
      visibility := "", createdOn := ⟨0, 0⟩, updatedOn := ⟨0, 0⟩ }
  let records : String :=
    "\x7b\"parameters\":[\x7b\"value\":0\x7d," ++
      "\x7b\"value\":9223372036854775807,\"type\":\"timeInSeconds\"\x7d," ++
      "\x7b\"type\":\"timeInSeconds\",\"value\":60\x7d]\x7d"
  atOnce
    [createNamed "w", .cloneOrCreateVersion ⟨1⟩ 1 "v", .addNode (trigger " "),
      .updateNode ((trigger records).withId ⟨3⟩)]

theorem edited_intervals_exact_retimed :
    ∃ node ∈ (applyAll .empty retimed).nodes.rows, node.type = .timeTrigger ∧
      Schedule.ofNode node = .ok ⟨⟨3⟩, 9223372036854775807⟩ ∧
      ∃ parameters, node.readParameters = .ok parameters ∧ node.Timed parameters := by
  have held : (applyAll .empty retimed).nodes.rows.any (fun node => node.type = .timeTrigger ∧
      Schedule.ofNode node = .ok ⟨⟨3⟩, 9223372036854775807⟩) = true := by decide +kernel
  rcases List.any_eq_true.mp held with ⟨node, stored, checked⟩
  rcases of_decide_eq_true checked with ⟨trigger, gives⟩
  exact ⟨node, stored, trigger, gives, edited_intervals_exact retimed node stored⟩

end WorkflowEdit

end NodeSteward
