import NodeSteward.Proofs.Crew
import NodeSteward.Proofs.Workflow.Numbering

/-!
# Callers that want the same number

Making a version takes two calls to the store.  The first looks whether the number is taken, the
second inserts the version, and in between others have their turns.  So any number of callers can
find a number free.  Only one of them gets it, because the insert checks the number again in the
same call that writes the version.

Versions are made here by callers that take turns with each other and with callers that delete
versions and workflows.  Whatever the schedule, numbers stay apart in all states on the way, and a
caller has put on file just what it has answered: one version of its own workflow and number, or
nothing at all.
-/

namespace NodeSteward

open WorkflowProgram (ask only_ask outcome)

namespace WorkflowStore

variable {store after : WorkflowStore}

/-- The store after some calls, whoever made them, on one that was empty. -/
inductive Reached : WorkflowStore → Prop
  | empty : Reached .empty
  | call {store : WorkflowStore} (reached : Reached store) (request : WorkflowCall) :
    Reached (handler request store).2

/-- Operations only make calls. -/
theorem Reached.run {α : Type} (reached : store.Reached) (program : Program workflowCalls α) :
    (program.run handler store).2.Reached := by
  induction program generalizing store with
  | done result => exact reached
  | call request next ih => exact ih _ (reached.call request)

theorem Reached.applyAll (reached : store.Reached) (edits : List (Timestamp × WorkflowEdit)) :
    (WorkflowEdit.applyAll store edits).Reached := by
  induction edits generalizing store with
  | nil => exact reached
  | cons edit edits ih => exact ih (reached.run (edit.2.program edit.1).run)

/-- No stored version has an identifier that is still to be handed out. -/
def Numbered (store : WorkflowStore) : Prop :=
  ∀ version ∈ store.versions.rows, version.id.raw ≤ store.issued

/-- Every version of the store after is, by its identifier, one of the store before. -/
theorem Numbered.of_ids (numbered : store.Numbered)
    (ids : ∀ version ∈ after.versions.rows, ∃ held ∈ store.versions.rows, held.id = version.id)
    (counted : store.issued ≤ after.issued) : after.Numbered := by
  intro version member
  rcases ids version member with ⟨held, listed, same⟩
  have bound := numbered held listed
  rw [same] at bound
  omega

/-- No version is added and none is changed. -/
structure KeepsVersions (store after : WorkflowStore) : Prop where
  subset : ∀ version ∈ after.versions.rows, version ∈ store.versions.rows
  counted : store.issued ≤ after.issued

theorem KeepsVersions.of_same (versions : after.versions = store.versions)
    (counted : store.issued ≤ after.issued) : store.KeepsVersions after :=
  ⟨fun _ member => versions ▸ member, counted⟩

/-- Only the calls that are there to write a version do so. -/
theorem keepsVersions_handler {request : WorkflowCall}
    (noInsert : ∀ given, request ≠ .insertVersion given)
    (noUpdate : ∀ given, request ≠ .updateVersion given) :
    store.KeepsVersions (handler request store).2 := by
  cases request with
  | insertVersion given => exact absurd rfl (noInsert given)
  | updateVersion given => exact absurd rfl (noUpdate given)
  | deleteWorkflow id =>
    show store.KeepsVersions (store.deleteWorkflow id).2
    by_cases held : store.workflows.contains id = true
    · rw [deleteWorkflow_of_contains held]
      exact ⟨fun _ member => (Table.mem_rows_filter.mp member).1, (Nat.le_refl _)⟩
    · rw [deleteWorkflow, if_neg held]
      exact .of_same rfl (Nat.le_refl _)
  | deleteVersion id =>
    show store.KeepsVersions (store.deleteVersion id).2
    by_cases held : store.versions.contains id = true
    · rw [deleteVersion_of_contains held]
      exact ⟨fun _ member => (Table.mem_rows_filter.mp member).1, (Nat.le_refl _)⟩
    · rw [deleteVersion, if_neg held]
      exact .of_same rfl (Nat.le_refl _)
  | deleteNode id =>
    show store.KeepsVersions (store.deleteNode id).2
    unfold deleteNode
    split <;> exact .of_same rfl (Nat.le_refl _)
  | deleteLink id =>
    show store.KeepsVersions (store.deleteLink id).2
    unfold deleteLink
    split <;> exact .of_same rfl (Nat.le_refl _)
  | insertWorkflow given => exact .of_same rfl (Nat.le_succ _)
  | updateWorkflow given =>
    show store.KeepsVersions (store.updateWorkflow given).2
    unfold updateWorkflow
    split <;> exact .of_same rfl (Nat.le_refl _)
  | insertNode given =>
    show store.KeepsVersions (store.insertNode given).2
    unfold insertNode
    split
    · exact .of_same rfl (Nat.le_succ _)
    · exact .of_same rfl (Nat.le_refl _)
  | updateNode given =>
    show store.KeepsVersions (store.updateNode given).2
    unfold updateNode
    split <;> exact .of_same rfl (Nat.le_refl _)
  | insertLink given =>
    show store.KeepsVersions (store.insertLink given).2
    unfold insertLink
    split
    · exact .of_same rfl (Nat.le_succ _)
    · exact .of_same rfl (Nat.le_refl _)
  | updateLink given =>
    show store.KeepsVersions (store.updateLink given).2
    unfold updateLink
    split <;> exact .of_same rfl (Nat.le_refl _)
  | insertLog entry =>
    show store.KeepsVersions (store.insertLog entry).2
    unfold insertLog
    split <;> exact .of_same rfl (Nat.le_refl _)
  | _ => exact .of_same rfl (Nat.le_refl _)

/-- What an insert answers, and what it does. -/
inductive Inserts (store : WorkflowStore) (given : NewVersion) :
    Except StoreError Version × WorkflowStore → Prop
  | orphaned (missing : store.workflows.contains given.workflowId = false) :
    Inserts store given
      (.error (.missingRow "insert_workflow_version" given.workflowId.text), store)
  | taken (owned : store.workflows.contains given.workflowId = true)
    (held : store.versionTaken given.workflowId given.number none = true) :
    Inserts store given
      (.error (numberTaken "insert_workflow_version" given.workflowId given.number), store)
  | filed (owned : store.workflows.contains given.workflowId = true)
    (free : store.versionTaken given.workflowId given.number none = false) :
    Inserts store given
      (.ok (given.withId (store.nextId .version)),
        { store with
          issued := store.issued + 1
          versions := store.versions.insert (given.withId (store.nextId .version)) })

theorem insertVersion_inserts (store : WorkflowStore) (given : NewVersion) :
    store.Inserts given (store.insertVersion given) := by
  unfold insertVersion
  split
  · rename_i missing
    exact .orphaned (Bool.not_eq_true' _ ▸ missing)
  · rename_i present
    have owned : store.workflows.contains given.workflowId = true := by
      simpa using present
    split
    · rename_i held
      exact .taken owned held
    · rename_i free
      exact .filed owned (Bool.eq_false_iff.mpr free)

namespace Inserts

variable {given : NewVersion} {result : Except StoreError Version × WorkflowStore}
  (inserts : store.Inserts given result)

include inserts

/-- The identifier that is handed out is the highest. -/
theorem numbered (numbered : store.Numbered) : result.2.Numbered := by
  cases inserts with
  | orphaned => exact numbered
  | taken => exact numbered
  | filed =>
    intro version member
    rcases Table.mem_rows_insert.mp member with rfl | ⟨old, _⟩
    · exact Int.le_refl _
    · exact Int.le_trans (numbered version old) (Int.le_add_one (Int.le_refl _))

theorem numbersOnce (once : store.NumbersOnce) : result.2.NumbersOnce := by
  cases inserts with
  | orphaned => exact once
  | taken => exact once
  | filed _ free => exact once.insert free

end Inserts

/-- Identifiers stay below those to come, whatever is called. -/
theorem Numbered.handler (numbered : store.Numbered) (request : WorkflowCall) :
    (handler request store).2.Numbered := by
  by_cases insert : ∃ given, request = .insertVersion given
  · rcases insert with ⟨given, rfl⟩
    exact (store.insertVersion_inserts given).numbered numbered
  · by_cases update : ∃ given, request = .updateVersion given
    · rcases update with ⟨given, rfl⟩
      show (store.updateVersion given).2.Numbered
      unfold updateVersion
      split
      · exact numbered
      · split
        · refine numbered.of_ids ?_ (Nat.le_refl _)
          intro version member
          rcases (Table.mem_rows_modify (by intro held; rfl)).mp member with ⟨held, listed, rfl⟩
          refine ⟨held, listed, ?_⟩
          split <;> rfl
        · exact numbered
    · have keeps : store.KeepsVersions _ := keepsVersions_handler
        (fun given same => insert ⟨given, same⟩) (fun given same => update ⟨given, same⟩)
      exact numbered.of_ids (fun version member => ⟨version, keeps.subset version member, rfl⟩)
        keeps.counted

theorem Reached.numbered (reached : store.Reached) : store.Numbered := by
  induction reached with
  | empty => exact fun _ member => absurd member List.not_mem_nil
  | call _ request ih => exact ih.handler request

/-- Calls other than the update of a version keep numbers apart. -/
theorem NumbersOnce.handler (once : store.NumbersOnce) {request : WorkflowCall}
    (noUpdate : ∀ given, request ≠ .updateVersion given) :
    (handler request store).2.NumbersOnce := by
  by_cases insert : ∃ given, request = .insertVersion given
  · rcases insert with ⟨given, rfl⟩
    exact (store.insertVersion_inserts given).numbersOnce once
  · exact once.of_subset
      (keepsVersions_handler (fun given same => insert ⟨given, same⟩) noUpdate).subset

/-- The versions of the store after that were not on file before. -/
def newVersions (store after : WorkflowStore) : List Version :=
  after.versions.rows.filter (fun version => version ∉ store.versions.rows)

theorem newVersions_self (store : WorkflowStore) : store.newVersions store = [] :=
  List.filter_eq_nil_iff.mpr fun _ member absent => of_decide_eq_true absent member

/-- An insert puts on file what it answers. -/
theorem Inserts.newVersions_eq {given : NewVersion}
    {result : Except StoreError Version × WorkflowStore} (inserts : store.Inserts given result)
    (numbered : store.Numbered) : store.newVersions result.2 = result.1.toOption.toList := by
  cases inserts with
  | orphaned => exact store.newVersions_self
  | taken => exact store.newVersions_self
  | filed =>
    have fresh : given.withId (store.nextId .version) ∉ store.versions.rows := by
      intro member
      have bound : (store.issued : Int) + 1 ≤ store.issued := numbered _ member
      omega
    apply List.perm_singleton.mp
    refine (List.perm_ext_iff_of_nodup ((Table.nodup_rows _).filter _)
      (List.pairwise_singleton _ _)).mpr ?_
    intro version
    rw [List.mem_filter, List.mem_singleton, Table.mem_rows_insert, decide_eq_true_iff]
    constructor
    · rintro ⟨same | ⟨old, _⟩, absent⟩
      · exact same
      · exact absurd old absent
    · rintro rfl
      exact ⟨Or.inl rfl, fresh⟩

end WorkflowStore

/-! ## Callers -/

/-- What callers do to the versions of workflows. -/
inductive VersionJob where
  | make (now : Timestamp) (workflow : WorkflowId) (number : Int32) (name : String)
  | deleteVersion (id : VersionId)
  | deleteWorkflow (id : WorkflowId)
  deriving DecidableEq, Repr

/-- A caller has answered with a version, with nothing to show, or with an error. -/
abbrev VersionAnswer : Type := Except WorkflowError (Option Version)

namespace VersionJob

variable {store : WorkflowStore} {workflow : WorkflowId} {number : Int32}

/-- The calls of a caller. -/
def program : VersionJob → Program workflowCalls VersionAnswer
  | make now workflow number name => (some <$> Version.cloneOrCreate now workflow number name).run
  | deleteVersion id => ((fun _ => none) <$> Version.delete id).run
  | deleteWorkflow id => ((fun _ => none) <$> Workflow.delete id).run

/-- A number cannot be had if a version of the workflow has it, and for a draft, which has the
number 0, if there is any version of the workflow. -/
def Occupied (store : WorkflowStore) (workflow : WorkflowId) (number : Int32) : Prop :=
  ∃ version ∈ store.versions.rows,
    version.workflowId = workflow ∧ (number = 0 ∨ version.number = number)

theorem isSome_latestVersion?_iff :
    (store.latestVersion? workflow).isSome ↔ ∃ version ∈ store.versions.rows,
      version.workflowId = workflow := by
  have listed : ∀ version, version ∈ store.versionsOf workflow ↔
      version ∈ store.versions.rows ∧ version.workflowId = workflow := by
    intro version
    rw [WorkflowStore.versionsOf, List.mem_filter, decide_eq_true_iff]
  rw [WorkflowStore.latestVersion?]
  rcases List.eq_nil_or_concat (store.versionsOf workflow) with none | ⟨earlier, last, some⟩
  · rw [none] at listed ⊢
    refine iff_of_false nofun ?_
    rintro ⟨version, member, owned⟩
    exact List.not_mem_nil ((listed version).mpr ⟨member, owned⟩)
  · rw [List.concat_eq_append] at some
    rw [some] at listed ⊢
    refine iff_of_true ?_ ⟨last, (listed last).mp List.mem_concat_self⟩
    rw [List.foldl_append]
    generalize List.foldl _ _ earlier = held
    cases held with
    | none => rfl
    | some held =>
      simp only [List.foldl_cons, List.foldl_nil]
      split <;> rfl

theorem isSome_findVersion?_iff :
    (store.findVersion? workflow number).isSome ↔ ∃ version ∈ store.versions.rows,
      version.workflowId = workflow ∧ version.number = number := by
  rw [WorkflowStore.findVersion?, List.find?_isSome]
  simp only [Bool.and_eq_true, decide_eq_true_eq]

/-- The version that is inserted. -/
def made (now : Timestamp) (workflow : WorkflowId) (number : Int32) (name : String) : NewVersion :=
  { workflowId := workflow, number, name := now.nameOr name, status := .inactive,
    createdOn := now, updatedOn := now }

/-- A call whose failure ends the work of a caller. -/
def calling (request : WorkflowCall)
    (next : request.Value → Program workflowCalls VersionAnswer) :
    Program workflowCalls VersionAnswer :=
  .call request fun answer =>
    match answer with
    | .ok value => next value
    | .error error => .done (.error (.store error))

/-- How a caller goes on with what it found in the place of its version. -/
def proceed (given : NewVersion) : Option Version → Program workflowCalls VersionAnswer
  | some _ => .done (.error (.notImplemented "clone_workflow_version"))
  | none => calling (.insertVersion given) fun version => .done (.ok (some version))

theorem run_map_ask (request : WorkflowCall) {α : Type} (shape : α → Option Version)
    (next : request.Value → WorkflowProgram α) :
    (shape <$> (ask request >>= next)).run =
      calling request fun value => (shape <$> next value).run := by
  refine congrArg (Program.call (I := workflowCalls) request) (funext fun answer => ?_)
  cases answer <;> rfl

/-- The first call of a caller looks for a version in the place of the one to be made. -/
theorem program_make (now : Timestamp) (workflow : WorkflowId) (number : Int32) (name : String) :
    (make now workflow number name).program =
      if number = 0 then calling (.latestVersion workflow) (proceed (made now workflow number name))
      else calling (.findVersion workflow number) (proceed (made now workflow number name)) := by
  have goesOn : ∀ source : Option Version,
      (some <$> (match source with
        | some _ => throw (.notImplemented "clone_workflow_version")
        | none => ask (.insertVersion (made now workflow number name)) :
          WorkflowProgram Version)).run = proceed (made now workflow number name) source := by
    intro source
    cases source with
    | some held => rfl
    | none =>
      refine congrArg (Program.call (I := workflowCalls) _) (funext fun answer => ?_)
      cases answer <;> rfl
  show (some <$> Version.cloneOrCreate now workflow number name).run = _
  unfold Version.cloneOrCreate Version.copySource
  split
  · rw [run_map_ask]
    exact congrArg (calling _) (funext goesOn)
  · rw [run_map_ask]
    exact congrArg (calling _) (funext goesOn)

/-- The first call changes nothing, and what it finds is a version in the place of the one to be
made. -/
theorem looks_first (now : Timestamp) (workflow : WorkflowId) (number : Int32) (name : String) :
    ∃ (request : WorkflowCall) (next : workflowCalls.Answer request → _),
      (make now workflow number name).program = .call request next ∧
      ∀ store, (WorkflowStore.handler request store).2 = store ∧
        ∃ source, next (WorkflowStore.handler request store).1 =
            proceed (made now workflow number name) source ∧
          (source.isSome ↔ Occupied store workflow number) := by
  rw [program_make]
  split
  · rename_i draft
    refine ⟨_, _, rfl, fun store => ⟨rfl, store.latestVersion? workflow, rfl, ?_⟩⟩
    rw [isSome_latestVersion?_iff, Occupied]
    simp only [draft, true_or, and_true]
  · rename_i real
    refine ⟨_, _, rfl, fun store => ⟨rfl, store.findVersion? workflow number, rfl, ?_⟩⟩
    rw [isSome_findVersion?_iff, Occupied]
    simp only [real, false_or]

/-- Callers update no version, whatever they find in the store. -/
def Adds (_ : VersionJob) (_ : WorkflowStore) (request : WorkflowCall) : Prop :=
  ∀ given, request ≠ .updateVersion given

theorem only_calling {job : VersionJob} {request : WorkflowCall}
    {next : request.Value → Program workflowCalls VersionAnswer}
    (adds : Adds job store request) (later : ∀ value, (next value).Only (Adds job store)) :
    (calling request next).Only (Adds job store) := by
  refine .call adds fun answer => ?_
  cases answer with
  | ok value => exact later value
  | error error => exact .done _

theorem only_program (job : VersionJob) : job.program.Only (Adds job store) := by
  cases job with
  | make now workflow number name =>
    have proceeds : ∀ source, (proceed (made now workflow number name) source).Only
        (Adds (make now workflow number name) store) := by
      intro source
      cases source with
      | some held => exact .done _
      | none => exact only_calling nofun fun _ => .done _
    rw [program_make]
    split
    · exact only_calling nofun proceeds
    · exact only_calling nofun proceeds
  | deleteVersion id =>
    refine .call nofun fun answer => ?_
    cases answer <;> exact .done _
  | deleteWorkflow id =>
    refine .call nofun fun answer => ?_
    cases answer <;> exact .done _

/-- Callers that are about to work on a store. -/
def contenders (store : WorkflowStore) (jobs : List VersionJob) :
    Crew workflowCalls VersionAnswer WorkflowStore :=
  ⟨store, jobs.map program⟩

/-- What callers keep up together: numbers are apart, and identifiers below those to come. -/
def KeepsOrder (before after : WorkflowStore) : Prop :=
  before.NumbersOnce ∧ before.Numbered → after.NumbersOnce ∧ after.Numbered

theorem adds_discipline : Crew.Discipline WorkflowStore.handler Adds KeepsOrder where
  refl _ := id
  trans first second := second ∘ first
  moves adds := fun ⟨once, numbered⟩ => ⟨once.handler adds, numbered.handler _⟩

theorem order_after (jobs : List VersionJob) (once : store.NumbersOnce)
    (numbered : store.Numbered) (schedule : List Nat) :
    ((contenders store jobs).after WorkflowStore.handler schedule).state.NumbersOnce ∧
      ((contenders store jobs).after WorkflowStore.handler schedule).state.Numbered := by
  have fit : (contenders store jobs).Fit WorkflowStore.handler Adds KeepsOrder jobs :=
    Crew.Fit.start fun job _ =>
      adds_discipline.keeps_of_only (fun _ adds => adds) (only_program job)
  exact adds_discipline.moves_after fit schedule ⟨once, numbered⟩

/-! ## What a caller did and what it answers -/

/-- The versions that the turns of a worker put on file, the first one first. -/
def filed (crew : Crew workflowCalls VersionAnswer WorkflowStore) (worker : Nat)
    (schedule : List Nat) : List Version :=
  (crew.ownTurns WorkflowStore.handler worker schedule).flatMap fun turn =>
    turn.1.newVersions turn.2

/-- Why a caller is refused a number, by what the store holds in the turn in which it is. -/
inductive Refused (store : WorkflowStore) (workflow : WorkflowId) (number : Int32) :
    WorkflowError → Prop
  /-- There is a version to copy, which cannot be done yet. -/
  | found (occupied : Occupied store workflow number) :
    Refused store workflow number (.notImplemented "clone_workflow_version")
  /-- The number was found free, but is taken when the version is to be inserted. -/
  | overtaken (owned : store.workflows.contains workflow = true)
    (taken : ∃ version ∈ store.versions.rows,
      version.workflowId = workflow ∧ version.number = number) :
    Refused store workflow number
      (.store (.constraintViolation "insert_workflow_version"
        ("workflow " ++ workflow.text ++ " already has version " ++
          Decimal.intText number.toInt)))
  /-- There is no such workflow, or no longer. -/
  | orphaned (missing : store.workflows.contains workflow = false) :
    Refused store workflow number
      (.store (.missingRow "insert_workflow_version" workflow.text))

/-- A worker ends with an answer in its turn after those of a schedule. -/
def EndsAfter (crew : Crew workflowCalls VersionAnswer WorkflowStore) (worker : Nat)
    (before : List Nat) (answer : VersionAnswer) : Prop :=
  (crew.after WorkflowStore.handler before).result? worker = none ∧
    ((crew.after WorkflowStore.handler before).turn WorkflowStore.handler worker).result? worker =
      some answer

/-- What a caller has answered after the turns of a schedule, and what it has put on file, if a
number of turns of its own is all that it needs. -/
inductive Accounts (turns : Nat) (crew : Crew workflowCalls VersionAnswer WorkflowStore)
    (worker : Nat) (schedule : List Nat) (workflow : WorkflowId) (number : Int32) :
    Option VersionAnswer → Prop
  | waiting (few : schedule.count worker < turns) (nothing : filed crew worker schedule = []) :
    Accounts turns crew worker schedule workflow number none
  | made (version : Version) (owner : version.workflowId = workflow)
    (numbered : version.number = number) (one : filed crew worker schedule = [version]) :
    Accounts turns crew worker schedule workflow number (some (.ok (some version)))
  | refused (error : WorkflowError) (before later : List Nat)
    (split : schedule = before ++ worker :: later)
    (ends : EndsAfter crew worker before (.error error))
    (why : Refused (crew.after WorkflowStore.handler before).state workflow number error)
    (nothing : filed crew worker schedule = []) :
    Accounts turns crew worker schedule workflow number (some (.error error))

section Turns

variable {crew turned : Crew workflowCalls VersionAnswer WorkflowStore} {worker : Nat}
  {workflow : WorkflowId} {number : Int32} {before later schedule : List Nat}

theorem filed_of_not_mem (absent : worker ∉ schedule) : filed crew worker schedule = [] := by
  rw [filed, (Crew.idle_of_not_mem WorkflowStore.handler absent).2]
  rfl

theorem filed_of_done {answer : VersionAnswer}
    (done : crew.programs[worker]? = some (.done answer)) (schedule : List Nat) :
    filed crew worker schedule = [] := by
  refine List.flatMap_eq_nil_iff.mpr fun turn made => ?_
  rw [Crew.ownTurns_of_done done turn made]
  exact turn.1.newVersions_self

/-- A caller whose turn has not come yet has done nothing. -/
theorem Accounts.of_not_mem {turns : Nat} {request : WorkflowCall}
    {next : workflowCalls.Answer request → Program workflowCalls VersionAnswer}
    (calls : crew.programs[worker]? = some (.call request next)) (absent : worker ∉ schedule) :
    Accounts (turns + 1) crew worker schedule workflow number
      ((crew.after WorkflowStore.handler schedule).result? worker) := by
  rw [Crew.result?_of_not_mem WorkflowStore.handler calls absent]
  refine .waiting ?_ (filed_of_not_mem absent)
  rw [List.count_eq_zero.mpr absent]
  exact Nat.succ_pos turns

/-- After a first turn that puts nothing on file, the rest of the turns accounts for everything. -/
theorem Accounts.of_turned {turns : Nat} {result : Option VersionAnswer}
    (first : worker ∉ before)
    (turn : (crew.after WorkflowStore.handler before).turn WorkflowStore.handler worker = turned)
    (files : filed crew worker (before ++ worker :: later) = filed turned worker later)
    (accounts : Accounts turns turned worker later workflow number result) :
    Accounts (turns + 1) crew worker (before ++ worker :: later) workflow number result := by
  cases accounts with
  | waiting few nothing =>
    refine .waiting ?_ (files.trans nothing)
    rw [List.count_append, List.count_eq_zero.mpr first, List.count_cons_self, Nat.zero_add]
    exact Nat.succ_lt_succ few
  | made version owner numbered one => exact .made version owner numbered (files.trans one)
  | refused error middle rest split ends why nothing =>
    have reaches : crew.after WorkflowStore.handler (before ++ worker :: middle) =
        turned.after WorkflowStore.handler middle := by
      rw [Crew.after_append, Crew.after_cons, turn]
    refine .refused error (before ++ worker :: middle) rest ?_ ?_ ?_ (files.trans nothing)
    · rw [split, List.append_assoc]
      rfl
    · rw [EndsAfter, reaches]
      exact ends
    · rw [reaches]
      exact why

/-- An insert accounts for what it answers. -/
theorem Accounts.of_inserts {turns : Nat} {given : NewVersion}
    {result : Except StoreError Version × WorkflowStore}
    (split : schedule = before ++ worker :: later)
    (ends : EndsAfter crew worker before ((result.1.map some).mapError .store))
    (inserts : (crew.after WorkflowStore.handler before).state.Inserts given result)
    (new : filed crew worker schedule = result.1.toOption.toList) :
    Accounts turns crew worker schedule given.workflowId given.number
      (some ((result.1.map some).mapError .store)) := by
  cases inserts with
  | filed => exact .made _ rfl rfl new
  | orphaned missing => exact .refused _ before later split ends (.orphaned missing) new
  | taken owned held =>
    refine .refused _ before later split ends (.overtaken owned ?_) new
    rcases List.any_eq_true.mp held with ⟨version, member, taken⟩
    simp only [Bool.and_eq_true, decide_eq_true_eq] at taken
    exact ⟨version, member, taken.1⟩

/-- A caller that has found its number free needs one more turn, that of its insert. -/
theorem accounts_of_free {given : NewVersion}
    (free : crew.programs[worker]? = some (proceed given none))
    (numbered : ∀ before, (crew.after WorkflowStore.handler before).state.Numbered)
    (schedule : List Nat) :
    Accounts 1 crew worker schedule given.workflowId given.number
      ((crew.after WorkflowStore.handler schedule).result? worker) := by
  rcases Crew.waits_or_turns WorkflowStore.handler free schedule with
    absent | ⟨before, later, split, first, store, turned, found, turn, written, goesOn, ends, own⟩
  · exact .of_not_mem free absent
  · have inserts := store.insertVersion_inserts given
    have answers : (WorkflowStore.handler (.insertVersion given) store).1 =
      (store.insertVersion given).1 := rfl
    have done : turned.programs[worker]? =
        some (.done (((store.insertVersion given).1.map some).mapError .store)) := by
      rw [goesOn, answers]
      cases (store.insertVersion given).1 <;> rfl
    rw [ends, Crew.result?_of_done (Crew.programs_after_of_done later done)]
    have unended := Crew.result?_of_not_mem WorkflowStore.handler free first
    refine .of_inserts split ⟨unended, ?_⟩ (found ▸ inserts) ?_
    · rw [turn]
      exact Crew.result?_of_done done
    · have rest : filed turned worker later = [] := filed_of_done done later
      have held := numbered before
      rw [found] at held
      rw [filed] at rest ⊢
      rw [own, List.flatMap_cons, rest, List.append_nil, written]
      exact inserts.newVersions_eq held

end Turns

/-- Callers take turns at making versions and at deleting versions and workflows, on any store that
calls have led to and in which numbers are apart.  Numbers are apart then in all states on the way,
and every caller that makes a version does what it answers: it has put on file the one version that
it answers with, of its own workflow and number, or it is refused and has put nothing on file. -/
theorem contended_numbers_once (store : WorkflowStore) (reached : store.Reached)
    (once : store.NumbersOnce) (jobs : List VersionJob) (schedule : List Nat) :
    (∀ before after, schedule = before ++ after →
      ((contenders store jobs).after WorkflowStore.handler before).state.NumbersOnce) ∧
    ∀ worker now workflow number name, jobs[worker]? = some (make now workflow number name) →
      Accounts 2 (contenders store jobs) worker schedule workflow number
        (((contenders store jobs).after WorkflowStore.handler schedule).result? worker) := by
  have order := order_after jobs once reached.numbered
  refine ⟨fun before _ _ => (order before).1, ?_⟩
  intro worker now workflow number name asked
  have placed : (contenders store jobs).programs[worker]? =
      some (make now workflow number name).program := by
    rw [contenders, List.getElem?_map, asked]
    rfl
  generalize contenders store jobs = crew at order placed ⊢
  rcases looks_first now workflow number name with ⟨request, next, asks, looks⟩
  rw [asks] at placed
  rcases Crew.waits_or_turns WorkflowStore.handler placed schedule with
    absent | ⟨before, later, rfl, first, state, turned, found, turn, kept, goesOn, ends, own⟩
  · exact .of_not_mem placed absent
  -- the first turn looks, and puts nothing on file
  rcases looks state with ⟨unchanged, source, continues, occupied⟩
  have files : filed crew worker (before ++ worker :: later) = filed turned worker later := by
    rw [filed, own, List.flatMap_cons, kept, unchanged, WorkflowStore.newVersions_self]
    rfl
  rw [continues] at goesOn
  rw [ends]
  cases source with
  | some held =>
    rw [Crew.result?_of_done (Crew.programs_after_of_done later goesOn)]
    have unended := Crew.result?_of_not_mem WorkflowStore.handler placed first
    refine .refused _ before later rfl ⟨unended, ?_⟩ (.found ?_) ?_
    · rw [turn]
      exact Crew.result?_of_done goesOn
    · rw [found]
      exact occupied.mp rfl
    · rw [files]
      exact filed_of_done goesOn later
  | none =>
    refine .of_turned first turn files (accounts_of_free goesOn (fun middle => ?_) later)
    have numbered := (order (before ++ worker :: middle)).2
    rw [Crew.after_append, Crew.after_cons, turn] at numbered
    exact numbered

/-- Two callers want version 1 of workflow 1, and one deletes the version that is made. -/
def race : List VersionJob :=
  [make ⟨0, 0⟩ ⟨1⟩ 1 "slow", make ⟨0, 0⟩ ⟨1⟩ 1 "fast", deleteVersion ⟨2⟩]

/-- Both find the number free, and the one that inserts first gets it. -/
theorem contended_numbers_once_race :
    let store := WorkflowEdit.applyAll .empty (WorkflowEdit.atOnce [.createNamed "fees"])
    let after := (contenders store race).after WorkflowStore.handler [0, 1, 1, 0, 2]
    store.Reached ∧ store.NumbersOnce ∧ after.state.NumbersOnce ∧
      (after.result? 1).isSome ∧
      Accounts 2 (contenders store race) 1 [0, 1, 1, 0, 2] ⟨1⟩ 1 (after.result? 1) ∧
      after.result? 0 = some (.error
        (.store (WorkflowStore.numberTaken "insert_workflow_version" ⟨1⟩ 1))) ∧
      Accounts 2 (contenders store race) 0 [0, 1, 1, 0, 2] ⟨1⟩ 1 (after.result? 0) := by
  intro store after
  have reached : store.Reached := .applyAll .empty _
  have once : store.NumbersOnce := by decide +kernel
  have apart := contended_numbers_once store reached once race [0, 1, 1, 0, 2]
  exact ⟨reached, once, apart.1 _ [] rfl, by decide +kernel,
    apart.2 1 ⟨0, 0⟩ ⟨1⟩ 1 "fast" rfl, rfl, apart.2 0 ⟨0, 0⟩ ⟨1⟩ 1 "slow" rfl⟩

end VersionJob

end NodeSteward
