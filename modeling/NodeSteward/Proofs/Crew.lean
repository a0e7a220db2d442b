import NodeSteward.Calls

/-!
# Programs that take turns

Several programs work on one state.  In each turn one of them has its next call answered, at once
and as a whole, while the others wait; a schedule says whose turn it is.  Every interleaving of the
calls is a schedule, and every part of a schedule is one too.

Proofs go program by program.  Each has a role, which says what calls are allowed in which state,
and a discipline says what an allowed call may do to the state.  A program is shown to keep to its
role whatever allowed calls others make in between; then a whole crew does so throughout a
schedule.  A program's own view of a schedule is the list of its exchanges, with the moves of the
others in between.
-/

namespace NodeSteward

variable {I : Interface} {α β σ κ : Type}

namespace Program

/-- All calls that a program may ever make are allowed, whatever the answers are. -/
inductive Only (Allowed : I.Call → Prop) : Program I α → Prop
  | done (result : α) : Only Allowed (.done result)
  | call {request : I.Call} {next : I.Answer request → Program I α} (allowed : Allowed request)
    (later : ∀ answer, Only Allowed (next answer)) : Only Allowed (.call request next)

namespace Only

variable {Allowed : I.Call → Prop}

theorem mono {Other : I.Call → Prop} {program : Program I α} (only : program.Only Allowed)
    (wider : ∀ request, Allowed request → Other request) : program.Only Other := by
  induction only with
  | done result => exact .done result
  | call allowed _ ih => exact .call (wider _ allowed) ih

theorem bind {program : Program I α} {next : α → Program I β} (first : program.Only Allowed)
    (rest : ∀ result, (next result).Only Allowed) : (program >>= next).Only Allowed := by
  induction first with
  | done result => exact rest result
  | call allowed _ ih => exact .call allowed ih

theorem request {request : I.Call} (allowed : Allowed request) :
    (Program.request request).Only Allowed :=
  .call allowed .done

/-- The same for parts that end in a value or an error. -/
theorem exceptBind {ε : Type} {program : ExceptT ε (Program I) α}
    {next : α → ExceptT ε (Program I) β} (first : program.run.Only Allowed)
    (rest : ∀ result, (next result).run.Only Allowed) :
    (program >>= next).run.Only Allowed := by
  refine bind first ?_
  intro result
  cases result with
  | ok value => exact rest value
  | error error => exact .done _

/-- Handlers that agree on the calls of a program run it in the same way. -/
theorem run_congr {handler other : Handler I σ} {program : Program I α}
    (only : program.Only (fun request => handler request = other request)) (state : σ) :
    program.run handler state = program.run other state := by
  induction only generalizing state with
  | done result => rfl
  | call agree _ ih =>
    rw [run, run, agree]
    exact ih _ _

end Only

/-- A program keeps to a role from a state on: whenever its turn comes, its call is allowed in the
state that it finds.  Before each turn others may have moved the state. -/
inductive Keeps (handler : Handler I σ) (Moves : σ → σ → Prop) (Allowed : σ → I.Call → Prop) :
    σ → Program I α → Prop
  | done (state : σ) (result : α) : Keeps handler Moves Allowed state (.done result)
  | call {state : σ} {request : I.Call} {next : I.Answer request → Program I α}
    (allowed : ∀ now, Moves state now → Allowed now request)
    (later : ∀ now, Moves state now →
      Keeps handler Moves Allowed (handler request now).2 (next (handler request now).1)) :
    Keeps handler Moves Allowed state (.call request next)

namespace Keeps

variable {handler : Handler I σ} {Moves : σ → σ → Prop} {Allowed : σ → I.Call → Prop}

theorem of_moves {before now : σ} {program : Program I α}
    (trans : ∀ {first second third}, Moves first second → Moves second third → Moves first third)
    (moves : Moves before now) (keeps : program.Keeps handler Moves Allowed before) :
    program.Keeps handler Moves Allowed now := by
  cases keeps with
  | done _ result => exact .done _ result
  | call allowed later =>
    exact .call (fun turn since => allowed turn (trans moves since))
      (fun turn since => later turn (trans moves since))

/-- What is known when the turn comes. -/
theorem turn {state now : σ} {request : I.Call} {next : I.Answer request → Program I α}
    (keeps : Keeps handler Moves Allowed state (.call request next)) (moves : Moves state now) :
    Allowed now request ∧
      (next (handler request now).1).Keeps handler Moves Allowed (handler request now).2 := by
  cases keeps with
  | call allowed later => exact ⟨allowed now moves, later now moves⟩

/-- What every allowed call preserves is preserved by the program when it runs alone. -/
theorem holds_after_run (Holds : σ → Prop) (refl : ∀ state, Moves state state)
    (step : ∀ request state, Allowed state request → Holds state → Holds (handler request state).2)
    {state : σ} {program : Program I α} (keeps : program.Keeps handler Moves Allowed state)
    (holds : Holds state) : Holds (program.run handler state).2 := by
  induction program generalizing state with
  | done result => exact holds
  | call request next ih =>
    rcases keeps.turn (refl state) with ⟨allowed, later⟩
    exact ih _ later (step request state allowed holds)

end Keeps

end Program

/-- A call that was answered, and the state right after the answer. -/
structure Exchange (I : Interface) (σ : Type) where
  request : I.Call
  answer : I.Answer request
  state : σ

/-- Programs that work on one state, each as far as it has come. -/
structure Crew (I : Interface) (α σ : Type) where
  state : σ
  programs : List (Program I α)

namespace Crew

variable (handler : Handler I σ) (crew : Crew I α σ)

/-- What the next turn of a worker exchanges, if it still has a call to make. -/
def exchange? (worker : Nat) : Option (Exchange I σ) :=
  match crew.programs[worker]? with
  | some (.call request _) =>
    some ⟨request, (handler request crew.state).1, (handler request crew.state).2⟩
  | _ => none

/-- One turn of a worker.  Nothing happens if there is no such worker, or if it is done. -/
def turn (worker : Nat) : Crew I α σ :=
  match crew.programs[worker]? with
  | some (.call request next) =>
    { state := (handler request crew.state).2
      programs := crew.programs.set worker (next (handler request crew.state).1) }
  | _ => crew

/-- The crew after the turns of a schedule. -/
def after (schedule : List Nat) : Crew I α σ :=
  schedule.foldl (turn handler) crew

/-- What one of the workers exchanges in the turns of a schedule, the first exchange first. -/
def exchanges (worker : Nat) : Crew I α σ → List Nat → List (Exchange I σ)
  | _, [] => []
  | crew, next :: schedule =>
    (if next = worker then (crew.exchange? handler worker).toList else []) ++
      exchanges worker (crew.turn handler next) schedule

variable {handler crew}

theorem after_append (earlier later : List Nat) :
    crew.after handler (earlier ++ later) = (crew.after handler earlier).after handler later :=
  List.foldl_append

theorem after_cons (worker : Nat) (schedule : List Nat) :
    crew.after handler (worker :: schedule) = (crew.turn handler worker).after handler schedule :=
  rfl

theorem turn_of_call {worker : Nat} {request : I.Call} {next : I.Answer request → Program I α}
    (calls : crew.programs[worker]? = some (.call request next)) :
    crew.turn handler worker =
      { state := (handler request crew.state).2
        programs := crew.programs.set worker (next (handler request crew.state).1) } := by
  rw [turn, calls]

theorem exchange?_of_call {worker : Nat} {request : I.Call}
    {next : I.Answer request → Program I α}
    (calls : crew.programs[worker]? = some (.call request next)) :
    crew.exchange? handler worker =
      some ⟨request, (handler request crew.state).1, (handler request crew.state).2⟩ := by
  rw [exchange?, calls]

/-- A turn is idle, or it answers the next call of the worker. -/
theorem turn_cases (handler : Handler I σ) (crew : Crew I α σ) (worker : Nat) :
    (crew.turn handler worker = crew ∧ crew.exchange? handler worker = none) ∨
      ∃ (request : I.Call) (next : I.Answer request → Program I α),
        crew.programs[worker]? = some (.call request next) := by
  unfold turn exchange?
  split
  · exact Or.inr ⟨_, _, by assumption⟩
  · exact Or.inl ⟨rfl, rfl⟩

/-- The program of a worker after its own turn. -/
theorem programs_turn_self {worker : Nat} {request : I.Call}
    {next : I.Answer request → Program I α}
    (calls : crew.programs[worker]? = some (.call request next)) :
    (crew.turn handler worker).programs[worker]? =
      some (next (handler request crew.state).1) := by
  rw [turn_of_call calls]
  exact List.getElem?_set_self (List.getElem?_eq_some_iff.mp calls).1

/-- The turns of others leave a program where it is. -/
theorem programs_turn_of_ne {worker other : Nat} (different : other ≠ worker) :
    (crew.turn handler other).programs[worker]? = crew.programs[worker]? := by
  rcases turn_cases handler crew other with ⟨idle, _⟩ | ⟨request, next, calls⟩
  · rw [idle]
  · rw [turn_of_call calls]
    exact List.getElem?_set_ne different

/-- A program that is done has no turns any more. -/
theorem turn_of_done (handler : Handler I σ) {worker : Nat} {result : α}
    (done : crew.programs[worker]? = some (.done result)) :
    crew.turn handler worker = crew ∧ crew.exchange? handler worker = none := by
  unfold turn exchange?
  rw [done]
  exact ⟨rfl, rfl⟩

theorem programs_after_of_done {worker : Nat} {result : α} (schedule : List Nat)
    (done : crew.programs[worker]? = some (.done result)) :
    (crew.after handler schedule).programs[worker]? = some (.done result) := by
  induction schedule generalizing crew with
  | nil => exact done
  | cons other schedule ih =>
    refine ih ?_
    by_cases same : other = worker
    · subst same
      rw [(turn_of_done _ done).1]
      exact done
    · exact (programs_turn_of_ne same).trans done

/-- A worker that is not done has made an exchange in each of its turns. -/
theorem length_exchanges (handler : Handler I σ) {worker : Nat} {program : Program I α}
    (schedule : List Nat) (placed : crew.programs[worker]? = some program) :
    (∃ result, (crew.after handler schedule).programs[worker]? = some (.done result)) ∨
      (crew.exchanges handler worker schedule).length = schedule.count worker := by
  induction schedule generalizing crew program with
  | nil => exact Or.inr rfl
  | cons other schedule ih =>
    by_cases same : other = worker
    · subst same
      cases program with
      | done result => exact Or.inl ⟨result, programs_after_of_done _ placed⟩
      | call request next =>
        refine (ih (programs_turn_self placed)).imp id ?_
        intro counted
        rw [exchanges, if_pos rfl, exchange?_of_call placed, List.length_append, counted,
          List.count_cons_self]
        exact Nat.add_comm _ _
    · refine (ih ((programs_turn_of_ne same).trans placed)).imp id ?_
      intro counted
      rw [exchanges, if_neg same, List.nil_append, counted, List.count_cons_of_ne same]

/-! ## Disciplines -/

/-- A discipline: what the turns of a crew may do to the state, if each worker only makes the calls
that its role allows in the state it finds. -/
structure Discipline (handler : Handler I σ) (Allowed : κ → σ → I.Call → Prop)
    (Moves : σ → σ → Prop) : Prop where
  refl : ∀ state, Moves state state
  trans : ∀ {first second third}, Moves first second → Moves second third → Moves first third
  moves : ∀ {role state request}, Allowed role state request →
    Moves state (handler request state).2

/-- Every program of a crew keeps to its role from the present state on. -/
def Fit (handler : Handler I σ) (Allowed : κ → σ → I.Call → Prop) (Moves : σ → σ → Prop)
    (roles : List κ) (crew : Crew I α σ) : Prop :=
  ∀ (worker : Nat) (program : Program I α), crew.programs[worker]? = some program →
    ∃ role, roles[worker]? = some role ∧ program.Keeps handler Moves (Allowed role) crew.state

variable {Allowed : κ → σ → I.Call → Prop} {Moves : σ → σ → Prop} {roles : List κ}

/-- A crew in which each program is the one that its role begins with. -/
theorem Fit.start {begin : κ → Program I α} {state : σ}
    (keeps : ∀ role ∈ roles, (begin role).Keeps handler Moves (Allowed role) state) :
    Fit handler Allowed Moves roles ⟨state, roles.map begin⟩ := by
  intro worker program placed
  rw [List.getElem?_map] at placed
  rcases Option.map_eq_some_iff.mp placed with ⟨role, found, rfl⟩
  exact ⟨role, found, keeps role (List.mem_of_getElem? found)⟩

/-- A program whose calls are all allowed now keeps to its role, if moves never withdraw an
allowance. -/
theorem Discipline.keeps_of_only (discipline : Discipline handler Allowed Moves) {role : κ}
    (stable : ∀ {before after request}, Moves before after → Allowed role before request →
      Allowed role after request)
    {state : σ} {program : Program I α} (only : program.Only (Allowed role state)) :
    program.Keeps handler Moves (Allowed role) state := by
  -- all moves on the way start at `state`, where the calls are allowed
  have kept : ∀ now, Moves state now → program.Keeps handler Moves (Allowed role) now := by
    induction only with
    | done result => exact fun now _ => .done now result
    | call allowed _ ih =>
      intro before moved
      refine .call (fun now since => stable (discipline.trans moved since) allowed) ?_
      intro now since
      have reached := discipline.trans moved since
      exact ih _ _ (discipline.trans reached (discipline.moves (stable reached allowed)))
  exact kept state (discipline.refl state)

/-- A turn is idle, or it answers a call that the role of the worker allows. -/
theorem Discipline.turn_allowed (discipline : Discipline handler Allowed Moves)
    (fit : crew.Fit handler Allowed Moves roles) (worker : Nat) :
    (crew.turn handler worker).state = crew.state ∨
      ∃ role request, roles[worker]? = some role ∧ Allowed role crew.state request ∧
        (crew.turn handler worker).state = (handler request crew.state).2 := by
  rcases turn_cases handler crew worker with ⟨idle, _⟩ | ⟨request, next, calls⟩
  · exact Or.inl (congrArg Crew.state idle)
  · rcases fit worker _ calls with ⟨role, named, keeps⟩
    refine Or.inr ⟨role, request, named, (keeps.turn (discipline.refl _)).1, ?_⟩
    rw [turn_of_call calls]

theorem Discipline.moves_turn (discipline : Discipline handler Allowed Moves)
    (fit : crew.Fit handler Allowed Moves roles) (worker : Nat) :
    Moves crew.state (crew.turn handler worker).state := by
  rcases discipline.turn_allowed fit worker with idle | ⟨role, request, _, allowed, answered⟩
  · rw [idle]
    exact discipline.refl _
  · rw [answered]
    exact discipline.moves allowed

theorem Discipline.fit_turn (discipline : Discipline handler Allowed Moves)
    (fit : crew.Fit handler Allowed Moves roles) (worker : Nat) :
    (crew.turn handler worker).Fit handler Allowed Moves roles := by
  have moved := discipline.moves_turn fit worker
  rcases turn_cases handler crew worker with ⟨idle, _⟩ | ⟨request, next, calls⟩
  · rw [idle]
    exact fit
  · rw [turn_of_call calls] at moved ⊢
    intro other program placed
    dsimp only at placed
    rw [List.getElem?_set] at placed
    -- the program of the worker goes on, those of the others see the state move
    split at placed
    · rename_i same
      subst same
      rcases fit worker _ calls with ⟨role, named, keeps⟩
      split at placed
      · cases placed
        exact ⟨role, named, (keeps.turn (discipline.refl _)).2⟩
      · cases placed
    · rcases fit other program placed with ⟨role, named, keeps⟩
      exact ⟨role, named, keeps.of_moves discipline.trans moved⟩

theorem Discipline.fit_after (discipline : Discipline handler Allowed Moves)
    (fit : crew.Fit handler Allowed Moves roles) (schedule : List Nat) :
    (crew.after handler schedule).Fit handler Allowed Moves roles := by
  induction schedule generalizing crew with
  | nil => exact fit
  | cons worker schedule ih => exact ih (discipline.fit_turn fit worker)

theorem Discipline.moves_after (discipline : Discipline handler Allowed Moves)
    (fit : crew.Fit handler Allowed Moves roles) (schedule : List Nat) :
    Moves crew.state (crew.after handler schedule).state := by
  induction schedule generalizing crew with
  | nil => exact discipline.refl _
  | cons worker schedule ih =>
    exact discipline.trans (discipline.moves_turn fit worker)
      (ih (discipline.fit_turn fit worker))

/-- Every exchange of a schedule answered an allowed call, and the state has only moved on since. -/
theorem Discipline.of_mem_exchanges (discipline : Discipline handler Allowed Moves)
    (fit : crew.Fit handler Allowed Moves roles) {worker : Nat} {schedule : List Nat}
    {exchange : Exchange I σ} (made : exchange ∈ crew.exchanges handler worker schedule) :
    ∃ role before, Allowed role before exchange.request ∧
      exchange.state = (handler exchange.request before).2 ∧
      Moves exchange.state (crew.after handler schedule).state := by
  induction schedule generalizing crew with
  | nil => exact absurd made List.not_mem_nil
  | cons other schedule ih =>
    have fitNext := discipline.fit_turn fit other
    rcases List.mem_append.mp made with now | later
    · split at now
      · rename_i same
        subst same
        rcases turn_cases handler crew other with
          ⟨_, idle⟩ | ⟨request, next, calls⟩
        · rw [idle] at now
          exact absurd now List.not_mem_nil
        · rw [exchange?_of_call calls, Option.toList_some, List.mem_singleton] at now
          subst now
          rcases fit other _ calls with ⟨role, _, keeps⟩
          have since := discipline.moves_after fitNext schedule
          rw [turn_of_call calls] at since
          refine ⟨role, crew.state, (keeps.turn (discipline.refl _)).1, rfl, ?_⟩
          rw [after_cons, turn_of_call calls]
          exact since
      · exact absurd now List.not_mem_nil
    · exact ih fitNext later

end Crew

/-! ## One program among others -/

namespace Program

/-- A program goes from one point to another by the exchanges of a log.  Before each of them the
others may have moved the state. -/
inductive Among (handler : Handler I σ) (Moves : σ → σ → Prop) :
    Program I α → σ → List (Exchange I σ) → Program I α → Prop
  | waits (program : Program I α) (state : σ) : Among handler Moves program state [] program
  | calls {request : I.Call} {next : I.Answer request → Program I α} {before now : σ}
    {log : List (Exchange I σ)} {last : Program I α} (meanwhile : Moves before now)
    (later : Among handler Moves (next (handler request now).1) (handler request now).2 log last) :
    Among handler Moves (.call request next) before
      (⟨request, (handler request now).1, (handler request now).2⟩ :: log) last

variable {handler : Handler I σ} {Moves : σ → σ → Prop}

theorem Among.of_moves {program last : Program I α} {before now : σ} {log : List (Exchange I σ)}
    (trans : ∀ {first second third}, Moves first second → Moves second third → Moves first third)
    (moves : Moves before now) (among : Among handler Moves program now log last) :
    Among handler Moves program before log last := by
  cases among with
  | waits => exact .waits _ _
  | calls meanwhile later => exact .calls (trans moves meanwhile) later

theorem Among.of_done {result : α} {last : Program I α} {state : σ} {log : List (Exchange I σ)}
    (among : Among handler Moves (.done result) state log last) :
    log = [] ∧ last = .done result := by
  cases among
  exact ⟨rfl, rfl⟩

end Program

namespace Crew

variable {handler : Handler I σ} {crew : Crew I α σ} {Allowed : κ → σ → I.Call → Prop}
  {Moves : σ → σ → Prop} {roles : List κ}

/-- The exchanges of a worker in a schedule are its own way among the others. -/
theorem Discipline.among (discipline : Discipline handler Allowed Moves)
    (fit : crew.Fit handler Allowed Moves roles) {worker : Nat} {program : Program I α}
    (placed : crew.programs[worker]? = some program) (schedule : List Nat) :
    ∃ last, (crew.after handler schedule).programs[worker]? = some last ∧
      program.Among handler Moves crew.state (crew.exchanges handler worker schedule) last := by
  induction schedule generalizing crew program with
  | nil => exact ⟨program, placed, .waits _ _⟩
  | cons other schedule ih =>
    have fitNext := discipline.fit_turn fit other
    by_cases same : other = worker
    · subst same
      cases program with
      | done result =>
        have idle := turn_of_done handler placed
        rcases ih fit placed with ⟨last, found, among⟩
        refine ⟨last, ?_, ?_⟩
        · rw [after_cons, idle.1]
          exact found
        · rw [exchanges, if_pos rfl, idle.1, idle.2]
          exact among
      | call request next =>
        rcases ih fitNext (programs_turn_self placed) with ⟨last, found, among⟩
        refine ⟨last, found, ?_⟩
        rw [exchanges, if_pos rfl, exchange?_of_call placed]
        rw [turn_of_call placed] at among ⊢
        exact .calls (discipline.refl _) among
    · rcases ih fitNext ((programs_turn_of_ne same).trans placed) with ⟨last, found, among⟩
      refine ⟨last, found, ?_⟩
      rw [exchanges, if_neg same]
      exact among.of_moves discipline.trans (discipline.moves_turn fit other)

end Crew

namespace Crew

variable {handler : Handler I σ} {crew : Crew I α σ} {worker : Nat}

/-- What a worker has ended with, if it is done. -/
def result? (crew : Crew I α σ) (worker : Nat) : Option α :=
  match crew.programs[worker]? with
  | some (.done result) => some result
  | _ => none

theorem result?_of_done {result : α} (done : crew.programs[worker]? = some (.done result)) :
    crew.result? worker = some result := by
  rw [result?, done]

/-- The states right before and right after each turn of a worker. -/
def ownTurns (handler : Handler I σ) (worker : Nat) : Crew I α σ → List Nat → List (σ × σ)
  | _, [] => []
  | crew, next :: schedule =>
    (if next = worker then [(crew.state, (crew.turn handler next).state)] else []) ++
      ownTurns handler worker (crew.turn handler next) schedule

/-- Nothing of a worker happens in the turns of others. -/
theorem idle_of_not_mem (handler : Handler I σ) {schedule : List Nat} (absent : worker ∉ schedule) :
    (crew.after handler schedule).programs[worker]? = crew.programs[worker]? ∧
      crew.ownTurns handler worker schedule = [] := by
  induction schedule generalizing crew with
  | nil => exact ⟨rfl, rfl⟩
  | cons next schedule ih =>
    have different : next ≠ worker := (List.ne_of_not_mem_cons absent).symm
    have rest := List.not_mem_of_not_mem_cons absent
    refine ⟨(ih rest).1.trans (programs_turn_of_ne different), ?_⟩
    rw [ownTurns, if_neg different, (ih rest).2]
    rfl

theorem result?_of_not_mem (handler : Handler I σ) {request : I.Call}
    {next : I.Answer request → Program I α} {schedule : List Nat}
    (calls : crew.programs[worker]? = some (.call request next)) (absent : worker ∉ schedule) :
    (crew.after handler schedule).result? worker = none := by
  rw [result?, (idle_of_not_mem handler absent).1, calls]

theorem ownTurns_append (earlier later : List Nat) :
    crew.ownTurns handler worker (earlier ++ later) =
      crew.ownTurns handler worker earlier ++
        (crew.after handler earlier).ownTurns handler worker later := by
  induction earlier generalizing crew with
  | nil => rfl
  | cons next earlier ih =>
    rw [List.cons_append, ownTurns, ownTurns, ih, after_cons, List.append_assoc]

/-- A program that is done leaves the state alone in its turns. -/
theorem ownTurns_of_done {result : α} (done : crew.programs[worker]? = some (.done result))
    {schedule : List Nat} : ∀ turn ∈ crew.ownTurns handler worker schedule, turn.2 = turn.1 := by
  induction schedule generalizing crew with
  | nil => exact fun _ made => absurd made List.not_mem_nil
  | cons next schedule ih =>
    have doneToo : (crew.turn handler next).programs[worker]? = some (.done result) :=
      programs_after_of_done [next] done
    intro turn made
    rcases List.mem_append.mp made with now | later
    · split at now
      · rename_i same
        subst same
        rw [(turn_of_done handler done).1, List.mem_singleton] at now
        rw [now]
      · exact absurd now List.not_mem_nil
    · exact ih doneToo turn later

/-- A program waits for its first turn in a schedule, if there is one, and then its call is
answered. -/
theorem waits_or_turns (handler : Handler I σ) {request : I.Call}
    {next : I.Answer request → Program I α}
    (calls : crew.programs[worker]? = some (.call request next)) (schedule : List Nat) :
    worker ∉ schedule ∨
      ∃ before later, schedule = before ++ worker :: later ∧ worker ∉ before ∧
        ∃ state turned, (crew.after handler before).state = state ∧
          (crew.after handler before).turn handler worker = turned ∧
          turned.state = (handler request state).2 ∧
          turned.programs[worker]? = some (next (handler request state).1) ∧
          crew.after handler schedule = turned.after handler later ∧
          crew.ownTurns handler worker schedule =
            (state, turned.state) :: turned.ownTurns handler worker later := by
  by_cases comes : worker ∈ schedule
  · rcases List.eq_append_cons_of_mem comes with ⟨before, later, rfl, first⟩
    have idle : _ = crew.programs[worker]? ∧ _ := idle_of_not_mem handler first
    have placed := idle.1.trans calls
    refine Or.inr ⟨before, later, rfl, first, _, _, rfl, rfl, ?_, ?_, ?_, ?_⟩
    · rw [turn_of_call placed]
    · exact programs_turn_self placed
    · rw [after_append, after_cons]
    · rw [ownTurns_append, idle.2, ownTurns, if_pos rfl]
      rfl
  · exact Or.inl comes

end Crew

end NodeSteward
