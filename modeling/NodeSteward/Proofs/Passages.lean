import NodeSteward.Proofs.Crew

/-!
# The course of a program that runs alone

The course of a program is the list of its exchanges, each with the state before it.  A program made
of two parts has the course of the one and then that of the other, and a run can be taken up
again after any of its exchanges.  What holds at the start and is kept by every exchange holds at
the end.
-/

namespace NodeSteward

variable {I : Interface} {α β γ σ : Type}

/-- An exchange, and the state right before it. -/
structure Passage (I : Interface) (σ : Type) extends Exchange I σ where
  before : σ

/-- The exchange that a handler makes of a call. -/
def Passage.through (handler : Handler I σ) (request : I.Call) (before : σ) : Passage I σ where
  request
  answer := (handler request before).1
  state := (handler request before).2
  before

namespace Program

theorem bind_assoc (program : Program I α) (next : α → Program I β) (last : β → Program I γ) :
    program >>= next >>= last = program >>= fun result => next result >>= last := by
  induction program with
  | done result => rfl
  | call request answer ih => exact congrArg (Program.call request) (funext ih)

theorem bind_pure (program : Program I α) : program >>= pure = program := by
  induction program with
  | done result => rfl
  | call request answer ih => exact congrArg (Program.call request) (funext ih)

theorem pure_bind (result : α) (next : α → Program I β) : pure result >>= next = next result :=
  rfl

instance : LawfulMonad (Program I) :=
  LawfulMonad.mk' (Program I) bind_pure pure_bind bind_assoc

/-- The exchanges of a program that runs alone, the first one first. -/
def passages (handler : Handler I σ) : Program I α → σ → List (Passage I σ)
  | .done _, _ => []
  | .call request next, state =>
    .through handler request state ::
      passages handler (next (handler request state).1) (handler request state).2

variable {handler : Handler I σ}

theorem passages_pure (result : α) (state : σ) :
    (pure result : Program I α).passages handler state = [] :=
  rfl

theorem passages_bind (program : Program I α) (next : α → Program I β) (state : σ) :
    (program >>= next).passages handler state =
      program.passages handler state ++
        (next (program.run handler state).1).passages handler (program.run handler state).2 := by
  induction program generalizing state with
  | done result => rfl
  | call request answer ih =>
    exact congrArg (List.cons (Passage.through handler request state)) (ih _ _)

theorem passages_map (program : Program I α) (shape : α → β) (state : σ) :
    (program >>= fun result => pure (shape result)).passages handler state =
      program.passages handler state := by
  rw [passages_bind, passages_pure, List.append_nil]

/-- Every exchange of a course is the one that the handler makes of its call. -/
theorem eq_through_of_mem_passages {program : Program I α} {state : σ} {passage : Passage I σ}
    (made : passage ∈ program.passages handler state) :
    passage = .through handler passage.request passage.before := by
  induction program generalizing state with
  | done result => exact absurd made List.not_mem_nil
  | call request next ih =>
    rcases List.mem_cons.mp made with rfl | later
    · rfl
    · exact ih _ later

theorem Only.of_mem_passages {Allowed : I.Call → Prop} {program : Program I α}
    (only : program.Only Allowed) {state : σ} {passage : Passage I σ}
    (made : passage ∈ program.passages handler state) : Allowed passage.request := by
  induction only generalizing state with
  | done result => exact absurd made List.not_mem_nil
  | call allowed _ ih =>
    rcases List.mem_cons.mp made with rfl | later
    · exact allowed
    · exact ih _ later

/-- What every call keeps holds before each exchange of a course. -/
theorem holds_before_passages (Holds : σ → Prop)
    (keeps : ∀ request state, Holds state → Holds (handler request state).2)
    {program : Program I α} {state : σ} (start : Holds state) :
    ∀ passage ∈ program.passages handler state, Holds passage.before := by
  induction program generalizing state with
  | done result => nofun
  | call request next ih => exact List.forall_mem_cons.mpr ⟨start, ih _ (keeps request state start)⟩

/-- What every exchange keeps holds at the end of the run. -/
theorem holds_of_passages (Holds : σ → Prop) {program : Program I α} {state : σ}
    (keeps : ∀ passage ∈ program.passages handler state,
      Holds passage.before → Holds passage.state)
    (start : Holds state) : Holds (program.run handler state).2 := by
  induction program generalizing state with
  | done result => exact start
  | call request next ih =>
    rcases List.forall_mem_cons.mp keeps with ⟨first, others⟩
    exact ih _ others (first start)

/-- A run can be taken up after any of its exchanges. -/
theorem exists_rest_of_passages {program : Program I α} {state : σ}
    {earlier later : List (Passage I σ)} {passage : Passage I σ}
    (parted : program.passages handler state = earlier ++ passage :: later) :
    ∃ rest : Program I α, rest.passages handler passage.state = later ∧
      rest.run handler passage.state = program.run handler state := by
  induction program generalizing state earlier with
  | done result =>
    rw [passages] at parted
    exact absurd parted.symm (List.append_ne_nil_of_right_ne_nil _ (List.cons_ne_nil _ _))
  | call request next ih =>
    rw [passages] at parted
    cases earlier with
    | nil =>
      rw [List.nil_append, List.cons.injEq] at parted
      rcases parted with ⟨rfl, rest⟩
      exact ⟨next _, rest, rfl⟩
    | cons first earlier =>
      rw [List.cons_append, List.cons.injEq] at parted
      rcases ih _ parted.2 with ⟨rest, course, ran⟩
      exact ⟨rest, course, ran⟩

end Program

end NodeSteward
