import NodeSteward.Id

/-!
# When triggers fired last

The history remembers for each trigger the instant of the timers' clock at which it fired last.
A trigger is due when it has not fired, or when its interval has passed since.
-/

namespace NodeSteward

/-- The last firing of each trigger; no trigger stands twice. -/
structure FiringHistory where
  fired : List (NodeId × Nat)
  deriving DecidableEq, Repr

namespace FiringHistory

def empty : FiringHistory := ⟨[]⟩

/-- The instant at which a trigger fired last. -/
def last? (history : FiringHistory) (node : NodeId) : Option Nat :=
  history.fired.lookup node

/-- True when a trigger with the given interval may fire.  An instant before the last firing
counts as no time passed. -/
def isDue (history : FiringHistory) (node : NodeId) (interval now : Nat) : Bool :=
  match history.last? node with
  | none => true
  | some last => interval ≤ now - last

/-- Remembers that a trigger fired. -/
def record (history : FiringHistory) (node : NodeId) (now : Nat) : FiringHistory :=
  ⟨(node, now) :: history.fired.filter (fun firing => firing.1 ≠ node)⟩

/-- Forgets all triggers but the given ones. -/
def retain (history : FiringHistory) (nodes : List NodeId) : FiringHistory :=
  ⟨history.fired.filter (fun firing => firing.1 ∈ nodes)⟩

/-- The number of triggers that are remembered. -/
def size (history : FiringHistory) : Nat :=
  history.fired.length

def isEmpty (history : FiringHistory) : Bool :=
  history.fired.isEmpty

theorem last?_record (history : FiringHistory) (node other : NodeId) (now : Nat) :
    (history.record node now).last? other =
      if other = node then some now else history.last? other := by
  obtain ⟨fired⟩ := history
  by_cases same : other = node
  · subst same
    simp [record, last?]
  · have kept : (fired.filter (fun firing => firing.1 ≠ node)).lookup other =
        fired.lookup other := by
      induction fired with
      | nil => rfl
      | cons firing rest ih =>
        obtain ⟨held, instant⟩ := firing
        by_cases atNode : held = node
        · subst atNode
          have differs : (other == held) = false := by simpa using same
          simp only [List.lookup_cons, differs]
          simpa using ih
        · rw [List.filter_cons_of_pos (by simpa using atNode)]
          simp only [List.lookup_cons]
          cases other == held
          · exact ih
          · rfl
    have differs : (other == node) = false := by simpa using same
    simp only [record, last?, List.lookup_cons, differs, if_neg same]
    exact kept

end FiringHistory

end NodeSteward
