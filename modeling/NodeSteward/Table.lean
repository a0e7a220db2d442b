import NodeSteward.Id

/-!
# Tables of records

A table holds records of one kind in ascending order of their identifiers, each under its own
identifier: the identifier is read from the record, so that a record cannot be filed under
another one.  The view of a table is the list of its rows, and `get?` finds the only row with an
identifier.
-/

namespace NodeSteward

/-- Records that carry an identifier of the given kind. -/
class Filed (kind : outParam IdKind) (ρ : Type) where
  idOf : ρ → Id kind

/-- Records in ascending order of their identifiers. -/
structure Table {kind : IdKind} (ρ : Type) [Filed kind ρ] where
  rows : List ρ
  ascending : rows.Pairwise
    (fun earlier later => (Filed.idOf earlier).raw < (Filed.idOf later).raw)

namespace Table

variable {kind : IdKind} {ρ : Type} [Filed kind ρ]

/-- The table without records. -/
def empty : Table ρ := ⟨[], List.Pairwise.nil⟩

/-- The record with the given identifier. -/
def get? (table : Table ρ) (id : Id kind) : Option ρ :=
  table.rows.find? (fun row => Filed.idOf row = id)

def contains (table : Table ρ) (id : Id kind) : Bool :=
  (table.get? id).isSome

/-- Puts a record at its place in ascending rows; one of the same identifier is replaced. -/
def insertRow (row : ρ) : List ρ → List ρ
  | [] => [row]
  | held :: rest =>
    if (Filed.idOf row).raw < (Filed.idOf held).raw then row :: held :: rest
    else if (Filed.idOf row).raw = (Filed.idOf held).raw then row :: rest
    else held :: insertRow row rest

theorem mem_insertRow_raw {row other : ρ} {rows : List ρ} (member : other ∈ insertRow row rows) :
    other = row ∨ other ∈ rows := by
  induction rows with
  | nil => simpa [insertRow] using member
  | cons held rest ih =>
    rw [insertRow] at member
    split at member
    · simpa using member
    · split at member
      · rcases List.mem_cons.mp member with same | later
        · exact Or.inl same
        · exact Or.inr (List.mem_cons_of_mem _ later)
      · rcases List.mem_cons.mp member with same | later
        · exact Or.inr (same ▸ List.mem_cons_self)
        · rcases ih later with same | kept
          · exact Or.inl same
          · exact Or.inr (List.mem_cons_of_mem _ kept)

theorem ascending_insertRow (row : ρ) {rows : List ρ}
    (ascending : rows.Pairwise
      (fun earlier later => (Filed.idOf earlier).raw < (Filed.idOf later).raw)) :
    (insertRow row rows).Pairwise
      (fun earlier later => (Filed.idOf earlier).raw < (Filed.idOf later).raw) := by
  induction rows with
  | nil => simp [insertRow]
  | cons held rest ih =>
    have ⟨front, behind⟩ := List.pairwise_cons.mp ascending
    rw [insertRow]
    split
    · rename_i before
      refine List.pairwise_cons.mpr ⟨fun other member => ?_, ascending⟩
      rcases List.mem_cons.mp member with same | later
      · exact same ▸ before
      · exact Int.lt_trans before (front other later)
    · split
      · rename_i same
        exact List.pairwise_cons.mpr ⟨fun other later => same ▸ front other later, behind⟩
      · rename_i notBefore different
        refine List.pairwise_cons.mpr ⟨fun other member => ?_, ih behind⟩
        rcases mem_insertRow_raw member with same | later
        · subst same
          omega
        · exact front other later

/-- The table with a record added; one of the same identifier is replaced. -/
def insert (table : Table ρ) (row : ρ) : Table ρ :=
  ⟨insertRow row table.rows, ascending_insertRow row table.ascending⟩

/-- The table with the record of the given identifier changed; the change keeps identifiers. -/
def modify (table : Table ρ) (id : Id kind) (change : ρ → ρ)
    (keeps : ∀ row, Filed.idOf (change row) = Filed.idOf row) : Table ρ where
  rows := table.rows.map (fun row => if Filed.idOf row = id then change row else row)
  ascending := by
    refine List.pairwise_map.mpr (table.ascending.imp ?_)
    intro earlier later before
    have sameId : ∀ row : ρ,
        Filed.idOf (if Filed.idOf row = id then change row else row) = Filed.idOf row := by
      intro row
      split
      · exact keeps row
      · rfl
    rw [sameId, sameId]
    exact before

/-- The table with only the records that satisfy `keep`. -/
def filter (table : Table ρ) (keep : ρ → Bool) : Table ρ :=
  ⟨table.rows.filter keep, table.ascending.filter _⟩

/-- The table without the record of the given identifier. -/
def erase (table : Table ρ) (id : Id kind) : Table ρ :=
  table.filter (fun row => Filed.idOf row ≠ id)

theorem mem_of_get? {table : Table ρ} {id : Id kind} {row : ρ} (found : table.get? id = some row) :
    row ∈ table.rows ∧ Filed.idOf row = id := by
  refine ⟨List.mem_of_find?_eq_some found, ?_⟩
  have holds := List.find?_some found
  simpa using holds

theorem eq_of_mem_of_idOf {table : Table ρ} {first second : ρ} (firstHeld : first ∈ table.rows)
    (secondHeld : second ∈ table.rows) (same : Filed.idOf first = Filed.idOf second) :
    first = second := by
  obtain ⟨rows, ascending⟩ := table
  dsimp only at firstHeld secondHeld
  induction rows with
  | nil => simp at firstHeld
  | cons held rest ih =>
    have ⟨front, behind⟩ := List.pairwise_cons.mp ascending
    rcases List.mem_cons.mp firstHeld with rfl | firstLater
    · rcases List.mem_cons.mp secondHeld with rfl | secondLater
      · rfl
      · have := front second secondLater
        rw [same] at this
        omega
    · rcases List.mem_cons.mp secondHeld with rfl | secondLater
      · have := front first firstLater
        rw [same] at this
        omega
      · exact ih behind firstLater secondLater

theorem get?_eq_some_iff {table : Table ρ} {id : Id kind} {row : ρ} :
    table.get? id = some row ↔ row ∈ table.rows ∧ Filed.idOf row = id := by
  refine ⟨mem_of_get?, fun ⟨member, filed⟩ => ?_⟩
  cases found : table.get? id with
  | none =>
    have absent := List.find?_eq_none.mp found row member
    simp [filed] at absent
  | some other =>
    obtain ⟨otherMember, otherFiled⟩ := mem_of_get? found
    rw [eq_of_mem_of_idOf otherMember member (otherFiled.trans filed.symm)]

theorem mem_rows_filter {table : Table ρ} {keep : ρ → Bool} {row : ρ} :
    row ∈ (table.filter keep).rows ↔ row ∈ table.rows ∧ keep row = true := by
  simp [filter]

theorem mem_rows_erase {table : Table ρ} {id : Id kind} {row : ρ} :
    row ∈ (table.erase id).rows ↔ row ∈ table.rows ∧ Filed.idOf row ≠ id := by
  simp [erase, mem_rows_filter]

end Table

end NodeSteward
