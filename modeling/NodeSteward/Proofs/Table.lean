import NodeSteward.Table

/-!
# What the operations of a table do to its rows

The rows of a table after an operation, one statement for each operation, and the uniqueness of
the record that is filed under an identifier.  Later proofs speak of rows only through these.
-/

namespace NodeSteward

namespace Table

variable {kind : IdKind} {ρ : Type} [Filed kind ρ] {table : Table ρ} {id : Id kind}

/-- Rows are distinct because their identifiers ascend. -/
theorem nodup_rows_idOf (table : Table ρ) : (table.rows.map Filed.idOf).Nodup := by
  refine List.pairwise_map.mpr (table.ascending.imp ?_)
  intro earlier later before same
  rw [same] at before
  exact Int.lt_irrefl _ before

theorem nodup_rows (table : Table ρ) : table.rows.Nodup :=
  List.Pairwise.of_map Filed.idOf (fun _ _ different same => different (congrArg _ same))
    table.nodup_rows_idOf

/-- Looking up an identifier finds exactly the row that carries it. -/
def FiledByOwnId (table : Table ρ) : Prop :=
  ∀ (id : Id kind) (row : ρ), table.get? id = some row ↔ row ∈ table.rows ∧ Filed.idOf row = id

theorem filedByOwnId (table : Table ρ) : table.FiledByOwnId :=
  fun _ _ => get?_eq_some_iff

theorem get?_isSome_iff : (table.get? id).isSome ↔ ∃ row ∈ table.rows, Filed.idOf row = id := by
  constructor
  · intro present
    rcases Option.isSome_iff_exists.mp present with ⟨row, found⟩
    exact ⟨row, mem_of_get? found⟩
  · rintro ⟨row, member, filed⟩
    rw [get?_eq_some_iff.mpr ⟨member, filed⟩]
    rfl

theorem contains_iff : table.contains id = true ↔ ∃ row ∈ table.rows, Filed.idOf row = id :=
  get?_isSome_iff

theorem contains_of_mem {row : ρ} (member : row ∈ table.rows) :
    table.contains (Filed.idOf row) = true :=
  contains_iff.mpr ⟨row, member, rfl⟩

theorem mem_insertRow {row other : ρ} {rows : List ρ}
    (ascending : rows.Pairwise
      (fun earlier later => (Filed.idOf earlier : Id kind).raw < (Filed.idOf later).raw)) :
    other ∈ insertRow row rows ↔
      other = row ∨ (other ∈ rows ∧ (Filed.idOf other : Id kind) ≠ Filed.idOf row) := by
  induction rows with
  | nil => simp [insertRow]
  | cons held rest ih =>
    rcases List.pairwise_cons.mp ascending with ⟨front, behind⟩
    -- every row behind a greater one is greater too, so it is another record
    have differs : ∀ later : ρ, (Filed.idOf row : Id kind).raw < (Filed.idOf later : Id kind).raw →
        (Filed.idOf later : Id kind) ≠ Filed.idOf row := by
      intro later greater same
      rw [same] at greater
      exact Int.lt_irrefl _ greater
    rw [insertRow]
    split
    · rename_i before
      have others : ∀ later ∈ held :: rest, (Filed.idOf later : Id kind) ≠ Filed.idOf row := by
        intro later member
        rcases List.mem_cons.mp member with rfl | behindHeld
        · exact differs _ before
        · exact differs _ (Int.lt_trans before (front later behindHeld))
      rw [List.mem_cons]
      constructor
      · rintro (same | member)
        · exact Or.inl same
        · exact Or.inr ⟨member, others other member⟩
      · rintro (same | ⟨member, _⟩)
        · exact Or.inl same
        · exact Or.inr member
    · split
      · rename_i same
        have replaced : (Filed.idOf held : Id kind) = Filed.idOf row := Id.ext_raw same.symm
        have others : ∀ later ∈ rest, (Filed.idOf later : Id kind) ≠ Filed.idOf row := by
          intro later member
          exact differs _ (same ▸ front later member)
        rw [List.mem_cons]
        constructor
        · rintro (same | member)
          · exact Or.inl same
          · exact Or.inr ⟨List.mem_cons_of_mem _ member, others other member⟩
        · rintro (same | ⟨member, different⟩)
          · exact Or.inl same
          · rcases List.mem_cons.mp member with rfl | later
            · exact absurd replaced different
            · exact Or.inr later
      · rename_i notBefore different
        have kept : (Filed.idOf held : Id kind) ≠ Filed.idOf row := by
          intro same
          exact different (congrArg Id.raw same.symm)
        rw [List.mem_cons, ih behind, List.mem_cons]
        constructor
        · rintro (rfl | same | ⟨member, distinct⟩)
          · exact Or.inr ⟨Or.inl rfl, kept⟩
          · exact Or.inl same
          · exact Or.inr ⟨Or.inr member, distinct⟩
        · rintro (same | ⟨same | member, distinct⟩)
          · exact Or.inr (Or.inl same)
          · exact Or.inl same
          · exact Or.inr (Or.inr ⟨member, distinct⟩)

/-- Inserting keeps every record but the one that was filed under the same identifier. -/
theorem mem_rows_insert {row other : ρ} :
    other ∈ (table.insert row).rows ↔
      other = row ∨ (other ∈ table.rows ∧ (Filed.idOf other : Id kind) ≠ Filed.idOf row) :=
  mem_insertRow table.ascending

/-- A change touches only the record of the given identifier. -/
theorem mem_rows_modify {change : ρ → ρ}
    (keeps : ∀ row, (Filed.idOf (change row) : Id kind) = Filed.idOf row) {row : ρ} :
    row ∈ (table.modify id change keeps).rows ↔
      ∃ held ∈ table.rows, (if Filed.idOf held = id then change held else held) = row := by
  simp only [modify, List.mem_map]

/-- A record after a change is the changed one of the identifier, or one of the others. -/
theorem mem_rows_modify_iff {change : ρ → ρ}
    (keeps : ∀ row, (Filed.idOf (change row) : Id kind) = Filed.idOf row) {row : ρ} :
    row ∈ (table.modify id change keeps).rows ↔
      (∃ held ∈ table.rows, Filed.idOf held = id ∧ change held = row) ∨
        (row ∈ table.rows ∧ Filed.idOf row ≠ id) := by
  rw [mem_rows_modify]
  constructor
  · rintro ⟨held, member, rfl⟩
    split
    · rename_i targeted
      exact Or.inl ⟨held, member, targeted, rfl⟩
    · rename_i spared
      exact Or.inr ⟨member, spared⟩
  · rintro (⟨held, member, targeted, rfl⟩ | ⟨member, spared⟩)
    · exact ⟨held, member, if_pos targeted⟩
    · exact ⟨row, member, if_neg spared⟩

/-- Looking up after a change finds what was there before, and under the identifier what the
change made of it. -/
theorem get?_modify {changed : Id kind} {change : ρ → ρ}
    (keeps : ∀ row, (Filed.idOf (change row) : Id kind) = Filed.idOf row) :
    (table.modify changed change keeps).get? id =
      if id = changed then (table.get? id).map change else table.get? id := by
  apply Option.ext
  intro row
  rw [get?_eq_some_iff, mem_rows_modify_iff]
  split
  · rename_i targeted
    rw [Option.map_eq_some_iff, targeted]
    constructor
    · rintro ⟨⟨held, member, filed, rfl⟩ | ⟨_, spared⟩, named⟩
      · exact ⟨held, get?_eq_some_iff.mpr ⟨member, filed⟩, rfl⟩
      · exact absurd named spared
    · rintro ⟨held, found, rfl⟩
      rcases get?_eq_some_iff.mp found with ⟨member, filed⟩
      exact ⟨Or.inl ⟨held, member, filed, rfl⟩, (keeps held).trans filed⟩
  · rename_i spared
    rw [get?_eq_some_iff]
    constructor
    · rintro ⟨⟨held, _, filed, rfl⟩ | ⟨member, _⟩, named⟩
      · exact absurd (named.symm.trans ((keeps held).trans filed)) spared
      · exact ⟨member, named⟩
    · rintro ⟨member, named⟩
      exact ⟨Or.inr ⟨member, fun same => spared (named.symm.trans same)⟩, named⟩

theorem contains_insert {row : ρ} :
    (table.insert row).contains id = true ↔ id = Filed.idOf row ∨ table.contains id = true := by
  simp only [contains_iff, mem_rows_insert]
  constructor
  · rintro ⟨other, rfl | ⟨member, _⟩, filed⟩
    · exact Or.inl filed.symm
    · exact Or.inr ⟨other, member, filed⟩
  · rintro (rfl | ⟨other, member, filed⟩)
    · exact ⟨row, Or.inl rfl, rfl⟩
    · by_cases replaced : (Filed.idOf other : Id kind) = Filed.idOf row
      · exact ⟨row, Or.inl rfl, replaced.symm.trans filed⟩
      · exact ⟨other, Or.inr ⟨member, replaced⟩, filed⟩

theorem contains_modify {changed : Id kind} {change : ρ → ρ}
    (keeps : ∀ row, (Filed.idOf (change row) : Id kind) = Filed.idOf row) :
    (table.modify changed change keeps).contains id = true ↔ table.contains id = true := by
  have sameId : ∀ row : ρ,
      (Filed.idOf (if Filed.idOf row = changed then change row else row) : Id kind) =
        Filed.idOf row := by
    intro row
    split
    · exact keeps row
    · rfl
  simp only [contains_iff, mem_rows_modify]
  constructor
  · rintro ⟨_, ⟨held, member, rfl⟩, filed⟩
    exact ⟨held, member, (sameId held).symm.trans filed⟩
  · rintro ⟨held, member, filed⟩
    exact ⟨_, ⟨held, member, rfl⟩, (sameId held).trans filed⟩

theorem contains_of_filter {keep : ρ → Bool} (held : (table.filter keep).contains id = true) :
    table.contains id = true := by
  rcases contains_iff.mp held with ⟨row, member, filed⟩
  exact contains_iff.mpr ⟨row, (mem_rows_filter.mp member).1, filed⟩

theorem filter_congr {keep other : ρ → Bool} (same : ∀ row ∈ table.rows, keep row = other row) :
    table.filter keep = table.filter other := by
  unfold filter
  congr 1
  exact List.filter_congr same

theorem filter_eq_self {keep : ρ → Bool} (all : ∀ row ∈ table.rows, keep row = true) :
    table.filter keep = table := by
  rcases table with ⟨rows, ascending⟩
  unfold filter
  congr 1
  exact List.filter_eq_self.mpr all

theorem filter_filter (table : Table ρ) (keep other : ρ → Bool) :
    (table.filter keep).filter other = table.filter (fun row => keep row && other row) := by
  unfold filter
  congr 1
  rw [List.filter_filter]
  refine List.filter_congr ?_
  intro row _
  exact Bool.and_comm _ _

/-- Looking up after a filter finds the same record, unless that one was filtered out. -/
theorem get?_filter (table : Table ρ) (keep : ρ → Bool) (id : Id kind) :
    (table.filter keep).get? id = (table.get? id).filter keep := by
  apply Option.ext
  intro row
  rw [get?_eq_some_iff, mem_rows_filter, Option.filter_eq_some_iff, get?_eq_some_iff]
  exact and_right_comm

theorem contains_filter {keep : ρ → Bool} (held : table.contains id = true)
    (kept : ∀ row, (Filed.idOf row : Id kind) = id → keep row = true) :
    (table.filter keep).contains id = true := by
  rcases contains_iff.mp held with ⟨row, member, filed⟩
  exact contains_iff.mpr ⟨row, mem_rows_filter.mpr ⟨member, kept row filed⟩, filed⟩

/-- A record is among the filtered rows when it is found and the filter keeps it. -/
theorem any_filter_rows (table : Table ρ) (keep : ρ → Bool) (id : Id kind) :
    (table.rows.filter keep).any (fun row => id = Filed.idOf row) = (table.get? id).any keep := by
  rw [Bool.eq_iff_iff, List.any_eq_true, Option.any_eq_true]
  constructor
  · rintro ⟨row, listed, filed⟩
    rcases List.mem_filter.mp listed with ⟨member, kept⟩
    have same : id = Filed.idOf row := of_decide_eq_true filed
    exact ⟨row, get?_eq_some_iff.mpr ⟨member, same.symm⟩, kept⟩
  · rintro ⟨row, found, kept⟩
    rcases get?_eq_some_iff.mp found with ⟨member, filed⟩
    exact ⟨row, List.mem_filter.mpr ⟨member, kept⟩, decide_eq_true filed.symm⟩

end Table

end NodeSteward
