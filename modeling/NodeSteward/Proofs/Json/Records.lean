import Mathlib.Data.List.Basic
import NodeSteward.Json.Decode
import NodeSteward.Proofs.Json.Decoding
import NodeSteward.Proofs.Text.Numerals

/-!
# Records that read back

A record is written as an object with a member for each of its fields, and the members are put in
the order of their names.  The decoder looks its fields up by name, so that the order does not
matter as long as each name stands once: a field is decoded from just the value that was written
for it.
-/

namespace NodeSteward

namespace Json

variable {members : List (String × Json)} {name : String} {value : Json}

/-- A member of a new name is put among the others. -/
theorem perm_insertMember (new : name ∉ members.map Prod.fst) :
    (insertMember name value members).Perm ((name, value) :: members) := by
  induction members with
  | nil => exact List.Perm.refl _
  | cons held members ih =>
    rw [List.map_cons, List.mem_cons, not_or] at new
    rw [insertMember, if_neg new.1]
    split
    · exact List.Perm.refl _
    · exact ((ih new.2).cons held).trans (List.Perm.swap _ _ _)

/-- Members of different names are only put in order. -/
theorem perm_orderedMembers (once : (members.map Prod.fst).Nodup) :
    (orderedMembers members).Perm members := by
  have through : ∀ start, ((start ++ members).map Prod.fst).Nodup → (members.foldl
      (fun ordered member => insertMember member.1 member.2 ordered) start).Perm
        (start ++ members) := by
    clear once
    induction members with
    | nil => simp
    | cons first members ih =>
      intro start once
      have moved : (start ++ first :: members).Perm (first :: start ++ members) :=
        List.perm_middle
      have new : first.1 ∉ start.map Prod.fst := by
        have front := (moved.map Prod.fst).nodup_iff.mp once
        simp at front ⊢
        exact front.1.1
      have placed : (insertMember first.1 first.2 start ++ members).Perm
          (start ++ first :: members) :=
        ((perm_insertMember new).append_right members).trans moved.symm
      apply (ih _ ((placed.map Prod.fst).nodup_iff.mpr once)).trans placed
  exact through [] once

end Json

namespace Source

variable {names : List String} {members : List (String × Json)}

/-- Members whose names are fields and stand once are all collected. -/
theorem exists_collect {held : List (String × Source)} (once : (members.map Prod.fst).Nodup)
    (known : ∀ name ∈ members.map Prod.fst, name ∈ names)
    (free : ∀ name ∈ members.map Prod.fst, held.lookup name = none) :
    ∃ found, collect names held (ofMembers members) = some found ∧
      (∀ member ∈ members, found.lookup member.1 = some (ofJson member.2)) ∧
      ∀ name ∉ members.map Prod.fst, found.lookup name = held.lookup name := by
  induction members generalizing held with
  | nil => exact ⟨held, rfl, List.forall_mem_nil _, fun _ _ => rfl⟩
  | cons first members ih =>
    rcases first with ⟨name, value⟩
    rw [List.map_cons, List.nodup_cons] at once
    rw [List.map_cons, List.forall_mem_cons] at known free
    have later : ∀ other ∈ members.map Prod.fst,
        List.lookup other ((name, ofJson value) :: held) = none := by
      intro other listed
      have different : (other == name) = false :=
        beq_false_of_ne fun same => once.1 (same ▸ listed)
      rw [List.lookup_cons, different, free.2 other listed]
    rcases ih once.2 known.2 later with ⟨found, collected, holds, keeps⟩
    refine ⟨found, ?_, ?_, ?_⟩
    · rw [ofMembers, collect, if_pos known.1, free.1]
      exact collected
    · rw [List.forall_mem_cons]
      refine ⟨?_, holds⟩
      rw [keeps name once.1, List.lookup_cons_self]
    · intro other unlisted
      rw [List.map_cons, List.mem_cons, not_or] at unlisted
      rw [keeps other unlisted.2, List.lookup_cons, beq_false_of_ne unlisted.1]

/-- Each field of a record is decoded from the value that is written for it. -/
theorem exists_slots {value : Json} (written : value = .ofMembers members)
    (once : (members.map Prod.fst).Nodup) :
    ∃ slots, (ofJson value).slots? (members.map Prod.fst) = some slots ∧
      ∀ member ∈ members, ∀ {α : Type} (decode : Source → Option α),
        slots.required member.1 decode = decode (ofJson member.2) := by
  have same := Json.perm_orderedMembers once
  have names := same.map Prod.fst
  have nothing : ∀ name ∈ (Json.orderedMembers members).map Prod.fst,
      ([] : List (String × Source)).lookup name = none := fun _ _ => rfl
  rcases exists_collect (names.nodup_iff.mpr once) (fun name => names.mem_iff.mp) nothing with
    ⟨found, collected, holds, -⟩
  refine ⟨⟨false, found⟩, ?_, ?_⟩
  · rw [written, Json.ofMembers, ofJson, slots?, collected, Option.map_some]
  · intro member listed α decode
    rw [Slots.required, holds member (same.mem_iff.mpr listed), Option.bind_some]

theorem integer?_ofInt {lowest highest value : Int} (above : lowest ≤ value)
    (below : value ≤ highest) :
    integer? lowest highest (ofJson (.ofInt value)) = some value :=
  if_pos ⟨above, below⟩

theorem int64?_ofInt {value : Int} (word : Decimal.IsInt64 value) :
    int64? (ofJson (.ofInt value)) = some value := by
  rcases Decimal.isInt64_iff.mp word with ⟨above, below⟩
  exact integer?_ofInt above below

@[simp]
theorem uint64?_ofNat (value : UInt64) : uint64? (ofJson (.ofNat value.toNat)) = some value := by
  have bound := value.toNat_lt
  have read : integer? 0 0xffffffffffffffff (ofJson (.ofNat value.toNat)) = some value.toNat :=
    integer?_ofInt (by omega) (by omega)
  simp [uint64?, read]

@[simp]
theorem uint32?_ofNat (value : UInt32) : uint32? (ofJson (.ofNat value.toNat)) = some value := by
  have bound := value.toNat_lt
  have read : integer? 0 0xffffffff (ofJson (.ofNat value.toNat)) = some value.toNat :=
    integer?_ofInt (by omega) (by omega)
  simp [uint32?, read]

@[simp]
theorem byte?_ofNat (value : UInt8) : byte? (ofJson (.ofNat value.toNat)) = some value := by
  have bound := value.toNat_lt
  have read : integer? 0 255 (ofJson (.ofNat value.toNat)) = some value.toNat :=
    integer?_ofInt (by omega) (by omega)
  simp [byte?, read]

@[simp]
theorem text?_text (value : String) : text? (ofJson (.text value)) = some value := rfl

@[simp]
theorem boolean?_boolean (value : Bool) : boolean? (ofJson (.boolean value)) = some value := rfl

theorem list?_ofList {α : Type} {encode : α → Json} {decode : Source → Option α}
    (each : ∀ value, decode (ofJson (encode value)) = some value) (values : List α) :
    list? decode (ofJson (.ofList encode values)) = some values := by
  rw [Json.ofList, ofJson, list?]
  induction values with
  | nil => rfl
  | cons value values ih =>
    rw [List.map_cons, ofItems, List.mapM_cons, each, ih]
    rfl

/-- A case is found by its name if no other case has that name. -/
theorem case?_text {α : Type} {cases : List α} {name : α → String} {value : α}
    (listed : value ∈ cases) (own : ∀ other ∈ cases, name other = name value → other = value) :
    case? cases name (ofJson (.text (name value))) = some value := by
  have found : case? cases name (ofJson (.text (name value))) =
      cases.find? (fun other => name other == name value) := rfl
  rw [found]
  cases first : cases.find? (fun other => name other == name value) with
  | none => simpa using List.find?_eq_none.mp first value listed
  | some other =>
    have same : name other = name value := by simpa using List.find?_some first
    rw [own other (List.mem_of_find?_eq_some first) same]

end Source

end NodeSteward
