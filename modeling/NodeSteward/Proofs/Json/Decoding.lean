import NodeSteward.Proofs.Json.Reading

/-!
# Values that decode to themselves

A value that is read back as it was printed has still to be decoded.  An object is decoded with
its members in order, so the statements are about values whose members are in order everywhere;
what is decoded is such a value.

Two things keep a value from being decoded as itself: lists and objects that stand inside one
another too deep, and an object whose first member has the name that is reserved for texts in
place of values.
-/

namespace NodeSteward

namespace Json

/-- The names ascend, so that each stands once. -/
def Ascending (members : List (String × Json)) : Prop :=
  (members.map Prod.fst).Pairwise (· < ·)

instance (members : List (String × Json)) : Decidable (Ascending members) :=
  inferInstanceAs (Decidable ((members.map Prod.fst).Pairwise (· < ·)))

variable {members others : List (String × Json)} {name : String} {value : Json}

theorem mem_insertMember {member : String × Json}
    (listed : member ∈ insertMember name value members) :
    member = (name, value) ∨ member ∈ members := by
  induction members with
  | nil => exact Or.inl (List.mem_singleton.mp listed)
  | cons held members ih =>
    rcases held with ⟨other, held⟩
    rw [insertMember] at listed
    split at listed
    · exact (List.mem_cons.mp listed).imp_right (List.mem_cons_of_mem _)
    split at listed
    · exact List.mem_cons.mp listed
    · rcases List.mem_cons.mp listed with rfl | later
      · exact Or.inr List.mem_cons_self
      · exact (ih later).imp_right (List.mem_cons_of_mem _)

theorem mem_names_insertMember {other : String} :
    other ∈ (insertMember name value members).map Prod.fst ↔
      other = name ∨ other ∈ members.map Prod.fst := by
  induction members with
  | nil => simp [insertMember]
  | cons held members ih =>
    rcases held with ⟨held, content⟩
    rw [insertMember]
    split
    · rename_i same
      simp [same]
    split
    · simp
    · rw [List.map_cons, List.mem_cons, ih, List.map_cons, List.mem_cons, or_left_comm]

theorem ascending_insertMember (ascending : Ascending members) :
    Ascending (insertMember name value members) := by
  induction members with
  | nil => exact List.pairwise_singleton _ _
  | cons held members ih =>
    rcases held with ⟨held, content⟩
    rcases List.pairwise_cons.mp ascending with ⟨front, behind⟩
    rw [insertMember]
    split
    · rename_i same
      subst same
      exact ascending
    split
    · rename_i before
      refine List.pairwise_cons.mpr ⟨fun other listed => ?_, ascending⟩
      rcases List.mem_cons.mp listed with rfl | later
      · exact before
      · exact String.lt_trans before (front other later)
    · rename_i different notBefore
      refine List.pairwise_cons.mpr ⟨fun other listed => ?_, ih behind⟩
      rcases mem_names_insertMember.mp listed with rfl | later
      · exact String.not_le.mp fun below =>
          different (String.le_antisymm below (String.not_lt.mp notBefore))
      · exact front other later

theorem ascending_orderedMembers (members : List (String × Json)) :
    Ascending (orderedMembers members) :=
  List.foldlRecOn members _ List.Pairwise.nil
    fun _ ascending _ _ => ascending_insertMember ascending

theorem mem_orderedMembers {member : String × Json} (listed : member ∈ orderedMembers members) :
    member ∈ members := by
  refine List.foldlRecOn (motive := fun ordered => member ∈ ordered → member ∈ members) members _
    (fun listed => absurd listed List.not_mem_nil) ?_ listed
  intro ordered earlier first present listed
  rcases mem_insertMember listed with rfl | held
  · exact present
  · exact earlier held

/-- Every name keeps a member. -/
theorem mem_names_orderedMembers {other : String} (listed : other ∈ members.map Prod.fst) :
    other ∈ (orderedMembers members).map Prod.fst := by
  have through : ∀ start, other ∈ start.map Prod.fst ∨ other ∈ members.map Prod.fst →
      other ∈ (members.foldl
        (fun ordered member => insertMember member.1 member.2 ordered) start).map Prod.fst := by
    clear listed
    induction members with
    | nil => exact fun start listed => listed.resolve_right List.not_mem_nil
    | cons first members ih =>
      intro start listed
      apply ih
      rw [mem_names_insertMember]
      rcases listed with held | listed
      · exact Or.inl (Or.inr held)
      · exact (List.mem_cons.mp listed).imp_left Or.inl
  exact through [] (Or.inr listed)

theorem insertMember_of_lt (last : ∀ other ∈ members.map Prod.fst, other < name) :
    insertMember name value members = members ++ [(name, value)] := by
  induction members with
  | nil => rfl
  | cons held members ih =>
    rcases held with ⟨held, content⟩
    have before : held < name := last held List.mem_cons_self
    have different : name ≠ held := fun same => String.lt_irrefl held (same ▸ before)
    have notBefore : ¬ name < held := String.lt_asymm before
    rw [insertMember, if_neg different, if_neg notBefore,
      ih fun other listed => last other (List.mem_cons_of_mem _ listed)]
    rfl

/-- Members in order are their own ordered form. -/
theorem orderedMembers_of_ascending (ascending : Ascending members) :
    orderedMembers members = members := by
  have through : ∀ start, Ascending (start ++ members) → members.foldl
      (fun ordered member => insertMember member.1 member.2 ordered) start = start ++ members := by
    clear ascending
    induction members with
    | nil => exact fun start _ => (List.append_nil start).symm
    | cons first members ih =>
      intro start ascending
      have last : ∀ other ∈ start.map Prod.fst, other < first.1 := by
        rw [Ascending, List.map_append] at ascending
        exact fun other listed =>
          (List.pairwise_append.mp ascending).2.2 other listed first.1 List.mem_cons_self
      rw [List.foldl_cons, insertMember_of_lt last, ih, List.append_assoc]
      · rfl
      · rw [List.append_assoc]
        exact ascending
  exact through [] ascending

/-! ## What is required of a value -/

/-- An object has its members in order. -/
def isOrdered : Json → Bool
  | .object members => Ascending members
  | _ => true

/-- The members of every object are in order. -/
def Ordered (value : Json) : Prop :=
  ∀ part ∈ value.parts, part.isOrdered = true

instance (value : Json) : Decidable value.Ordered :=
  inferInstanceAs (Decidable (∀ part ∈ value.parts, part.isOrdered = true))

theorem ordered_leaf (leaf : value.parts = [value]) (free : value.isOrdered = true) :
    value.Ordered := by
  rw [Ordered, leaf, List.forall_mem_singleton]
  exact free

/-- An object whose first member has the name that is reserved for texts in place of values. -/
def startsEmbedded : Json → Bool
  | .object ((name, _) :: _) => name = Source.embeddedName
  | _ => false

/-- No object starts with the reserved name. -/
def Plain (value : Json) : Prop :=
  ∀ part ∈ value.parts, part.startsEmbedded = false

instance (value : Json) : Decidable value.Plain :=
  inferInstanceAs (Decidable (∀ part ∈ value.parts, part.startsEmbedded = false))

mutual

/-- How many lists and objects stand inside one another. -/
def nesting : Json → Nat
  | .list items => nestingOfItems items + 1
  | .object members => nestingOfMembers members + 1
  | _ => 0

def nestingOfItems : List Json → Nat
  | [] => 0
  | item :: items => max item.nesting (nestingOfItems items)

def nestingOfMembers : List (String × Json) → Nat
  | [] => 0
  | (_, value) :: members => max value.nesting (nestingOfMembers members)

end

theorem nestingOfItems_le_iff {items : List Json} {bound : Nat} :
    nestingOfItems items ≤ bound ↔ ∀ item ∈ items, item.nesting ≤ bound := by
  induction items with
  | nil => simp [nestingOfItems]
  | cons item items ih => simp [nestingOfItems, ih]

theorem nestingOfMembers_le_iff {bound : Nat} :
    nestingOfMembers members ≤ bound ↔ ∀ member ∈ members, member.2.nesting ≤ bound := by
  induction members with
  | nil => simp [nestingOfMembers]
  | cons member members ih => simp [nestingOfMembers, ih]

section Parts

variable {holds : Json → Prop}

theorem forall_parts_list {items : List Json} :
    (∀ part ∈ (Json.list items).parts, holds part) ↔
      holds (.list items) ∧ ∀ item ∈ items, ∀ part ∈ item.parts, holds part := by
  rw [parts, List.forall_mem_cons]
  refine and_congr_right fun _ => ?_
  constructor
  · exact fun all item listed part inside => all part (mem_partsOfItems.mpr ⟨item, listed, inside⟩)
  · intro all part inside
    rcases mem_partsOfItems.mp inside with ⟨item, listed, inside⟩
    exact all item listed part inside

theorem forall_parts_object :
    (∀ part ∈ (Json.object members).parts, holds part) ↔
      holds (.object members) ∧ ∀ member ∈ members, ∀ part ∈ member.2.parts, holds part := by
  rw [parts, List.forall_mem_cons]
  refine and_congr_right fun _ => ?_
  constructor
  · exact fun all member listed part inside =>
      all part (mem_partsOfMembers.mpr ⟨member, listed, inside⟩)
  · intro all part inside
    rcases mem_partsOfMembers.mp inside with ⟨member, listed, inside⟩
    exact all member listed part inside

end Parts

end Json

namespace Source

variable {read : String → Option Json} {nesting : Nat}

theorem itemsToJson?_ofItems_iff {items : List Json} :
    itemsToJson? read nesting (ofItems items) = some items ↔
      ∀ item ∈ items, toJsonWith read nesting (ofJson item) = some item := by
  induction items with
  | nil => simp [ofItems, itemsToJson?]
  | cons item items ih =>
    rw [ofItems, itemsToJson?, List.forall_mem_cons, ← ih]
    cases toJsonWith read nesting (ofJson item) <;>
      cases itemsToJson? read nesting (ofItems items) <;> simp

theorem membersToJson?_cons (name : Option String) (source : Source)
    (members : List (Option String × Source)) :
    membersToJson? read nesting ((name, source) :: members) =
      name.bind fun name => (toJsonWith read nesting source).bind fun value =>
        (membersToJson? read nesting members).map fun values => (name, value) :: values := by
  conv => lhs; unfold membersToJson?
  cases name with
  | none => rfl
  | some name =>
    cases toJsonWith read nesting source <;> cases membersToJson? read nesting members <;> rfl

theorem membersToJson?_ofMembers_iff {members : List (String × Json)} :
    membersToJson? read nesting (ofMembers members) = some members ↔
      ∀ member ∈ members, toJsonWith read nesting (ofJson member.2) = some member.2 := by
  induction members with
  | nil => simp [ofMembers, membersToJson?]
  | cons member members ih =>
    rcases member with ⟨name, value⟩
    rw [ofMembers, membersToJson?_cons, List.forall_mem_cons, ← ih]
    cases toJsonWith read nesting (ofJson value) <;>
      cases membersToJson? read nesting (ofMembers members) <;> simp

/-- The members of an object are decoded under their names. -/
theorem names_of_membersToJson? {members : List (Option String × Source)}
    {values : List (String × Json)}
    (decoded : membersToJson? read nesting members = some values) :
    members.map Prod.fst = (values.map Prod.fst).map some := by
  induction members generalizing values with
  | nil =>
    cases decoded
    rfl
  | cons member members ih =>
    rcases member with ⟨name, source⟩
    rw [membersToJson?_cons] at decoded
    simp only [Option.bind_eq_some_iff, Option.map_eq_some_iff] at decoded
    rcases decoded with ⟨name, rfl, value, -, others, later, rfl⟩
    rw [List.map_cons, ih later]
    rfl

theorem names_ofMembers (members : List (String × Json)) :
    (ofMembers members).map Prod.fst = (members.map Prod.fst).map some := by
  induction members with
  | nil => rfl
  | cons member members ih =>
    rcases member with ⟨name, value⟩
    rw [ofMembers, List.map_cons, ih]
    rfl

theorem embedded?_reserved (source : Source) (members : List (Option String × Source)) :
    embedded? ((some embeddedName, source) :: members) =
      match source, members with
      | .text held, [] => some held
      | _, _ => some none := by
  unfold embedded?
  exact if_pos rfl

theorem embedded?_of_ne {name : String} (other : name ≠ embeddedName) (source : Source)
    (members : List (Option String × Source)) :
    embedded? ((some name, source) :: members) = none := by
  unfold embedded?
  exact if_neg other

theorem embedded?_eq_none_iff {members : List (Option String × Source)} :
    embedded? members = none ↔ (members.map Prod.fst).head? ≠ some (some embeddedName) := by
  rcases members with _ | ⟨⟨_ | name, source⟩, members⟩
  · exact iff_of_true rfl nofun
  · exact iff_of_true rfl (by simp)
  · by_cases reserved : name = embeddedName
    · subst reserved
      rw [embedded?_reserved]
      refine iff_of_false ?_ (by simp)
      split <;> exact nofun
    · exact iff_of_true (embedded?_of_ne reserved source members) (by simpa using reserved)

/-- No text is read as an object that holds a text in place of a value. -/
def NeverEmbeds (read : String → Option Json) : Prop :=
  ∀ held inner, read held ≠ some (.object [(embeddedName, .text inner)])

theorem orderedMembers_ne_embedding {values : List (String × Json)} {value : Json}
    (plain : (values.map Prod.fst).head? ≠ some embeddedName) :
    Json.orderedMembers values ≠ [(embeddedName, value)] := by
  intro ordered
  cases values with
  | nil => cases ordered
  | cons first values =>
    have listed : first.1 ∈ (first :: values).map Prod.fst := List.mem_cons_self
    have kept := Json.mem_names_orderedMembers listed
    rw [ordered] at kept
    exact plain (congrArg some (List.mem_singleton.mp kept))

theorem toJsonWith_ne_embedding (never : NeverEmbeds read) (source : Source) (inner : String) :
    toJsonWith read nesting source ≠ some (.object [(embeddedName, .text inner)]) := by
  intro decoded
  cases source with
  | object members =>
    cases nesting with
    | zero => cases decoded
    | succ nesting =>
      rw [toJsonWith] at decoded
      split at decoded
      · rename_i held _
        rcases Option.bind_eq_some_iff.mp decoded with ⟨text, rfl, reads⟩
        exact never text inner reads
      · rename_i plain
        rcases Option.map_eq_some_iff.mp decoded with ⟨values, each, same⟩
        rw [embedded?_eq_none_iff, names_of_membersToJson? each, List.head?_map] at plain
        exact orderedMembers_ne_embedding (fun starts => plain (by rw [starts]; rfl))
          (Json.object.inj same)
  | number value => cases value <;> cases decoded
  | text value => cases value <;> cases decoded
  | list items =>
    cases nesting with
    | zero => cases decoded
    | succ nesting =>
      rcases Option.map_eq_some_iff.mp decoded with ⟨values, -, same⟩
      cases same
  | null => cases decoded
  | boolean value => cases decoded

theorem neverEmbeds_readEmbedded (layers : Nat) : NeverEmbeds (readEmbedded layers) := by
  induction layers with
  | zero => exact fun held inner => nofun
  | succ layers ih =>
    intro held inner reads
    rcases Option.bind_eq_some_iff.mp reads with ⟨source, -, decoded⟩
    exact toJsonWith_ne_embedding ih source inner decoded

theorem embedded?_ofMembers_iff {members : List (String × Json)} :
    embedded? (ofMembers members) = none ↔ (Json.object members).startsEmbedded = false := by
  rw [embedded?_eq_none_iff, names_ofMembers]
  cases members with
  | nil => exact iff_of_true nofun rfl
  | cons member members => simp [Json.startsEmbedded]

/-- What is read in place of an object is not the object itself. -/
theorem bind_embedded?_ne (never : NeverEmbeds read) {members : List (String × Json)}
    {held : Option String} (embeds : embedded? (ofMembers members) = some held) :
    held.bind read ≠ some (.object members) := by
  intro reads
  rcases Option.bind_eq_some_iff.mp reads with ⟨text, rfl, same⟩
  rcases members with _ | ⟨⟨name, value⟩, members⟩
  · cases embeds
  rw [ofMembers] at embeds
  by_cases reserved : name = embeddedName
  case neg =>
    rw [embedded?_of_ne reserved] at embeds
    cases embeds
  subst reserved
  rw [embedded?_reserved] at embeds
  cases value with
  | text inner =>
    cases members with
    | nil => exact never text inner same
    | cons member members => cases embeds
  | _ => cases embeds

/-- Members in order come out of the ordered form only if each is decoded as it is. -/
theorem map_orderedMembers_eq_iff {members : List (String × Json)}
    (ascending : Json.Ascending members) :
    (membersToJson? read nesting (ofMembers members)).map Json.orderedMembers = some members ↔
      membersToJson? read nesting (ofMembers members) = some members := by
  rw [Option.map_eq_some_iff]
  constructor
  · rintro ⟨values, decoded, same⟩
    have names : values.map Prod.fst = members.map Prod.fst := by
      have written := names_of_membersToJson? decoded
      rw [names_ofMembers] at written
      exact (List.map_inj_right fun _ _ => Option.some.inj).mp written.symm
    have kept : Json.orderedMembers values = values :=
      Json.orderedMembers_of_ascending (by rw [Json.Ascending, names]; exact ascending)
    rw [decoded, ← same, kept]
  · exact fun decoded => ⟨members, decoded, Json.orderedMembers_of_ascending ascending⟩

/-- A value that holds no other one decodes to itself. -/
theorem toJsonWith_leaf_iff {value : Json} (leaf : value.parts = [value])
    (plain : value.startsEmbedded = false) (flat : value.nesting = 0)
    (decodes : toJsonWith read nesting (ofJson value) = some value) :
    toJsonWith read nesting (ofJson value) = some value ↔
      value.Plain ∧ value.nesting ≤ nesting := by
  refine iff_of_true decodes ⟨?_, flat ▸ Nat.zero_le nesting⟩
  rw [Json.Plain, leaf, List.forall_mem_singleton]
  exact plain

/-- A value whose members are in order decodes to itself if and only if no object in it starts with
the reserved name and its lists and objects do not stand inside one another too deep. -/
theorem toJsonWith_ofJson_iff (never : NeverEmbeds read) {value : Json}
    (ordered : value.Ordered) :
    toJsonWith read nesting (ofJson value) = some value ↔
      value.Plain ∧ value.nesting ≤ nesting := by
  induction value using Json.induct generalizing nesting with
  | list items ih =>
    rw [Json.Ordered, Json.forall_parts_list] at ordered
    rw [ofJson, Json.Plain, Json.forall_parts_list, Json.nesting]
    cases nesting with
    | zero => exact iff_of_false nofun (by omega)
    | succ nesting =>
      have each : ∀ item ∈ items, (toJsonWith read nesting (ofJson item) = some item ↔
          item.Plain ∧ item.nesting ≤ nesting) :=
        fun item listed => ih item listed (ordered.2 item listed)
      have whole : toJsonWith read (nesting + 1) (.list (ofItems items)) = some (.list items) ↔
          itemsToJson? read nesting (ofItems items) = some items := by
        rw [toJsonWith, Option.map_eq_some_iff]
        simp
      rw [whole, itemsToJson?_ofItems_iff, forall₂_congr each, forall₂_and,
        Nat.add_le_add_iff_right, Json.nestingOfItems_le_iff]
      exact and_congr_left fun _ => (and_iff_right rfl).symm
  | object members ih =>
    rw [Json.Ordered, Json.forall_parts_object] at ordered
    rw [ofJson, Json.Plain, Json.forall_parts_object, Json.nesting]
    cases nesting with
    | zero => exact iff_of_false nofun (by omega)
    | succ nesting =>
      rw [toJsonWith]
      cases embeds : embedded? (ofMembers members) with
      | some held =>
        refine iff_of_false (bind_embedded?_ne never embeds) fun ⟨⟨plain, _⟩, _⟩ => ?_
        rw [embedded?_ofMembers_iff.mpr plain] at embeds
        cases embeds
      | none =>
        have each : ∀ member ∈ members,
            (toJsonWith read nesting (ofJson member.2) = some member.2 ↔
              member.2.Plain ∧ member.2.nesting ≤ nesting) :=
          fun member listed => ih member listed (ordered.2 member listed)
        have whole : (membersToJson? read nesting (ofMembers members)).map Json.ofMembers =
            some (.object members) ↔
              membersToJson? read nesting (ofMembers members) = some members := by
          rw [← map_orderedMembers_eq_iff (of_decide_eq_true ordered.1)]
          cases membersToJson? read nesting (ofMembers members) <;> simp [Json.ofMembers]
        dsimp only
        rw [whole, membersToJson?_ofMembers_iff, forall₂_congr each, forall₂_and,
          Nat.add_le_add_iff_right, Json.nestingOfMembers_le_iff]
        exact and_congr_left fun _ => (and_iff_right (embedded?_ofMembers_iff.mp embeds)).symm
  | null => exact toJsonWith_leaf_iff rfl rfl rfl rfl
  | boolean value => exact toJsonWith_leaf_iff rfl rfl rfl rfl
  | number value => exact toJsonWith_leaf_iff rfl rfl rfl rfl
  | text value => exact toJsonWith_leaf_iff rfl rfl rfl rfl

theorem toJson?_ofJson_iff {value : Json} (ordered : value.Ordered) :
    (ofJson value).toJson? nesting = some value ↔ value.Plain ∧ value.nesting ≤ nesting :=
  toJsonWith_ofJson_iff (fun held inner => neverEmbeds_readEmbedded _ held inner) ordered

/-! ## What is decoded is in order -/

/-- Induction over what was written, a list by its items and an object by its members. -/
@[elab_as_elim]
theorem induct {motive : Source → Prop} (null : motive .null)
    (boolean : ∀ value, motive (.boolean value)) (number : ∀ value, motive (.number value))
    (text : ∀ value, motive (.text value))
    (list : ∀ items, (∀ item ∈ items, motive item) → motive (.list items))
    (object : ∀ members, (∀ member ∈ members, motive member.2) → motive (.object members))
    (source : Source) : motive source :=
  @Source.rec motive (fun items => ∀ item ∈ items, motive item)
    (fun members => ∀ member ∈ members, motive member.2) (fun member => motive member.2)
    null boolean number text list object (List.forall_mem_nil _)
    (fun _ _ first others => List.forall_mem_cons.mpr ⟨first, others⟩) (List.forall_mem_nil _)
    (fun _ _ first others => List.forall_mem_cons.mpr ⟨first, others⟩) (fun _ _ held => held)
    source

theorem exists_of_mem_itemsToJson? {items : List Source} {values : List Json}
    (decoded : itemsToJson? read nesting items = some values) :
    ∀ value ∈ values, ∃ item ∈ items, toJsonWith read nesting item = some value := by
  induction items generalizing values with
  | nil =>
    cases decoded
    exact List.forall_mem_nil _
  | cons item items ih =>
    rw [itemsToJson?] at decoded
    split at decoded
    · rename_i first others decodedFirst decodedOthers
      cases decoded
      refine List.forall_mem_cons.mpr ⟨⟨item, List.mem_cons_self, decodedFirst⟩, ?_⟩
      intro value listed
      rcases ih decodedOthers value listed with ⟨source, member, same⟩
      exact ⟨source, List.mem_cons_of_mem _ member, same⟩
    · cases decoded

theorem exists_of_mem_membersToJson? {members : List (Option String × Source)}
    {values : List (String × Json)}
    (decoded : membersToJson? read nesting members = some values) :
    ∀ value ∈ values, ∃ member ∈ members, toJsonWith read nesting member.2 = some value.2 := by
  induction members generalizing values with
  | nil =>
    cases decoded
    exact List.forall_mem_nil _
  | cons member members ih =>
    rcases member with ⟨name, source⟩
    rw [membersToJson?_cons] at decoded
    simp only [Option.bind_eq_some_iff, Option.map_eq_some_iff] at decoded
    rcases decoded with ⟨name, rfl, first, decodedFirst, others, decodedOthers, rfl⟩
    refine List.forall_mem_cons.mpr ⟨⟨_, List.mem_cons_self, decodedFirst⟩, ?_⟩
    intro value listed
    rcases ih decodedOthers value listed with ⟨other, member, same⟩
    exact ⟨other, List.mem_cons_of_mem _ member, same⟩

theorem ordered_toJsonWith
    (reads : ∀ held value, read held = some value → value.Ordered) {source : Source} {value : Json}
    (decoded : toJsonWith read nesting source = some value) : value.Ordered := by
  induction source using induct generalizing nesting value with
  | null =>
    cases decoded
    exact Json.ordered_leaf rfl rfl
  | boolean value =>
    cases decoded
    exact Json.ordered_leaf rfl rfl
  | number value =>
    rcases Option.map_eq_some_iff.mp decoded with ⟨number, -, rfl⟩
    exact Json.ordered_leaf rfl rfl
  | text value =>
    rcases Option.map_eq_some_iff.mp decoded with ⟨text, -, rfl⟩
    exact Json.ordered_leaf rfl rfl
  | list items ih =>
    cases nesting with
    | zero => cases decoded
    | succ nesting =>
      rcases Option.map_eq_some_iff.mp decoded with ⟨values, each, rfl⟩
      rw [Json.Ordered, Json.forall_parts_list]
      refine ⟨rfl, fun value listed => ?_⟩
      rcases exists_of_mem_itemsToJson? each value listed with ⟨item, member, same⟩
      exact ih item member same
  | object members ih =>
    cases nesting with
    | zero => cases decoded
    | succ nesting =>
      rw [toJsonWith] at decoded
      split at decoded
      · rcases Option.bind_eq_some_iff.mp decoded with ⟨held, -, same⟩
        exact reads held value same
      · rcases Option.map_eq_some_iff.mp decoded with ⟨values, each, rfl⟩
        rw [Json.Ordered, Json.ofMembers, Json.forall_parts_object]
        refine ⟨decide_eq_true (Json.ascending_orderedMembers values), fun value listed => ?_⟩
        rcases exists_of_mem_membersToJson? each value (Json.mem_orderedMembers listed) with
          ⟨member, present, same⟩
        exact ih member present same

theorem ordered_readEmbedded (layers : Nat) {held : String} {value : Json}
    (reads : readEmbedded layers held = some value) : value.Ordered := by
  induction layers generalizing held value with
  | zero => cases reads
  | succ layers ih =>
    rcases Option.bind_eq_some_iff.mp reads with ⟨source, -, decoded⟩
    exact ordered_toJsonWith (fun _ _ => ih) decoded

theorem ordered_toJson? {source : Source} {value : Json}
    (decoded : source.toJson? nesting = some value) : value.Ordered :=
  ordered_toJsonWith (fun _ _ => ordered_readEmbedded _) decoded

end Source

end NodeSteward
