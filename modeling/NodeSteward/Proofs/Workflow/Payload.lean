import NodeSteward.Proofs.Json.Decoding
import NodeSteward.Workflow.Parameter

/-!
# Parameters that read back

The parameters of a node are kept as a text.  Whatever records are written in it, with any types,
fields and values, the same records in the same order are read from it again, unless a value in a
field stands too deep inside lists and objects, or holds an object that starts with the name that
is reserved for texts in place of values.
-/

namespace NodeSteward

namespace Parameter

variable {parameter : Parameter} {nesting : Nat}

/-- The fields of a record are a map, objects inside it as well, and none of them is named like the
type. -/
structure Formed (parameter : Parameter) : Prop where
  ascending : Json.Ascending parameter.fields
  ordered : ∀ field ∈ parameter.fields, field.2.Ordered
  untyped : ∀ field ∈ parameter.fields, field.1 ≠ "type"

instance (parameter : Parameter) : Decidable parameter.Formed :=
  decidable_of_iff
    (Json.Ascending parameter.fields ∧ (∀ field ∈ parameter.fields, field.2.Ordered) ∧
      ∀ field ∈ parameter.fields, field.1 ≠ "type")
    ⟨fun ⟨ascending, ordered, untyped⟩ => ⟨ascending, ordered, untyped⟩,
      fun formed => ⟨formed.ascending, formed.ordered, formed.untyped⟩⟩

/-- How a text that is held in place of a value is read. -/
def readHeld (held : String) : Option Json :=
  Source.readEmbedded (held.length + 1) held

theorem collect_ofMembers {fields : List (String × Json)}
    (untyped : ∀ field ∈ fields, field.1 ≠ "type") :
    collect nesting (Source.ofMembers fields) =
      (Source.membersToJson? readHeld nesting (Source.ofMembers fields)).map
        fun values => (none, values) := by
  induction fields with
  | nil => rfl
  | cons field fields ih =>
    rcases field with ⟨name, value⟩
    rw [List.forall_mem_cons] at untyped
    rw [Source.ofMembers, collect, ih untyped.2, Source.membersToJson?_cons]
    have decodes : (Source.ofJson value).toJson? nesting =
        Source.toJsonWith readHeld nesting (Source.ofJson value) := rfl
    rw [decodes]
    cases Source.toJsonWith readHeld nesting (Source.ofJson value) <;>
      cases Source.membersToJson? readHeld nesting (Source.ofMembers fields) <;>
        simp [untyped.1]

/-- A record is decoded by its type and the ordered form of its fields. -/
theorem decode?_ofJson_toJson (untyped : ∀ field ∈ parameter.fields, field.1 ≠ "type") :
    decode? nesting (Source.ofJson parameter.toJson) =
      ((Source.membersToJson? readHeld nesting (Source.ofMembers parameter.fields)).map
        Json.orderedMembers).map (Parameter.mk parameter.type) := by
  show (collect nesting ((some "type", .text (some parameter.type)) ::
    Source.ofMembers parameter.fields)).map _ = _
  rw [collect, collect_ofMembers untyped]
  cases Source.membersToJson? readHeld nesting (Source.ofMembers parameter.fields) <;> rfl

/-- A record is read back if and only if each value in its fields is. -/
theorem decode?_eq_self_iff (formed : parameter.Formed) :
    decode? nesting (Source.ofJson parameter.toJson) = some parameter ↔
      ∀ field ∈ parameter.fields, field.2.Plain ∧ field.2.nesting ≤ nesting := by
  have each : ∀ field ∈ parameter.fields,
      (Source.toJsonWith readHeld nesting (Source.ofJson field.2) = some field.2 ↔
        field.2.Plain ∧ field.2.nesting ≤ nesting) :=
    fun field listed => Source.toJson?_ofJson_iff (formed.ordered field listed)
  rw [decode?_ofJson_toJson formed.untyped, ← forall₂_congr each,
    ← Source.membersToJson?_ofMembers_iff, ← Source.map_orderedMembers_eq_iff formed.ascending]
  rcases parameter with ⟨type, fields⟩
  simp

/-! ## What is decoded is a record -/

theorem collect_cases {members : List (Option String × Source)} {type : Option String}
    {values : List (String × Json)} (collected : collect nesting members = some (type, values)) :
    ∀ value ∈ values, value.1 ≠ "type" ∧ value.2.Ordered := by
  induction members generalizing type values with
  | nil =>
    cases collected
    exact List.forall_mem_nil _
  | cons member members ih =>
    rcases member with ⟨_ | name, source⟩
    · cases collected
    rw [collect] at collected
    split at collected
    · cases collected
    rename_i type' others decodedOthers
    split at collected
    · split at collected
      · cases collected
        exact ih decodedOthers
      · cases collected
    · rename_i other
      rcases Option.map_eq_some_iff.mp collected with ⟨value, decoded, same⟩
      cases same
      exact List.forall_mem_cons.mpr
        ⟨⟨other, Source.ordered_toJson? decoded⟩, ih decodedOthers⟩

theorem formed_of_decode? {source : Source} (decoded : decode? nesting source = some parameter) :
    parameter.Formed := by
  cases source with
  | object members =>
    rcases Option.map_eq_some_iff.mp decoded with ⟨⟨type, values⟩, collected, rfl⟩
    have each := collect_cases collected
    exact ⟨Json.ascending_orderedMembers values,
      fun field listed => (each field (Json.mem_orderedMembers listed)).2,
      fun field listed => (each field (Json.mem_orderedMembers listed)).1⟩
  | _ => cases decoded

end Parameter

namespace Parameters

variable {parameters : Parameters}

/-- Every record is a type with a map of other fields. -/
def Formed (parameters : Parameters) : Prop :=
  ∀ record ∈ parameters.records, record.Formed

/-- All numbers in the fields are integers of a signed or an unsigned word of 64 bits. -/
def Integral (parameters : Parameters) : Prop :=
  ∀ record ∈ parameters.records, ∀ field ∈ record.fields, field.2.Integral

/-- No object in a field starts with the name that is reserved for texts in place of values. -/
def Plain (parameters : Parameters) : Prop :=
  ∀ record ∈ parameters.records, ∀ field ∈ record.fields, field.2.Plain

instance (parameters : Parameters) : Decidable parameters.Formed :=
  inferInstanceAs (Decidable (∀ record ∈ parameters.records, record.Formed))

instance (parameters : Parameters) : Decidable parameters.Integral :=
  inferInstanceAs
    (Decidable (∀ record ∈ parameters.records, ∀ field ∈ record.fields, field.2.Integral))

instance (parameters : Parameters) : Decidable parameters.Plain :=
  inferInstanceAs
    (Decidable (∀ record ∈ parameters.records, ∀ field ∈ record.fields, field.2.Plain))

theorem integral_toJson (integral : parameters.Integral) : parameters.toJson.Integral := by
  have records : ∀ record ∈ parameters.records, record.toJson.Integral := by
    intro record listed
    rw [Parameter.toJson, Json.Integral, Json.forall_parts_object, List.forall_mem_cons]
    refine ⟨rfl, ?_, integral record listed⟩
    exact List.forall_mem_singleton.mpr rfl
  rw [toJson, Json.Integral, Json.forall_parts_object, List.forall_mem_singleton, Json.ofList,
    Json.forall_parts_list, List.forall_mem_map]
  exact ⟨rfl, rfl, records⟩

/-- The list of the records, the object around it and the object of a record are nesting. -/
theorem nesting_toJson_le_iff :
    parameters.toJson.nesting ≤ Json.nestingLimit ↔
      ∀ record ∈ parameters.records, ∀ field ∈ record.fields,
        field.2.nesting ≤ Json.nestingLimit - 3 := by
  have outside : parameters.toJson.nesting =
      Json.nestingOfItems (parameters.records.map Parameter.toJson) + 2 := by
    simp [toJson, Json.ofList, Json.nesting, Json.nestingOfMembers]
  have record : ∀ record : Parameter,
      record.toJson.nesting = Json.nestingOfMembers record.fields + 1 := by
    intro record
    simp [Parameter.toJson, Json.nesting, Json.nestingOfMembers]
  rw [outside, Json.nestingLimit, Nat.add_le_add_iff_right (k := 125) (n := 2),
    Json.nestingOfItems_le_iff, List.forall_mem_map]
  refine forall₂_congr fun parameter _ => ?_
  rw [record, Nat.add_le_add_iff_right, Json.nestingOfMembers_le_iff]

theorem mapM_decode?_iff {records : List Parameter} {nesting : Nat} :
    (Source.ofItems (records.map Parameter.toJson)).mapM (Parameter.decode? nesting) =
        some records ↔
      ∀ record ∈ records,
        Parameter.decode? nesting (Source.ofJson record.toJson) = some record := by
  induction records with
  | nil => exact iff_of_true rfl (List.forall_mem_nil _)
  | cons record records ih =>
    rw [List.map_cons, Source.ofItems, List.mapM_cons, List.forall_mem_cons, ← ih]
    cases Parameter.decode? nesting (Source.ofJson record.toJson) <;>
      cases (Source.ofItems (records.map Parameter.toJson)).mapM (Parameter.decode? nesting) <;>
        simp

theorem decode?_eq_self_iff :
    decode? (Source.ofJson parameters.toJson) = some parameters ↔
      ∀ record ∈ parameters.records,
        Parameter.decode? (Json.nestingLimit - 3) (Source.ofJson record.toJson) = some record := by
  rcases parameters with ⟨records⟩
  let items := Source.ofItems (records.map Parameter.toJson)
  have slots : (Source.ofJson (toJson ⟨records⟩)).slots? ["parameters"] =
      some ⟨false, [("parameters", .list items)]⟩ := rfl
  have held : Source.Slots.withDefault ⟨false, [("parameters", .list items)]⟩ "parameters"
      (Source.list? (Parameter.decode? (Json.nestingLimit - 3))) [] =
        items.mapM (Parameter.decode? (Json.nestingLimit - 3)) := rfl
  rw [← mapM_decode?_iff, decode?, slots]
  show ((Source.Slots.withDefault _ "parameters" _ []).bind fun records =>
    some (Parameters.mk records)) = _ ↔ _
  rw [held]
  cases items.mapM (Parameter.decode? (Json.nestingLimit - 3)) <;> simp

theorem not_allBlank_toText (parameters : Parameters) :
    Text.allBlank parameters.toText = false := by
  rw [Text.allBlank, toText, Json.toText, String.toList_ofList]
  rfl

/-- A payload with integers is read back from its text if and only if no object in it starts with
the reserved name and its nesting stays within the limit. -/
theorem ofText?_toText_iff (formed : parameters.Formed) (integral : parameters.Integral) :
    ofText? parameters.toText = some parameters ↔
      parameters.Plain ∧ parameters.toJson.nesting ≤ Json.nestingLimit := by
  rw [ofText?, not_allBlank_toText, toText, Source.ofText?_toText (integral_toJson integral),
    nesting_toJson_le_iff]
  show decode? (Source.ofJson parameters.toJson) = _ ↔ _
  rw [decode?_eq_self_iff,
    forall₂_congr fun record listed => Parameter.decode?_eq_self_iff (formed record listed), Plain]
  simp only [forall₂_and]

theorem formed_of_mapM {items : List Source} {records : List Parameter} {nesting : Nat}
    (decoded : items.mapM (Parameter.decode? nesting) = some records) :
    ∀ record ∈ records, record.Formed := by
  induction items generalizing records with
  | nil =>
    cases decoded
    exact List.forall_mem_nil _
  | cons item items ih =>
    rw [List.mapM_cons] at decoded
    rcases Option.bind_eq_some_iff.mp decoded with ⟨first, decodedFirst, others⟩
    rcases Option.bind_eq_some_iff.mp others with ⟨records, decodedOthers, same⟩
    cases same
    exact List.forall_mem_cons.mpr
      ⟨Parameter.formed_of_decode? decodedFirst, ih decodedOthers⟩

/-- What is read from a text is a payload, however the text is written. -/
theorem formed_of_ofText? {text : String} (reads : ofText? text = some parameters) :
    parameters.Formed := by
  rw [ofText?] at reads
  split at reads
  · cases reads
    exact List.forall_mem_nil _
  rcases Option.bind_eq_some_iff.mp reads with ⟨source, -, decoded⟩
  rcases Option.bind_eq_some_iff.mp decoded with ⟨slots, -, listed⟩
  rcases Option.bind_eq_some_iff.mp listed with ⟨records, held, same⟩
  cases same
  rw [Source.Slots.withDefault] at held
  split at held
  · rename_i list _
    cases list with
    | list items => exact formed_of_mapM held
    | _ => cases held
  · cases held
    exact List.forall_mem_nil _

/-- Every payload with integers is read back from its own text, the records in their order, if and
only if no object in its fields starts with the reserved name and its nesting stays within the
limit.  So is every such payload that any text holds, once it has been written anew. -/
theorem payload_reads_back :
    (∀ parameters : Parameters, parameters.Formed → parameters.Integral →
      (ofText? parameters.toText = some parameters ↔
        parameters.Plain ∧ parameters.toJson.nesting ≤ Json.nestingLimit)) ∧
    ∀ (text : String) (parameters : Parameters), ofText? text = some parameters →
      parameters.Integral →
        (ofText? parameters.toText = some parameters ↔
          parameters.Plain ∧ parameters.toJson.nesting ≤ Json.nestingLimit) :=
  ⟨fun _ formed integral => ofText?_toText_iff formed integral,
    fun _ _ reads integral => ofText?_toText_iff (formed_of_ofText? reads) integral⟩

/-- Two records, one of them without type and fields. -/
def mixed : Parameters :=
  ⟨[⟨"ä\"", [("", .list [.ofInt (-5), .object [("a\n", .null), ("b", .text "\\")]]),
    ("Type", .ofNat 18446744073709551615)]⟩, .empty]⟩

/-- The same records in another spelling: members in another order, one of them twice, spaces,
escapes, and no type where it is empty. -/
def mixedText : String :=
  "\x7b \"parameters\" : [\x7b\"Type\":18446744073709551615,\"\":7,\"type\":\"\\u00e4\\\"\",\"\":" ++
    "[-5,\x7b\"b\":\"\\\\\",\"a\\u000a\":null\x7d]\x7d,\x7b\x7d]\x7d"

theorem payload_reads_back_mixed :
    mixed.Formed ∧ mixed.Integral ∧ mixed.Plain ∧ mixed.toJson.nesting ≤ Json.nestingLimit ∧
      ofText? mixed.toText = some mixed ∧
      ∃ other, ofText? mixedText = some other ∧ other.Integral ∧ other.toText = mixed.toText ∧
        ofText? other.toText = some other := by
  have formed : mixed.Formed := by decide +kernel
  have integral : mixed.Integral := by decide +kernel
  have plain : mixed.Plain := by decide +kernel
  have shallow : mixed.toJson.nesting ≤ Json.nestingLimit := by decide +kernel
  have decoded : (ofText? mixedText).any (fun other => other.Integral ∧ other.Plain ∧
      other.toJson.nesting ≤ Json.nestingLimit ∧ other.toText = mixed.toText) = true := by
    decide +kernel
  rcases (Option.any_eq_true _ _).mp decoded with ⟨other, reads, checked⟩
  rcases of_decide_eq_true checked with ⟨otherIntegral, otherPlain, otherShallow, same⟩
  exact ⟨formed, integral, plain, shallow,
    (payload_reads_back.1 mixed formed integral).mpr ⟨plain, shallow⟩, other, reads, otherIntegral,
    same, (payload_reads_back.2 mixedText other reads otherIntegral).mpr
      ⟨otherPlain, otherShallow⟩⟩

/-- A record with an object whose first member has the reserved name. -/
def reserved : Parameters :=
  ⟨[.ofValue .timeInSeconds (.object [(Source.embeddedName, .text "30"), ("a", .ofInt 1)])]⟩

theorem not_reads_back_reserved :
    ¬ ∀ parameters : Parameters, parameters.Formed → parameters.Integral →
      parameters.toJson.nesting ≤ Json.nestingLimit →
        ofText? parameters.toText = some parameters := by
  intro always
  have fails : (ofText? reserved.toText).isSome = false := by decide +kernel
  rw [always reserved (by decide +kernel) (by decide +kernel) (by decide +kernel)] at fails
  cases fails

end Parameters

end NodeSteward
