import Mathlib.Tactic.IntervalCases
import Mathlib.Tactic.SplitIfs
import NodeSteward.Json.Printer
import NodeSteward.Json.Source

/-!
# A printed value reads back

The text that is printed for a value is read as the tree of just what was printed.  The reader
takes a number up to the first character that cannot belong to it, so the statements speak of a
value in front of what may follow one.  Its fuel is enough as soon as it reaches the number of
characters that the value takes: every step of the reader takes one of them at least.

Numbers are integers of 64 bits here.
-/

namespace NodeSteward

namespace Json

mutual

/-- The value and all values that stand inside it. -/
def parts : Json → List Json
  | .null => [.null]
  | .boolean value => [.boolean value]
  | .number value => [.number value]
  | .text value => [.text value]
  | .list items => .list items :: partsOfItems items
  | .object members => .object members :: partsOfMembers members

def partsOfItems : List Json → List Json
  | [] => []
  | item :: items => item.parts ++ partsOfItems items

def partsOfMembers : List (String × Json) → List Json
  | [] => []
  | (_, value) :: members => value.parts ++ partsOfMembers members

end

/-- Induction over values, a list by its items and an object by the values of its members. -/
@[elab_as_elim]
theorem induct {motive : Json → Prop} (null : motive .null)
    (boolean : ∀ value, motive (.boolean value)) (number : ∀ value, motive (.number value))
    (text : ∀ value, motive (.text value))
    (list : ∀ items, (∀ item ∈ items, motive item) → motive (.list items))
    (object : ∀ members, (∀ member ∈ members, motive member.2) → motive (.object members))
    (value : Json) : motive value :=
  @Json.rec motive (fun items => ∀ item ∈ items, motive item)
    (fun members => ∀ member ∈ members, motive member.2) (fun member => motive member.2)
    null boolean number text list object (List.forall_mem_nil _)
    (fun _ _ first others => List.forall_mem_cons.mpr ⟨first, others⟩) (List.forall_mem_nil _)
    (fun _ _ first others => List.forall_mem_cons.mpr ⟨first, others⟩) (fun _ _ held => held) value

theorem self_mem_parts (value : Json) : value ∈ value.parts := by
  cases value <;> exact List.mem_cons_self

theorem mem_partsOfItems {items : List Json} {part : Json} :
    part ∈ partsOfItems items ↔ ∃ item ∈ items, part ∈ item.parts := by
  induction items with
  | nil => simp [partsOfItems]
  | cons item items ih => simp [partsOfItems, ih]

theorem mem_partsOfMembers {members : List (String × Json)} {part : Json} :
    part ∈ partsOfMembers members ↔ ∃ member ∈ members, part ∈ member.2.parts := by
  induction members with
  | nil => simp [partsOfMembers]
  | cons member members ih => simp [partsOfMembers, ih]

/-- Only a number that is an integer of a signed or an unsigned word of 64 bits. -/
def isIntegral : Json → Bool
  | .number (.integer value) => -0x8000000000000000 ≤ value ∧ value ≤ 0xffffffffffffffff
  | .number (.double _) => false
  | _ => true

/-- All numbers are integers of a signed or an unsigned word of 64 bits. -/
def Integral (value : Json) : Prop :=
  ∀ part ∈ value.parts, part.isIntegral = true

instance (value : Json) : Decidable value.Integral :=
  inferInstanceAs (Decidable (∀ part ∈ value.parts, part.isIntegral = true))

theorem Integral.item {items : List Json} (integral : (Json.list items).Integral) :
    ∀ item ∈ items, item.Integral := fun _ listed _ inside =>
  integral _ (List.mem_cons_of_mem _ (mem_partsOfItems.mpr ⟨_, listed, inside⟩))

theorem Integral.member {members : List (String × Json)}
    (integral : (Json.object members).Integral) : ∀ member ∈ members, member.2.Integral :=
  fun _ listed _ inside =>
    integral _ (List.mem_cons_of_mem _ (mem_partsOfMembers.mpr ⟨_, listed, inside⟩))

end Json

namespace Source

/-- Nothing follows a value, or a character that parts it from what follows. -/
def IsBoundary : List Char → Prop
  | [] => True
  | c :: _ => c = ',' ∨ c = ']' ∨ c = '\x7d'

theorem isDigit_digitChar {value : Nat} (small : value < 10) :
    isDigit (Decimal.digitChar value) = true := by
  rw [isDigit, Decimal.digitValue?_digitChar small, Option.isSome_some]

theorem isDigit_of_mem_digits {number : Nat} {c : Char} (member : c ∈ Decimal.digits number) :
    isDigit c = true := by
  rcases Decimal.digits_all_isDigit number c member with ⟨value, small, rfl⟩
  exact isDigit_digitChar small

theorem splitDigits_digits (number : Nat) {rest : List Char} (boundary : IsBoundary rest) :
    splitDigits (Decimal.digits number ++ rest) = (Decimal.digits number, rest) := by
  have all : ∀ c ∈ Decimal.digits number, isDigit c = true := fun c => isDigit_of_mem_digits
  have stops : rest.takeWhile isDigit = [] ∧ rest.dropWhile isDigit = rest := by
    cases rest with
    | nil => exact ⟨rfl, rfl⟩
    | cons c rest => rcases boundary with rfl | rfl | rfl <;> exact ⟨rfl, rfl⟩
  rw [splitDigits, List.takeWhile_append_of_pos all, List.dropWhile_append_of_pos all, stops.1,
    stops.2, List.append_nil]

/-- Only zero is written with a zero in front. -/
theorem exists_digits_eq_cons {number : Nat} (positive : 0 < number) :
    ∃ c rest, Decimal.digits number = c :: rest ∧ c ≠ '0' := by
  induction number using Nat.strongRecOn with
  | ind number ih =>
    rw [Decimal.digits]
    split
    · rename_i small
      refine ⟨Decimal.digitChar number, [], rfl, fun zero => ?_⟩
      have value := Decimal.digitValue?_digitChar small
      rw [zero, show Decimal.digitValue? '0' = some 0 from rfl, Option.some_inj] at value
      omega
    · rcases ih (number / 10) (by omega) (by omega) with ⟨c, rest, digits, leads⟩
      exact ⟨c, rest ++ [Decimal.digitChar (number % 10)], by rw [digits, List.cons_append], leads⟩

theorem readWhole_digits (number : Nat) {rest : List Char} (boundary : IsBoundary rest) :
    readWhole (Decimal.digits number ++ rest) = some (Decimal.digits number, rest) := by
  have split := splitDigits_digits number boundary
  rw [readWhole, split]
  rcases Nat.eq_zero_or_pos number with rfl | positive
  · have zero : Decimal.digits 0 = ['0'] := by
      rw [Decimal.digits]
      rfl
    rw [zero]
    rfl
  · rcases exists_digits_eq_cons positive with ⟨c, others, digits, leads⟩
    rw [digits]
    split <;> simp_all

theorem readNumber_digits (negative : Bool) (number : Nat) {rest : List Char}
    (boundary : IsBoundary rest) :
    readNumber negative (Decimal.digits number ++ rest) =
      some (⟨negative, Decimal.digits number, [], none⟩, rest) := by
  have fraction : readFraction rest = some ([], rest) := by
    cases rest with
    | nil => rfl
    | cons c rest => rcases boundary with rfl | rfl | rfl <;> rfl
  have power : readPower rest = some (none, rest) := by
    cases rest with
    | nil => rfl
    | cons c rest => rcases boundary with rfl | rfl | rfl <;> rfl
  rw [readNumber, readWhole_digits number boundary]
  simp only [bind, Option.bind_some, fraction, power, pure]

theorem takeSignificand_append (first second : List Char) (significand : Nat)
    {reached : Nat} (taken : takeSignificand significand first = (reached, [])) :
    takeSignificand significand (first ++ second) = takeSignificand reached second := by
  induction first generalizing significand with
  | nil =>
    cases taken
    rfl
  | cons c first ih =>
    rw [takeSignificand] at taken
    rw [List.cons_append, takeSignificand]
    split at taken
    · cases taken
    · rename_i fits
      rw [if_neg fits]
      exact ih _ taken

theorem toNat_digitChar {value : Nat} (small : value < 10) :
    (Decimal.digitChar value).toNat - 48 = value := by
  have all : ∀ digit : Fin 10, (Decimal.digitChar digit).toNat - 48 = digit.val := by decide
  exact all ⟨value, small⟩

theorem takeSignificand_digits {number : Nat} (fits : number ≤ Decimal.maxUInt64) :
    takeSignificand 0 (Decimal.digits number) = (number, []) := by
  induction number using Nat.strongRecOn with
  | ind number ih =>
    rw [Decimal.digits]
    split
    · rename_i small
      rw [takeSignificand, toNat_digitChar small, Nat.zero_mul, Nat.zero_add,
        if_neg (Nat.not_lt.mpr fits), takeSignificand]
    · have earlier := ih (number / 10) (by omega) (by omega)
      have whole : number / 10 * 10 + number % 10 = number := by omega
      rw [takeSignificand_append _ _ _ earlier, takeSignificand,
        toNat_digitChar (Nat.mod_lt number (by omega)), whole, if_neg (Nat.not_lt.mpr fits),
        takeSignificand]

theorem value?_digits {number : Nat} (fits : number ≤ Decimal.maxUInt64) :
    NumberText.value? ⟨false, Decimal.digits number, [], none⟩ = some (.integer number) := by
  simp [NumberText.value?, takeSignificand_digits fits]

theorem value?_negative_digits {number : Nat} (positive : 0 < number)
    (fits : number ≤ 0x8000000000000000) :
    NumberText.value? ⟨true, Decimal.digits number, [], none⟩ =
      some (.integer (-(number : Int))) := by
  have below : number ≤ Decimal.maxUInt64 := Nat.le_trans fits (by decide)
  have inside : ¬ (number = 0 ∨ 0x8000000000000000 < number) := by omega
  simp [NumberText.value?, takeSignificand_digits below, inside]

/-- The piece as which a printed character is read: the controls without a short form are
escaped by their unit. -/
def pieceOf (c : Char) : Piece :=
  if c.toNat < 32 ∧ c ∉ ['\x08', '\x0c', '\n', '\r', '\t'] then .unit c.toNat else .plain c

theorem readPieces_plain {c : Char} (printed : ¬ c.toNat < 32) (quote : c ≠ '"')
    (backslash : c ≠ '\\') (pieces : List Piece) (rest : List Char) :
    readPieces pieces (c :: rest) = readPieces (.plain c :: pieces) rest := by
  rw [readPieces]
  · rw [if_neg (not_or.mpr ⟨printed, backslash⟩)]
  all_goals grind

theorem unit?_hex {code : Nat} (small : code < 32) :
    unit? '0' '0' (Hex.digitChar (code / 16)) (Hex.digitChar (code % 16)) = some code := by
  have all : ∀ code : Fin 32, unit? '0' '0' (Hex.digitChar (code / 16))
      (Hex.digitChar (code % 16)) = some code.val := by decide
  exact all ⟨code, small⟩

theorem readPieces_stringChar (c : Char) (pieces : List Piece) (rest : List Char) :
    readPieces pieces (Json.stringChar c ++ rest) = readPieces (pieceOf c :: pieces) rest := by
  unfold Json.stringChar
  split_ifs with quote backslash backspace formFeed newline carriageReturn tab control
  iterate 7
    · subst c
      rfl
  · have long : c ∉ ['\x08', '\x0c', '\n', '\r', '\t'] := by
      simp [backspace, formFeed, newline, carriageReturn, tab]
    rw [pieceOf, if_pos ⟨control, long⟩]
    simp only [List.cons_append, List.nil_append, readPieces, unit?_hex control]
  · rw [pieceOf, if_neg fun escaped => control escaped.1]
    exact readPieces_plain control quote backslash pieces rest

theorem readPieces_flatMap (chars : List Char) (pieces : List Piece) (rest : List Char) :
    readPieces pieces (chars.flatMap Json.stringChar ++ '"' :: rest) =
      some (chars.reverse.map pieceOf ++ pieces, rest) := by
  induction chars generalizing pieces with
  | nil => rfl
  | cons c chars ih =>
    rw [List.flatMap_cons, List.append_assoc, readPieces_stringChar, ih, List.reverse_cons,
      List.map_append, List.append_assoc]
    rfl

theorem joinPieces_control {code : Nat} (control : code < 32) (following : List Char)
    (earlier : List Piece) :
    joinPieces following (.unit code :: earlier) =
      joinPieces (Char.ofNat code :: following) earlier := by
  have notLow : ¬ (0xDC00 ≤ code ∧ code ≤ 0xDFFF) := by omega
  have notHigh : ¬ (0xD800 ≤ code ∧ code ≤ 0xDBFF) := by omega
  have notHalf : ¬ (0xD800 ≤ code ∧ code ≤ 0xDFFF) := by omega
  rcases earlier with _ | ⟨plain | unit, earlier⟩
  · exact if_neg notHalf
  · exact if_neg notHalf
  · exact (if_neg notLow).trans (if_neg notHigh)

theorem joinPieces_pieceOf (newest : List Char) (following : List Char) :
    joinPieces following (newest.map pieceOf) = some (newest.reverse ++ following) := by
  induction newest generalizing following with
  | nil => rfl
  | cons c newest ih =>
    have joined : joinPieces following (pieceOf c :: newest.map pieceOf) =
        joinPieces (c :: following) (newest.map pieceOf) := by
      rw [pieceOf]
      split
      · rename_i escaped
        rw [joinPieces_control escaped.1, Char.ofNat_toNat]
      · rw [joinPieces]
    rw [List.map_cons, joined, ih, List.reverse_cons, List.append_assoc]
    rfl

theorem readString_printed (value : String) (rest : List Char) :
    readString (value.toList.flatMap Json.stringChar ++ '"' :: rest) = some (some value, rest) := by
  rw [readString, readPieces_flatMap, List.append_nil, Option.map_some]
  dsimp only
  rw [joinPieces_pieceOf, List.reverse_reverse, List.append_nil, Option.map_some,
    String.ofList_toList]

/-! ## Values -/

theorem isBoundary_renderItems (items : List Json) (rest : List Char) :
    IsBoundary (Json.renderItems items rest) := by
  cases items with
  | nil => exact Or.inr (Or.inl rfl)
  | cons item items => exact Or.inl rfl

theorem isBoundary_renderMembers (members : List (String × Json)) (rest : List Char) :
    IsBoundary (Json.renderMembers members rest) := by
  cases members with
  | nil => exact Or.inr (Or.inr rfl)
  | cons member members => exact Or.inl rfl

theorem skipSpace_cons {c : Char} (visible : isSpace c = false) (rest : List Char) :
    skipSpace (c :: rest) = c :: rest :=
  List.dropWhile_cons_of_neg (Bool.eq_false_iff.mp visible)

theorem digits_eq_cons (number : Nat) :
    ∃ value rest, value < 10 ∧ Decimal.digits number = Decimal.digitChar value :: rest := by
  cases written : Decimal.digits number with
  | nil => exact absurd written (Decimal.digits_ne_nil number)
  | cons c rest =>
    have listed : c ∈ Decimal.digits number := written ▸ List.mem_cons_self
    rcases Decimal.digits_all_isDigit number c listed with ⟨value, small, rfl⟩
    exact ⟨value, rest, small, rfl⟩

/-- A printed value starts neither with a space nor as the end of a list does. -/
theorem exists_render_eq_cons {value : Json} (integral : value.isIntegral = true)
    (rest : List Char) :
    ∃ c tail, value.render rest = c :: tail ∧ isSpace c = false ∧ c ≠ ']' := by
  rcases value with _ | ⟨_ | _⟩ | ⟨value | value⟩ | value | ⟨_ | ⟨item, items⟩⟩ |
    ⟨_ | ⟨⟨name, value⟩, members⟩⟩
  case number.integer =>
    rw [Json.render, Json.renderNumber, Decimal.intChars]
    split
    · exact ⟨'-', _, rfl, rfl, by decide⟩
    · rcases digits_eq_cons value.natAbs with ⟨first, others, small, written⟩
      have all : ∀ digit : Fin 10, isSpace (Decimal.digitChar digit) = false ∧
          Decimal.digitChar digit ≠ ']' := by decide
      rw [written]
      exact ⟨_, _, rfl, all ⟨first, small⟩⟩
  case number.double => cases integral
  all_goals exact ⟨_, _, rfl, rfl, by decide⟩

/-! The reader at the first character of each kind of value -/

theorem readValue_digit {value : Nat} (small : value < 10) (fuel : Nat) (rest : List Char) :
    readValue (fuel + 1) (Decimal.digitChar value :: rest) =
      (readNumber false (Decimal.digitChar value :: rest)).map
        fun (written, rest) => (.number written.value?, rest) := by
  interval_cases value <;> rfl

theorem readValue_integer {value : Int} (integral : (Json.ofInt value).isIntegral = true)
    (fuel : Nat) {rest : List Char} (boundary : IsBoundary rest) :
    readValue (fuel + 1) (Decimal.intChars value ++ rest) =
      some (.number (some (.integer value)), rest) := by
  have range : -0x8000000000000000 ≤ value ∧ value ≤ 0xffffffffffffffff :=
    of_decide_eq_true integral
  rw [Decimal.intChars]
  split
  · rename_i negative
    have whole : -(value.natAbs : Int) = value := by omega
    show (readNumber true (Decimal.digits value.natAbs ++ rest)).map _ = _
    rw [readNumber_digits true _ boundary, Option.map_some]
    dsimp only
    rw [value?_negative_digits (by omega) (by omega), whole]
  · have whole : (value.natAbs : Int) = value := by omega
    have below : value.natAbs ≤ Decimal.maxUInt64 := by
      rw [Decimal.maxUInt64]
      omega
    rcases digits_eq_cons value.natAbs with ⟨first, others, small, written⟩
    have number := readNumber_digits false value.natAbs boundary
    rw [written] at number
    rw [written, List.cons_append, readValue_digit small, ← List.cons_append, number,
      Option.map_some, ← written]
    dsimp only
    rw [value?_digits below, whole]

theorem readValue_list (fuel : Nat) {c : Char} (visible : isSpace c = false) (other : c ≠ ']')
    (rest : List Char) :
    readValue (fuel + 1) ('[' :: c :: rest) =
      (readItems fuel (c :: rest)).map fun (items, rest) => (.list items, rest) := by
  rw [readValue, skipSpace_cons rfl]
  simp only [skipSpace_cons visible]
  split
  · rename_i same
    exact absurd (List.cons.inj same).1 other
  · rfl

/-! A value takes at least one character -/

/-- However it goes on, the text of the value is longer than what follows it. -/
def IsWritten (value : Json) : Prop :=
  ∀ rest, rest.length < (value.render rest).length

theorem length_lt_renderItems {items : List Json} (each : ∀ item ∈ items, IsWritten item)
    (rest : List Char) : rest.length < (Json.renderItems items rest).length := by
  induction items with
  | nil => simp [Json.renderItems]
  | cons item items ih =>
    have first : IsWritten item := each item List.mem_cons_self
    have front := first (Json.renderItems items rest)
    have behind := ih fun other listed => each other (List.mem_cons_of_mem _ listed)
    rw [Json.renderItems, List.length_cons]
    omega

theorem length_lt_renderMembers {members : List (String × Json)}
    (each : ∀ member ∈ members, IsWritten member.2) (rest : List Char) :
    rest.length < (Json.renderMembers members rest).length := by
  induction members with
  | nil => simp [Json.renderMembers]
  | cons member members ih =>
    rcases member with ⟨name, value⟩
    have first : IsWritten value := each (name, value) List.mem_cons_self
    have front := first (Json.renderMembers members rest)
    have behind := ih fun other listed => each other (List.mem_cons_of_mem _ listed)
    simp only [Json.renderMembers, Json.renderString, List.length_cons, List.length_append]
    omega

theorem isWritten {value : Json} (integral : value.Integral) : IsWritten value := by
  intro rest
  induction value using Json.induct generalizing rest with
  | null => simp only [Json.render, List.length_cons]; omega
  | boolean value => cases value <;> simp only [Json.render, List.length_cons] <;> omega
  | number value =>
    rcases exists_render_eq_cons (integral _ (Json.self_mem_parts _)) [] with ⟨c, tail, front, -⟩
    rcases value with value | value
    · rw [Json.render, Json.renderNumber, List.append_nil] at front
      rw [Json.render, Json.renderNumber, front, List.length_append, List.length_cons]
      omega
    · cases integral _ (Json.self_mem_parts _)
  | text value =>
    simp only [Json.render, Json.renderString, List.length_cons, List.length_append]
    omega
  | list items ih =>
    have each : ∀ item ∈ items, IsWritten item :=
      fun item listed => ih item listed (integral.item item listed)
    cases items with
    | nil => simp only [Json.render, List.length_cons]; omega
    | cons item items =>
      have behind := length_lt_renderItems each rest
      rw [Json.renderItems, List.length_cons] at behind
      rw [Json.render, List.length_cons]
      omega
  | object members ih =>
    have each : ∀ member ∈ members, IsWritten member.2 :=
      fun member listed => ih member listed (integral.member member listed)
    cases members with
    | nil => simp only [Json.render, List.length_cons]; omega
    | cons member members =>
      have behind := length_lt_renderMembers each rest
      rw [Json.renderMembers, List.length_cons] at behind
      rw [Json.render, List.length_cons]
      omega

/-! A value reads back -/

/-- However it goes on, the value is read as what was printed, by any fuel that reaches the number
of its characters. -/
def ReadsBack (value : Json) : Prop :=
  ∀ (fuel : Nat) (rest : List Char), IsBoundary rest →
    (value.render rest).length ≤ fuel + rest.length →
      readValue fuel (value.render rest) = some (ofJson value, rest)

/-- Something written needs fuel to be read. -/
theorem ReadsBack.of_succ {value : Json} (written : IsWritten value)
    (step : ∀ (fuel : Nat) (rest : List Char), IsBoundary rest →
      (value.render rest).length ≤ fuel + 1 + rest.length →
        readValue (fuel + 1) (value.render rest) = some (ofJson value, rest)) :
    ReadsBack value := by
  intro fuel rest boundary enough
  have longer := written rest
  cases fuel with
  | zero => omega
  | succ fuel => exact step fuel rest boundary enough

theorem readItems_render {item : Json} {items : List Json}
    (written : ∀ other ∈ item :: items, IsWritten other)
    (reads : ∀ other ∈ item :: items, ReadsBack other) (fuel : Nat) (rest : List Char)
    (enough : (item.render (Json.renderItems items rest)).length ≤ fuel + rest.length) :
    readItems fuel (item.render (Json.renderItems items rest)) =
      some (ofJson item :: ofItems items, rest) := by
  induction items generalizing item fuel with
  | nil =>
    rw [List.forall_mem_cons] at written reads
    have front := written.1 (Json.renderItems [] rest)
    have ending : (Json.renderItems [] rest).length = rest.length + 1 := rfl
    rcases fuel with _ | fuel
    · omega
    have read := reads.1 fuel _ (isBoundary_renderItems [] rest) (by omega)
    rw [readItems, read]
    rfl
  | cons next items ih =>
    rw [List.forall_mem_cons] at written reads
    have front := written.1 (Json.renderItems (next :: items) rest)
    have behind := length_lt_renderItems written.2 rest
    have later : (Json.renderItems (next :: items) rest).length =
        (next.render (Json.renderItems items rest)).length + 1 := rfl
    rcases fuel with _ | fuel
    · omega
    have read := reads.1 fuel _ (isBoundary_renderItems (next :: items) rest) (by omega)
    have others := ih written.2 reads.2 fuel (by omega)
    rw [readItems, read]
    show (readItems fuel (next.render (Json.renderItems items rest))).map _ = _
    rw [others]
    rfl

/-- The reader at the name of a member that others follow. -/
theorem readMembers_comma {name : String} {value : Json} {fuel : Nat} {behind rest : List Char}
    (read : readValue fuel (value.render behind) = some (ofJson value, behind))
    (goesOn : skipSpace behind = ',' :: rest) :
    readMembers (fuel + 1) (Json.renderString name (':' :: value.render behind)) =
      (readMembers fuel rest).map fun (members, rest) =>
        ((some name, ofJson value) :: members, rest) := by
  have named : skipSpace (':' :: value.render behind) = ':' :: value.render behind :=
    skipSpace_cons rfl _
  rw [readMembers, Json.renderString, skipSpace_cons rfl]
  simp only [readString_printed, named, read, goesOn]

/-- The reader at the name of the last member. -/
theorem readMembers_brace {name : String} {value : Json} {fuel : Nat} {behind rest : List Char}
    (read : readValue fuel (value.render behind) = some (ofJson value, behind))
    (ends : skipSpace behind = '\x7d' :: rest) :
    readMembers (fuel + 1) (Json.renderString name (':' :: value.render behind)) =
      some ([(some name, ofJson value)], rest) := by
  have named : skipSpace (':' :: value.render behind) = ':' :: value.render behind :=
    skipSpace_cons rfl _
  rw [readMembers, Json.renderString, skipSpace_cons rfl]
  simp only [readString_printed, named, read, ends]

theorem length_renderString (name : String) (rest : List Char) :
    rest.length + 2 ≤ (Json.renderString name rest).length := by
  simp only [Json.renderString, List.length_cons, List.length_append]
  omega

theorem readMembers_render {name : String} {value : Json} {members : List (String × Json)}
    (written : ∀ other ∈ (name, value) :: members, IsWritten other.2)
    (reads : ∀ other ∈ (name, value) :: members, ReadsBack other.2) (fuel : Nat)
    (rest : List Char)
    (enough : (Json.renderString name
      (':' :: value.render (Json.renderMembers members rest))).length ≤ fuel + rest.length) :
    readMembers fuel (Json.renderString name
        (':' :: value.render (Json.renderMembers members rest))) =
      some ((some name, ofJson value) :: ofMembers members, rest) := by
  induction members generalizing name value fuel with
  | nil =>
    rw [List.forall_mem_cons] at written reads
    have first : IsWritten value := written.1
    have front := first (Json.renderMembers [] rest)
    have named := length_renderString name (':' :: value.render (Json.renderMembers [] rest))
    have ending : (Json.renderMembers [] rest).length = rest.length + 1 := rfl
    rw [List.length_cons] at named
    rcases fuel with _ | fuel
    · omega
    have read : readValue fuel (value.render (Json.renderMembers [] rest)) = _ :=
      reads.1 fuel _ (isBoundary_renderMembers [] rest) (by dsimp only; omega)
    exact readMembers_brace read rfl
  | cons next members ih =>
    rw [List.forall_mem_cons] at written reads
    rcases next with ⟨nextName, nextValue⟩
    have first : IsWritten value := written.1
    have behind := length_lt_renderMembers written.2 rest
    have later : (Json.renderMembers ((nextName, nextValue) :: members) rest).length =
        (Json.renderString nextName
          (':' :: nextValue.render (Json.renderMembers members rest))).length + 1 := rfl
    generalize following : Json.renderMembers ((nextName, nextValue) :: members) rest = tail at *
    have front := first tail
    have named := length_renderString name (':' :: value.render tail)
    rw [List.length_cons] at named
    rcases fuel with _ | fuel
    · omega
    have boundary : IsBoundary tail := following ▸ isBoundary_renderMembers _ rest
    have read : readValue fuel (value.render tail) = some (ofJson value, tail) :=
      reads.1 fuel tail boundary (by dsimp only; omega)
    have others := ih written.2 reads.2 fuel (by omega)
    have comma : skipSpace tail = ',' :: Json.renderString nextName
        (':' :: nextValue.render (Json.renderMembers members rest)) := following ▸ rfl
    rw [readMembers_comma read comma, others]
    rfl

theorem readsBack {value : Json} (integral : value.Integral) : ReadsBack value := by
  induction value using Json.induct with
  | null => exact .of_succ (isWritten integral) fun fuel rest boundary enough => rfl
  | boolean value =>
    refine .of_succ (isWritten integral) fun fuel rest boundary enough => ?_
    cases value <;> rfl
  | number value =>
    refine .of_succ (isWritten integral) fun fuel rest boundary enough => ?_
    have inRange := integral _ (Json.self_mem_parts _)
    cases value with
    | integer value => exact readValue_integer inRange fuel boundary
    | double value => cases inRange
  | text value =>
    refine .of_succ (isWritten integral) fun fuel rest boundary enough => ?_
    show (readString _).map _ = _
    rw [readString_printed]
    rfl
  | list items ih =>
    refine .of_succ (isWritten integral) fun fuel rest boundary enough => ?_
    have reads : ∀ item ∈ items, ReadsBack item :=
      fun item listed => ih item listed (integral.item item listed)
    have written : ∀ item ∈ items, IsWritten item :=
      fun item listed => isWritten (integral.item item listed)
    cases items with
    | nil => rfl
    | cons item items =>
      have inRange := integral.item item List.mem_cons_self item item.self_mem_parts
      rcases exists_render_eq_cons inRange (Json.renderItems items rest) with
        ⟨c, tail, front, visible, other⟩
      rw [Json.render, List.length_cons] at enough
      have read := readItems_render written reads fuel rest (by omega)
      rw [Json.render, front, readValue_list fuel visible other, ← front, read]
      rfl
  | object members ih =>
    refine .of_succ (isWritten integral) fun fuel rest boundary enough => ?_
    have reads : ∀ member ∈ members, ReadsBack member.2 :=
      fun member listed => ih member listed (integral.member member listed)
    have written : ∀ member ∈ members, IsWritten member.2 :=
      fun member listed => isWritten (integral.member member listed)
    cases members with
    | nil => rfl
    | cons member members =>
      rw [Json.render, List.length_cons] at enough
      have read := readMembers_render written reads fuel rest (by omega)
      show (readMembers fuel (Json.renderString _ _)).map _ = _
      rw [read]
      rfl

/-- The text of a value is read as what was printed. -/
theorem ofText?_toText {value : Json} (integral : value.Integral) :
    ofText? value.toText = some (ofJson value) := by
  have read := readsBack integral (2 * (value.render []).length + 2) [] trivial (by omega)
  rw [ofText?, Json.toText, String.toList_ofList, read]
  rfl

end Source

end NodeSteward
