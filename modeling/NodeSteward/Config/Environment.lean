import NodeSteward.Config.Settings
import NodeSteward.Number.Shortest

/-!
# Settings from environment variables

Names count without regard to case, and two underscores lead into a section, so that
`SCHEDULER__TICK_SECONDS` is `tick_seconds` in the section `scheduler`.  An index in brackets
leads into a list, and a list gives the fields of a section in their order, so that
`SCHEDULER[0]` stands for the same field.  A value is read as a truth value, an integer or a
number if it looks like one, and is a text otherwise.  Where the
settings want another form it is converted freely: numbers become texts, truth values become 0
and 1, and numbers are rounded.
-/

namespace NodeSteward

namespace Environment

/-- A value as its text looks. -/
inductive Scalar where
  | boolean (value : Bool)
  | integer (value : Int)
  | double (value : Double)
  | text (value : String)
  deriving DecidableEq, Repr

/-- The lower case of a character, as far as it can become an ASCII letter. -/
def lowerChar (c : Char) : Char :=
  if c = '\u212a' then 'k' else c.toLower

def lower (text : String) : String :=
  String.ofList (text.toList.map lowerChar)

/-- The number that a text denotes: one of the words for infinity and for what is no number, or
digits with at most one point among them and a power of ten after them. -/
def readDouble? (input : List Char) : Option Double :=
  let (negative, rest) :=
    match input with
    | '-' :: rest => (true, rest)
    | '+' :: rest => (false, rest)
    | rest => (false, rest)
  let word := rest.map Char.toLower
  if word = "inf".toList ∨ word = "infinity".toList then
    some (Double.infinity.withSign negative)
  else if word = "nan".toList then some (Double.notANumber.withSign negative)
  else
    let (whole, rest) := Source.splitDigits rest
    let (fraction, rest) :=
      match rest with
      | '.' :: rest => Source.splitDigits rest
      | rest => ([], rest)
    if whole.isEmpty && fraction.isEmpty then none
    else
      match Source.readPower rest with
      | some (power, []) =>
        let power : Int :=
          match power with
          | none => 0
          | some (true, digits) => -(Source.digitsValue digits : Int)
          | some (false, digits) => Source.digitsValue digits
        some (ofDecimal negative (Source.digitsValue (whole ++ fraction))
          (power - fraction.length))
      | _ => none
where
  /-- The double nearest to `digits * 10 ^ power`.  Powers far outside of the format's range are
  not computed. -/
  ofDecimal (negative : Bool) (digits : Nat) (power : Int) : Double :=
    let leading := power + (Decimal.digits digits).length
    if digits = 0 then Double.zero.withSign negative
    else if 310 < leading then Double.infinity.withSign negative
    else if leading < -330 then Double.zero.withSign negative
    else Double.ofRatio negative (digits * Nat.pow 10 power.toNat) (Nat.pow 10 (-power).toNat)

/-- The value that a text looks like. -/
def readScalar (text : String) : Scalar :=
  if lower text = "true" then .boolean true
  else if lower text = "false" then .boolean false
  else
    match Decimal.readInt64 text with
    | .ok value => .integer value
    | .error _ =>
      match readDouble? text.toList with
      | some value => .double value
      | none => .text text

/-- A step into a setting: to the named entry of a section, or to a place of a list. -/
inductive Step where
  | entry (name : String)
  /-- The place at an index; below zero it counts from the end of the list. -/
  | place (index : Int)
  deriving DecidableEq, Repr

/-- A name with a point for each two underscores. -/
def pointed : List Char → List Char
  | '_' :: '_' :: rest => '.' :: pointed rest
  | c :: rest => c :: pointed rest
  | [] => []

def isNameChar (c : Char) : Bool :=
  ('a' ≤ c && c ≤ 'z') || Source.isDigit c || c == '_' || c == '-'

/-- The index between two brackets, around which blanks may stand.  A plus sign may not. -/
def readIndex? (input : List Char) : Option Int :=
  let isBlank := fun c => c == ' ' || c == '\t'
  let trimmed := ((input.dropWhile isBlank).reverse.dropWhile isBlank).reverse
  if trimmed.head? = some '+' then none
  else (Decimal.readInt 0x8000000000000000 Decimal.maxInt64 trimmed).toOption

/-- Reads the steps after the first: a point and a name, or an index in brackets. -/
def readSteps? : List Char → Option (List Step)
  | [] => some []
  | '.' :: rest =>
    match rest.takeWhile isNameChar with
    | [] => none
    | name => (readSteps? (rest.dropWhile isNameChar)).map (.entry (String.ofList name) :: ·)
  | '[' :: rest =>
    let closing := rest.dropWhile (· != ']')
    match readIndex? (rest.takeWhile (· != ']')) with
    | some index =>
      if closing.isEmpty then none else (readSteps? closing.tail).map (.place index :: ·)
    | none => none
  | _ => none
termination_by input => input.length
decreasing_by
  · exact Nat.lt_succ_of_le (List.dropWhile_sublist isNameChar).length_le
  · exact Nat.lt_succ_of_le
      ((List.tail_sublist _).trans (List.dropWhile_sublist (· != ']'))).length_le

/-- The name that a variable starts with, and the steps from there.  A name that cannot be read
so is kept whole. -/
def pathOf (name : String) : String × List Step :=
  let lowered := (lower name).toList
  let input := pointed lowered
  match input.takeWhile isNameChar, readSteps? (input.dropWhile isNameChar) with
  | first :: more, some steps => (String.ofList (first :: more), steps)
  | _, _ => (String.ofList lowered, [])

/-- A value, a list, or a section with named entries. -/
inductive Setting where
  /-- A place of a list that no variable sets. -/
  | blank
  | scalar (value : Scalar)
  | list (items : List Setting)
  | section (entries : List (String × Setting))

/-- The entry of the given name. -/
def setting? (name : String) (entries : List (String × Setting)) : Option Setting :=
  entries.lookup name

/-- The entries with one of them set. -/
def setEntry (name : String) (value : Setting) (entries : List (String × Setting)) :
    List (String × Setting) :=
  (name, value) :: entries.filter (fun entry => entry.1 != name)

/-- The items of a list; what is no list has none. -/
def Setting.items : Setting → List Setting
  | .list items => items
  | _ => []

/-- The entries of a section; what is no section has none. -/
def Setting.entries : Setting → List (String × Setting)
  | .section entries => entries
  | _ => []

/-- Makes sure that a list has the place of an index, and says where it is.  Blanks fill the
list up to a place after its end, and stand in front of it for a place before its start. -/
def makePlace (index : Int) (items : List Setting) : List Setting × Nat :=
  if 0 ≤ index then
    (items ++ List.replicate (index.toNat + 1 - items.length) .blank, index.toNat)
  else
    let back := index.natAbs
    (List.replicate (back - items.length) .blank ++ items, items.length - back)

/-- Sets the value at the end of a path.  What is no section on the way becomes one where a
name leads on, and what is no list becomes one where an index does. -/
def Setting.set (value : Scalar) : List Step → Setting → Setting
  | [], _ => .scalar value
  | .entry name :: path, setting =>
    let inner := (setting? name setting.entries).getD .blank
    .section (setEntry name (inner.set value path) setting.entries)
  | .place index :: path, setting =>
    let (items, position) := makePlace index setting.items
    .list (items.modify position (Setting.set value path))

/-- The entries that some variables set, the later ones prevailing. -/
def settingsOf (bindings : List (String × String)) : List (String × Setting) :=
  bindings.foldl
    (fun entries named =>
      let (name, path) := pathOf named.1
      let inner := (setting? name entries).getD .blank
      setEntry name (inner.set (readScalar named.2) path) entries)
    []

/-- The text of a value; lists and sections have none. -/
def toText? : Setting → Option String
  | .scalar (.boolean true) => some "true"
  | .scalar (.boolean false) => some "false"
  | .scalar (.integer value) => some (Decimal.intText value)
  | .scalar (.double value) => some value.plainText
  | .scalar (.text value) => some value
  | _ => none

/-- The words that stand for one and for zero. -/
def wordValue? (text : String) : Option Int :=
  let word := lower text
  if word = "true" ∨ word = "on" ∨ word = "yes" then some 1
  else if word = "false" ∨ word = "off" ∨ word = "no" then some 0
  else none

/-- The integer nearest to a number, brought into the range from `lowest` to `highest`. -/
def clampDouble (lowest highest : Int) (value : Double) : Int :=
  if value.isNaN then 0
  else if value.isInfinite then (if value.isNegative then lowest else highest)
  else max lowest (min highest value.roundHalfAway)

/-- A value as an integer from `lowest` to `highest`.  Rounded numbers are brought into the
range, while an integer outside of it is an error. -/
def toInt? (lowest highest : Int) : Setting → Option Int
  | .scalar (.boolean true) => some 1
  | .scalar (.boolean false) => some 0
  | .scalar (.integer value) => if lowest ≤ value ∧ value ≤ highest then some value else none
  | .scalar (.double value) => some (clampDouble lowest highest value)
  | .scalar (.text value) => wordValue? value
  | _ => none

def toInt64? (setting : Setting) : Option Int :=
  toInt? (-0x8000000000000000) 0x7fffffffffffffff setting

def toUInt64? (setting : Setting) : Option UInt64 :=
  (toInt? 0 0xffffffffffffffff setting).map (fun value => UInt64.ofNat value.toNat)

/-- A value as a word of 32 bits; it is converted to 64 bits first and has to fit. -/
def toUInt32? (setting : Setting) : Option UInt32 :=
  (toUInt64? setting).bind (fun value =>
    if value.toNat < 0x100000000 then some (UInt32.ofNat value.toNat) else none)

/-- The case that a text names, or that is the only name in a section. -/
def toCase? {α : Type} (cases : List α) (name : α → String) : Setting → Option α
  | .scalar (.text value) => cases.find? (fun case => name case == value)
  | .section [(value, _)] => cases.find? (fun case => name case == value)
  | _ => none

/-- The values of fields: by name in a section, and in the order of the fields in a list. -/
def toFields? (names : List String) : Setting → Option (List (String × Setting))
  | .section entries => some entries
  | .list items => some (names.zip items)
  | _ => none

/-- The value of an entry, or `absent` where there is none. -/
def valueOr {α : Type} (entries : List (String × Setting)) (name : String)
    (convert : Setting → Option α) (absent : α) : Option α :=
  match setting? name entries with
  | none => some absent
  | some setting => convert setting

/-! ## Settings -/

def schedulerOf? (setting : Setting) : Option SchedulerSettings := do
  let entries ← toFields? ["tick_seconds", "lightning_node_id"] setting
  let standard := SchedulerSettings.standard
  return {
    tickSeconds := ← valueOr entries "tick_seconds" toUInt64? standard.tickSeconds
    lightningNode := ← valueOr entries "lightning_node_id" toInt64? standard.lightningNode }

def maintenanceOf? (setting : Setting) : Option MaintenanceSettings := do
  let entries ← toFields?
    ["tick_seconds", "verification_delay_ms", "verification_url"] setting
  let standard := MaintenanceSettings.standard
  return {
    tickSeconds := ← valueOr entries "tick_seconds" toUInt64? standard.tickSeconds
    verificationDelayMillis := ←
      valueOr entries "verification_delay_ms" toUInt64? standard.verificationDelayMillis
    verificationUrl := ← valueOr entries "verification_url" toText? standard.verificationUrl }

def nodeOf? (setting : Setting) : Option NodeSettings := do
  let entries ← toFields? ["chain", "network", "public_key"] setting
  let standard := NodeSettings.standard
  return {
    chain := ← valueOr entries "chain" (toCase? Chain.all Chain.name) standard.chain
    network := ← valueOr entries "network" (toCase? Network.all Network.name) standard.network
    publicKey := ← valueOr entries "public_key" toText? standard.publicKey }

/-- The settings that some environment variables describe. -/
def serverSettings? (bindings : List (String × String)) : Option ServerSettings := do
  let entries := settingsOf bindings
  return {
    databaseUrl := ← (setting? "database_url" entries).bind toText?
    databaseMaxConnections := ←
      valueOr entries "database_max_connections" toUInt32? ServerSettings.standardMaxConnections
    scheduler := ← valueOr entries "scheduler" schedulerOf? .standard
    maintenance := ← valueOr entries "maintenance" maintenanceOf? .standard
    node := ← valueOr entries "node" nodeOf? .standard }

end Environment

end NodeSteward
