import NodeSteward.Json.Basic
import NodeSteward.Text.Decimal
import NodeSteward.Text.Hex

/-!
# JSON texts as they were written

Reading a text has two steps.  The first, here, checks the grammar and yields a tree of what was
written: members stand in their order, repeated names included, and a string or a number that
no value can stand for is kept as such.  The second decodes the tree as a value or a record, and
only what it decodes has to be meaningful: a member that nobody asks for may hold a number that
is too large or half of a surrogate pair.

A value may also be held as a text of its own, in an object whose only member has a name that is
reserved for that.  The second step reads such a text in turn.
-/

namespace NodeSteward

/-- A JSON text as it was written. -/
inductive Source where
  | null
  | boolean (value : Bool)
  /-- A number, unless it is too large to be held. -/
  | number (value : Option JsonNumber)
  /-- A string, unless it holds an escape that is half of a character. -/
  | text (value : Option String)
  | list (items : List Source)
  | object (members : List (Option String × Source))
  deriving Repr

namespace Source

/-- The four characters that may stand between the parts of a text. -/
def isSpace (c : Char) : Bool :=
  c == ' ' || c == '\n' || c == '\r' || c == '\t'

def skipSpace (input : List Char) : List Char :=
  input.dropWhile isSpace

def isDigit (c : Char) : Bool :=
  (Decimal.digitValue? c).isSome

/-- The parts of a written number. -/
structure NumberText where
  negative : Bool
  whole : List Char
  /-- The digits after the point, or none where there is no point. -/
  fraction : List Char
  /-- The sign and the digits of the power of ten. -/
  power : Option (Bool × List Char)

/-- Splits digits off the front. -/
def splitDigits (input : List Char) : List Char × List Char :=
  (input.takeWhile isDigit, input.dropWhile isDigit)

/-- The whole part: one zero, or digits that do not start with a zero. -/
def readWhole (input : List Char) : Option (List Char × List Char) :=
  match splitDigits input with
  | ([], _) => none
  | (['0'], rest) => some (['0'], rest)
  | ('0' :: _, _) => none
  | (digits, rest) => some (digits, rest)

/-- A point, which at least one digit has to follow. -/
def readFraction : List Char → Option (List Char × List Char)
  | '.' :: rest =>
    match splitDigits rest with
    | ([], _) => none
    | (digits, rest) => some (digits, rest)
  | rest => some ([], rest)

/-- The digits of a power of ten, of which there is at least one. -/
def readPowerDigits (negative : Bool) (input : List Char) :
    Option (Option (Bool × List Char) × List Char) :=
  match splitDigits input with
  | ([], _) => none
  | (digits, rest) => some (some (negative, digits), rest)

/-- The power of ten, if there is one. -/
def readPower : List Char → Option (Option (Bool × List Char) × List Char)
  | c :: rest =>
    if c = 'e' ∨ c = 'E' then
      match rest with
      | '+' :: digits => readPowerDigits false digits
      | '-' :: digits => readPowerDigits true digits
      | digits => readPowerDigits false digits
    else some (none, c :: rest)
  | [] => some (none, [])

/-- A number after its sign. -/
def readNumber (negative : Bool) (input : List Char) : Option (NumberText × List Char) := do
  let (whole, rest) ← readWhole input
  let (fraction, rest) ← readFraction rest
  let (power, rest) ← readPower rest
  return (⟨negative, whole, fraction, power⟩, rest)

/-- Takes digits into `significand` while it fits an unsigned word of 64 bits, and returns the
digits that were left. -/
def takeSignificand : Nat → List Char → Nat × List Char
  | significand, [] => (significand, [])
  | significand, c :: rest =>
    let next := significand * 10 + (c.toNat - 48)
    if Decimal.maxUInt64 < next then (significand, c :: rest) else takeSignificand next rest

/-- The natural number that some digits denote. -/
def digitsValue (digits : List Char) : Nat :=
  digits.foldl (fun value c => value * 10 + (c.toNat - 48)) 0

/-- The double near `significand * 10 ^ power`: the significand and the power of ten are rounded
first, then their product or quotient.  There is none where the product is infinite. -/
def scaleByTen? (significand : Nat) (power : Int) : Option Double :=
  let start := Double.ofNat significand
  let powerOfTen (exponent : Nat) : Double := Double.ofNat (Nat.pow 10 exponent)
  if start.isZero then some start
  else if 0 ≤ power then
    if power ≤ 308 then
      let product := start.mulMagnitude (powerOfTen power.toNat)
      if product.isInfinite then none else some product
    else none
  else
    let below := (-power).toNat
    if below ≤ 308 then some (start.divMagnitude (powerOfTen below))
    else if below ≤ 616 then
      some ((start.divMagnitude (powerOfTen 308)).divMagnitude (powerOfTen (below - 308)))
    else some Double.zero

/-- The largest power of ten that is added to the places of the digits; a larger one makes the
number zero or too large by itself. -/
def maxPower : Nat := 0x7fffffff

/-- The value of a written number.  Digits beyond those of an unsigned word of 64 bits count
only by their places. -/
def NumberText.value? (number : NumberText) : Option JsonNumber :=
  let (whole, wholeRest) := takeSignificand 0 number.whole
  let (significand, fractionRest) := takeSignificand whole number.fraction
  let places : Int :=
    wholeRest.length - ((number.fraction.length - fractionRest.length : Nat) : Int)
  let asDouble (power : Int) : Option JsonNumber :=
    (scaleByTen? significand power).map (fun size => .double (size.withSign number.negative))
  match number.power with
  | some (negativePower, digits) =>
    let size := digitsValue digits
    if maxPower < size then
      if significand ≠ 0 ∧ !negativePower then none
      else some (.double (Double.zero.withSign number.negative))
    else asDouble (places + if negativePower then -(size : Int) else size)
  | none =>
    if number.fraction.isEmpty && wholeRest.isEmpty then
      if !number.negative then some (.integer whole)
      else if whole = 0 ∨ 0x8000000000000000 < whole then
        some (.double ((Double.ofNat whole).withSign true))
      else some (.integer (-(whole : Int)))
    else asDouble places

/-- A piece of a string: a character, or a unit of sixteen bits that an escape names. -/
inductive Piece where
  | plain (c : Char)
  | unit (code : Nat)

/-- The character of a short escape. -/
def shortEscape? : Char → Option Char
  | '"' => some '"'
  | '\\' => some '\\'
  | '/' => some '/'
  | 'b' => some '\x08'
  | 'f' => some '\x0c'
  | 'n' => some '\n'
  | 'r' => some '\r'
  | 't' => some '\t'
  | _ => none

/-- The unit that four hexadecimal digits name. -/
def unit? (a b c d : Char) : Option Nat := do
  let first ← Hex.digitValue? a
  let second ← Hex.digitValue? b
  let third ← Hex.digitValue? c
  let fourth ← Hex.digitValue? d
  return ((first * 16 + second) * 16 + third) * 16 + fourth

/-- Reads pieces up to the closing quote and returns them with what follows it, the newest piece
first.  A control character may not stand in a string. -/
def readPieces (pieces : List Piece) : List Char → Option (List Piece × List Char)
  | [] => none
  | '"' :: rest => some (pieces, rest)
  | '\\' :: 'u' :: a :: b :: c :: d :: rest =>
    match unit? a b c d with
    | some code => readPieces (.unit code :: pieces) rest
    | none => none
  | '\\' :: c :: rest =>
    match shortEscape? c with
    | some value => readPieces (.plain value :: pieces) rest
    | none => none
  | c :: rest => if c.toNat < 32 ∨ c = '\\' then none else readPieces (.plain c :: pieces) rest

/-- Joins pieces, the newest first, in front of the characters that follow them.  Two units that
form a surrogate pair make one character, and half of a pair makes none. -/
def joinPieces (following : List Char) : List Piece → Option (List Char)
  | [] => some following
  | .plain c :: earlier => joinPieces (c :: following) earlier
  | .unit low :: .unit high :: earlier =>
    if 0xDC00 ≤ low ∧ low ≤ 0xDFFF then
      if 0xD800 ≤ high ∧ high ≤ 0xDBFF then
        joinPieces (Char.ofNat (0x10000 + (high - 0xD800) * 0x400 + (low - 0xDC00)) :: following)
          earlier
      else none
    else if 0xD800 ≤ low ∧ low ≤ 0xDBFF then none
    else joinPieces (Char.ofNat low :: following) (.unit high :: earlier)
  | .unit code :: earlier =>
    if 0xD800 ≤ code ∧ code ≤ 0xDFFF then none
    else joinPieces (Char.ofNat code :: following) earlier

/-- A string after its opening quote. -/
def readString (input : List Char) : Option (Option String × List Char) :=
  (readPieces [] input).map (fun (pieces, rest) => ((joinPieces [] pieces).map String.ofList, rest))

mutual

/-- Reads one value and returns what follows it.  `fuel` bounds the steps. -/
def readValue : Nat → List Char → Option (Source × List Char)
  | 0, _ => none
  | fuel + 1, input =>
    match skipSpace input with
    | 'n' :: 'u' :: 'l' :: 'l' :: rest => some (.null, rest)
    | 't' :: 'r' :: 'u' :: 'e' :: rest => some (.boolean true, rest)
    | 'f' :: 'a' :: 'l' :: 's' :: 'e' :: rest => some (.boolean false, rest)
    | '"' :: rest => (readString rest).map (fun (value, rest) => (.text value, rest))
    | '-' :: rest => (readNumber true rest).map (fun (value, rest) => (.number value.value?, rest))
    | '[' :: rest =>
      match skipSpace rest with
      | ']' :: rest => some (.list [], rest)
      | rest => (readItems fuel rest).map (fun (items, rest) => (.list items, rest))
    | '\x7b' :: rest =>
      match skipSpace rest with
      | '\x7d' :: rest => some (.object [], rest)
      | rest => (readMembers fuel rest).map (fun (members, rest) => (.object members, rest))
    | rest => (readNumber false rest).map (fun (value, rest) => (.number value.value?, rest))

/-- Reads items up to the end of the list. -/
def readItems : Nat → List Char → Option (List Source × List Char)
  | 0, _ => none
  | fuel + 1, input =>
    match readValue fuel input with
    | none => none
    | some (item, rest) =>
      match skipSpace rest with
      | ',' :: rest => (readItems fuel rest).map (fun (items, rest) => (item :: items, rest))
      | ']' :: rest => some ([item], rest)
      | _ => none

/-- Reads members up to the end of the object. -/
def readMembers : Nat → List Char → Option (List (Option String × Source) × List Char)
  | 0, _ => none
  | fuel + 1, input =>
    match skipSpace input with
    | '"' :: rest =>
      match readString rest with
      | none => none
      | some (name, rest) =>
        match skipSpace rest with
        | ':' :: rest =>
          match readValue fuel rest with
          | none => none
          | some (value, rest) =>
            match skipSpace rest with
            | ',' :: rest =>
              (readMembers fuel rest).map (fun (members, rest) => ((name, value) :: members, rest))
            | '\x7d' :: rest => some ([(name, value)], rest)
            | _ => none
        | _ => none
    | _ => none

end

/-- Reads a whole text.  Each step takes at least one character or opens a list or an object, so
that twice the length is fuel enough. -/
def ofText? (input : String) : Option Source :=
  let chars := input.toList
  match readValue (2 * chars.length + 2) chars with
  | none => none
  | some (value, rest) => if (skipSpace rest).isEmpty then some value else none

/-! ## Sources and values -/

/-- The name of the member that holds a value as a text. -/
def embeddedName : String := "$serde_json::private::RawValue"

/-- The text that an object holds in place of a value, if its first member is the one for that.
It has to be the only member and a string, or else there is no such text. -/
def embedded? : List (Option String × Source) → Option (Option String)
  | (some name, source) :: rest =>
    if name = embeddedName then
      match source, rest with
      | .text held, [] => some held
      | _, _ => some none
    else none
  | _ => none

mutual

/-- The value that a source stands for, where `read` reads the texts that are held in place of
values.  All strings and numbers must have a value, and no more than `nesting` lists and objects
may stand inside one another. -/
def toJsonWith (read : String → Option Json) : Nat → Source → Option Json
  | _, .null => some .null
  | _, .boolean value => some (.boolean value)
  | _, .number value => value.map .number
  | _, .text value => value.map .text
  | 0, .list _ => none
  | nesting + 1, .list items => (itemsToJson? read nesting items).map .list
  | 0, .object _ => none
  | nesting + 1, .object members =>
    match embedded? members with
    | some held => held.bind read
    | none => (membersToJson? read nesting members).map Json.ofMembers

def itemsToJson? (read : String → Option Json) (nesting : Nat) : List Source → Option (List Json)
  | [] => some []
  | item :: items =>
    match toJsonWith read nesting item, itemsToJson? read nesting items with
    | some value, some values => some (value :: values)
    | _, _ => none

def membersToJson? (read : String → Option Json) (nesting : Nat) :
    List (Option String × Source) → Option (List (String × Json))
  | [] => some []
  | (name, source) :: members =>
    match name, toJsonWith read nesting source, membersToJson? read nesting members with
    | some name, some value, some values => some ((name, value) :: values)
    | _, _, _ => none

end

/-- Reads a text that is held in place of a value.  Its nesting counts anew, and it may itself
hold texts in place of values; `layers` bounds how far that goes. -/
def readEmbedded : Nat → String → Option Json
  | 0, _ => none
  | layers + 1, held => (ofText? held).bind (toJsonWith (readEmbedded layers) Json.nestingLimit)

/-- The value that a source stands for, with at most `nesting` lists and objects inside one
another.  A text that is held inside another is shorter than it, so that the length of the
outermost bounds the layers. -/
def toJson? (nesting : Nat) (source : Source) : Option Json :=
  source.toJsonWith (fun held => readEmbedded (held.length + 1) held) nesting

mutual

/-- A value as it would have been written. -/
def ofJson : Json → Source
  | .null => .null
  | .boolean value => .boolean value
  | .number value => .number (some value)
  | .text value => .text (some value)
  | .list items => .list (ofItems items)
  | .object members => .object (ofMembers members)

def ofItems : List Json → List Source
  | [] => []
  | item :: items => ofJson item :: ofItems items

def ofMembers : List (String × Json) → List (Option String × Source)
  | [] => []
  | (name, value) :: members => (some name, ofJson value) :: ofMembers members

end

end Source

end NodeSteward
