import NodeSteward.Time.Timestamp
import NodeSteward.Json.Decode
import NodeSteward.Text.Blank

/-!
# Reading instants

Instants are read more freely than they are written.  Blanks may stand before every number and
every mark of the date and the time, numbers may have fewer digits than they are written with,
a blank may stand for the `T`, and any offset from UTC may follow.  A second 60 is a leap
second.  What remains fixed is the order of the parts, the range of each, and that an offset is
given.
-/

namespace NodeSteward

namespace Timestamp

open Text (trimStart)

/-- Reads up to `most` digits, of which there is at least one, and returns their value, their
number and what follows. -/
def readDigits (most : Nat) (input : List Char) : Option (Nat × Nat × List Char) :=
  let digits := (input.take most).takeWhile Source.isDigit
  if digits.isEmpty then none
  else some (Source.digitsValue digits, digits.length, input.drop digits.length)

/-- Reads a number of one or two digits after blanks. -/
def readShort (input : List Char) : Option (Nat × List Char) :=
  (readDigits 2 (trimStart input)).map (fun (value, _, rest) => (value, rest))

/-- Reads a year after blanks: up to four digits, or a sign and any number of digits. -/
def readYear (input : List Char) : Option (Int × List Char) :=
  match trimStart input with
  | '-' :: rest => (readDigits rest.length rest).map (fun (value, _, rest) => (-(value : Int), rest))
  | '+' :: rest => (readDigits rest.length rest).map (fun (value, _, rest) => ((value : Int), rest))
  | rest => (readDigits 4 rest).map (fun (value, _, rest) => ((value : Int), rest))

/-- Reads a mark after blanks. -/
def readMark (mark : Char) (input : List Char) : Option (List Char) :=
  match trimStart input with
  | c :: rest => if c = mark then some rest else none
  | [] => none

/-- Reads the fraction of a second in nanoseconds; digits after the ninth are passed over. -/
def readNanos : List Char → Option (Nat × List Char)
  | '.' :: rest =>
    (readDigits 9 rest).map (fun (value, width, rest) =>
      (value * Nat.pow 10 (9 - width), rest.dropWhile Source.isDigit))
  | rest => some (0, rest)

/-- Two digits. -/
def readPair : List Char → Option (Nat × List Char)
  | first :: second :: rest =>
    match Decimal.digitValue? first, Decimal.digitValue? second with
    | some tens, some ones => some (tens * 10 + ones, rest)
    | _, _ => none
  | _ => none

/-- An offset from UTC in seconds, after its sign: hours, colons and blanks, and minutes. -/
def readOffsetSize (input : List Char) : Option (Nat × List Char) := do
  let (hours, rest) ← readPair input
  let (minutes, rest) ← readPair (rest.dropWhile (fun c => c == ':' || Text.isBlank c))
  if minutes < 60 then some (hours * 3600 + minutes * 60, rest) else none

/-- Reads the offset from UTC in seconds: `UTC` or `Z` in either case, or a sign and a size. -/
def readOffset (input : List Char) : Option (Int × List Char) :=
  match input with
  | 'Z' :: rest => some (0, rest)
  | 'z' :: rest => some (0, rest)
  | '+' :: rest => (readOffsetSize rest).map (fun (size, rest) => ((size : Int), rest))
  | '-' :: rest => (readOffsetSize rest).map (fun (size, rest) => (-(size : Int), rest))
  | '\u2212' :: rest => (readOffsetSize rest).map (fun (size, rest) => (-(size : Int), rest))
  | first :: second :: third :: rest =>
    if first.toLower = 'u' ∧ second.toLower = 't' ∧ third.toLower = 'c' then some (0, rest)
    else none
  | _ => none

/-- Reads the instant that a text names. -/
def ofText? (input : String) : Option Timestamp := do
  let (year, rest) ← readYear input.toList
  let (month, rest) ← readShort (← readMark '-' rest)
  let (day, rest) ← readShort (← readMark '-' rest)
  let rest ← match rest with
    | 'T' :: rest => some rest
    | 't' :: rest => some rest
    | ' ' :: rest => some rest
    | _ => none
  let (hour, rest) ← readShort rest
  let (minute, rest) ← readShort (← readMark ':' rest)
  let (second, rest) ← readShort (← readMark ':' rest)
  let (nanos, rest) ← readNanos rest
  let (offset, rest) ← readOffset (trimStart rest)
  guard (trimStart rest).isEmpty
  let date : Date := { year, month, day }
  guard (date.isValid ∧ hour < 24 ∧ minute < 60 ∧ second ≤ 60)
  guard (-(secondsPerDay : Int) < offset ∧ offset < secondsPerDay)
  let leap := second = 60
  let localSecond := date.toDays * secondsPerDay + (hour * 3600 + minute * 60 + min second 59 : Nat)
  guard (inRange localSecond ∧ inRange (localSecond - offset))
  return ⟨localSecond - offset, nanos + if leap then nanosPerSecond else 0⟩

/-- Decodes an instant in a record. -/
def decode? (source : Source) : Option Timestamp :=
  source.text?.bind ofText?

/-- An instant in a record. -/
def toJson (instant : Timestamp) : Json :=
  .text instant.text

end Timestamp

end NodeSteward
