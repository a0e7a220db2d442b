import NodeSteward.Number.Double
import NodeSteward.Text.Decimal

/-!
# Shortest decimal text of a binary number

Many decimals round to the same binary number.  The text of a number shows one with the fewest
digits, and of those the one nearest to the number.  Two may be equally near, and the texts
differ in which of them they take: JSON the even one, plain text the one farther from zero.

The reals that round to `significand * 2 ^ exponent` form an interval whose ends are half a
step away; the lower step is half as long where the significand is the least of its binade,
and the ends belong to the interval when the significand is even.  Counted in quarter steps
all bounds are natural numbers.  For each number of digits the decimal grid is tried at its two
points next to the value: if any point of the grid lies in the interval then one of these does.
-/

namespace NodeSteward

namespace Double

/-- The digits of a decimal and the power of ten of the last of them. -/
structure ShortDecimal where
  digits : Nat
  exponent : Int
  deriving DecidableEq, Repr

/-- The exponent of the leading digit of a positive ratio. -/
def decimalExponent (numerator denominator : Nat) : Int :=
  if denominator ≤ numerator then
    ((Decimal.digits (numerator / denominator)).length : Int) - 1
  else
    let width := (Decimal.digits (denominator / numerator)).length
    if denominator ≤ numerator * Nat.pow 10 (width - 1) then 1 - (width : Int) else -(width : Int)

/-- Compares `digits * 10 ^ power` with `numerator / denominator`. -/
def compareDecimal (digits : Nat) (power : Int) (numerator denominator : Nat) : Ordering :=
  compare (digits * Nat.pow 10 power.toNat * denominator) (numerator * Nat.pow 10 (-power).toNat)

/-- The interval of the reals that round to one number, in quarter steps. -/
structure RoundingInterval where
  lower : Nat
  upper : Nat
  /-- The ratio by which quarter steps are multiplied. -/
  scale : Nat × Nat
  closed : Bool

/-- The interval of the number `significand * 2 ^ exponent`. -/
def roundingInterval (significand : Nat) (exponent : Int) : RoundingInterval where
  lower :=
    if significand = exponentWeight ∧ -1074 < exponent then 4 * significand - 1
    else 4 * significand - 2
  upper := 4 * significand + 2
  scale := shiftRatio 1 1 (exponent - 2)
  closed := significand % 2 = 0

/-- True when `digits * 10 ^ power` lies in the interval. -/
def RoundingInterval.holds (interval : RoundingInterval) (digits : Nat) (power : Int) : Bool :=
  let below := compareDecimal digits power (interval.lower * interval.scale.1) interval.scale.2
  let above := compareDecimal digits power (interval.upper * interval.scale.1) interval.scale.2
  (below == .gt || (interval.closed && below == .eq)) &&
    (above == .lt || (interval.closed && above == .eq))

/-- The better of the two grid points next to `numerator / denominator`, at steps of
`10 ^ power`, among those in the interval. -/
def gridPoint? (tie : Tie) (interval : RoundingInterval) (numerator denominator : Nat)
    (power : Int) : Option ShortDecimal :=
  let scaledNumerator := numerator * Nat.pow 10 (-power).toNat
  let scaledDenominator := denominator * Nat.pow 10 power.toNat
  let below := scaledNumerator / scaledDenominator
  let lowHolds := interval.holds below power && below != 0
  let highHolds := interval.holds (below + 1) power
  if lowHolds && highHolds then
    some ⟨roundRatio tie scaledNumerator scaledDenominator, power⟩
  else if lowHolds then some ⟨below, power⟩
  else if highHolds then some ⟨below + 1, power⟩
  else none

/-- Tries grids of more and more digits; seventeen always suffice. -/
def shortestFrom (tie : Tie) (interval : RoundingInterval) (numerator denominator : Nat)
    (leading : Int) : Nat → Nat → ShortDecimal
  | 0, _ => ⟨roundRatio tie numerator denominator, 0⟩
  | attempts + 1, places =>
    match gridPoint? tie interval numerator denominator (leading + 1 - places) with
    | some found => found
    | none => shortestFrom tie interval numerator denominator leading attempts (places + 1)

/-- Moves zeros at the end of the digits into the exponent. -/
def ShortDecimal.trim (decimal : ShortDecimal) : ShortDecimal :=
  if positive : 0 < decimal.digits then
    if decimal.digits % 10 = 0 then
      ShortDecimal.trim ⟨decimal.digits / 10, decimal.exponent + 1⟩
    else decimal
  else decimal
termination_by decimal.digits
decreasing_by exact Nat.div_lt_self positive (by decide)

/-- The shortest decimal that rounds to `significand * 2 ^ exponent`. -/
def shortest (tie : Tie) (significand : Nat) (exponent : Int) : ShortDecimal :=
  if significand = 0 then ⟨0, 0⟩
  else
    let ratio := shiftRatio significand 1 exponent
    (shortestFrom tie (roundingInterval significand exponent) ratio.1 ratio.2
      (decimalExponent ratio.1 ratio.2) 17 1).trim

/-- The decimal without any exponent: zeros fill the places that the digits leave open, and
`ending` follows the digits of a whole number. -/
def ShortDecimal.positional (decimal : ShortDecimal) (ending : List Char) : List Char :=
  let written := Decimal.digits decimal.digits
  if 0 ≤ decimal.exponent then
    written ++ List.replicate decimal.exponent.toNat '0' ++ ending
  else
    let places := (-decimal.exponent).toNat
    if places < written.length then
      written.take (written.length - places) ++ '.' :: written.drop (written.length - places)
    else '0' :: '.' :: List.replicate (places - written.length) '0' ++ written

/-- The decimal with a power of ten, one digit standing before the point.  The power is always
written with its sign. -/
def ShortDecimal.scientific (decimal : ShortDecimal) : List Char :=
  let written := Decimal.digits decimal.digits
  let exponent := decimal.exponent + written.length - 1
  let power := if exponent < 0 then Decimal.intChars exponent else '+' :: Decimal.intChars exponent
  match written with
  | leading :: second :: rest => leading :: '.' :: second :: rest ++ 'e' :: power
  | written => written ++ 'e' :: power

/-- The text of a finite number in JSON.  It is positional while the point falls between five
places before the digits and the sixteenth digit, a whole number ends in `.0`, and a power of
ten is written otherwise.  A zero keeps its sign. -/
def jsonChars (x : Double) : List Char :=
  let sign := if x.isNegative then ['-'] else []
  match x.magnitude with
  | .finite significand exponent =>
    let decimal := shortest .toEven significand exponent
    let point := decimal.exponent + (Decimal.digits decimal.digits).length
    sign ++
      if -5 < point ∧ point ≤ 16 then decimal.positional ['.', '0'] else decimal.scientific
  | _ => ['n', 'u', 'l', 'l']

/-- The plain text of a number: always positional, and a whole number has no point. -/
def plainText (x : Double) : String :=
  let sign := if x.isNegative then ['-'] else []
  match x.magnitude with
  | .finite significand exponent =>
    String.ofList (sign ++ (shortest .away significand exponent).positional [])
  | .infinite => String.ofList (sign ++ ['i', 'n', 'f'])
  | .notANumber => "NaN"

end Double

end NodeSteward
