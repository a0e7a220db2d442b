/-!
# Binary floating-point numbers

A number of the binary64 format is kept as its bit pattern, and all arithmetic on it is done
exactly on natural numbers and rounded once, to the nearest number of the format and to the
even one when two are equally near.  Nothing depends on a floating-point unit, so every result
can be computed inside a proof.
-/

namespace NodeSteward

/-- A binary64 number. -/
structure Double where
  /-- Sign, eleven bits of exponent and fifty-two bits of fraction. -/
  bits : UInt64
  deriving DecidableEq, Repr

namespace Double

/-- The size of a number, without its sign. -/
inductive Magnitude where
  /-- The value `significand * 2 ^ exponent`. -/
  | finite (significand : Nat) (exponent : Int)
  | infinite
  | notANumber
  deriving DecidableEq, Repr

/-- The weight of the sign bit. -/
def signWeight : Nat := 0x8000000000000000

/-- One step of the exponent field. -/
def exponentWeight : Nat := 0x10000000000000

/-- The bits below the sign of the infinite numbers; every finite magnitude is smaller. -/
def infiniteBits : Nat := 2047 * exponentWeight

/-- True when the sign bit is set, also for a zero. -/
def isNegative (x : Double) : Bool :=
  signWeight ≤ x.bits.toNat

/-- The bits below the sign. -/
def magnitudeBits (x : Double) : Nat :=
  x.bits.toNat % signWeight

/-- What the bits below the sign stand for. -/
def magnitude (x : Double) : Magnitude :=
  let field := x.magnitudeBits / exponentWeight
  let fraction := x.magnitudeBits % exponentWeight
  if field = 2047 then
    if fraction = 0 then .infinite else .notANumber
  else if field = 0 then .finite fraction (-1074)
  else .finite (exponentWeight + fraction) ((field : Int) - 1075)

/-- A number from its sign and the bits below it. -/
def ofMagnitudeBits (negative : Bool) (size : Nat) : Double :=
  ⟨UInt64.ofNat ((if negative then signWeight else 0) + size)⟩

/-- The same size with the given sign. -/
def withSign (negative : Bool) (x : Double) : Double :=
  ofMagnitudeBits negative x.magnitudeBits

def isInfinite (x : Double) : Bool :=
  x.magnitudeBits = infiniteBits

def isNaN (x : Double) : Bool :=
  infiniteBits < x.magnitudeBits

def isZero (x : Double) : Bool :=
  x.magnitudeBits = 0

def zero : Double := ofMagnitudeBits false 0

def infinity : Double := ofMagnitudeBits false infiniteBits

def notANumber : Double := ofMagnitudeBits false (infiniteBits + exponentWeight / 2)

/-- Which neighbour is taken for a value halfway between two. -/
inductive Tie where
  /-- The even one. -/
  | toEven
  /-- The one farther from zero. -/
  | away
  deriving DecidableEq, Repr

/-- The natural number nearest to `numerator / denominator`. -/
def roundRatio (tie : Tie) (numerator denominator : Nat) : Nat :=
  let quotient := numerator / denominator
  let remainder := numerator % denominator
  if 2 * remainder < denominator then quotient
  else if denominator < 2 * remainder then quotient + 1
  else
    match tie with
    | .toEven => quotient + quotient % 2
    | .away => quotient + 1

/-- Multiplies a ratio by `2 ^ power`, keeping both parts natural. -/
def shiftRatio (numerator denominator : Nat) (power : Int) : Nat × Nat :=
  (numerator * Nat.pow 2 power.toNat, denominator * Nat.pow 2 (-power).toNat)

/-- The exponent at which a positive ratio has a significand of 53 bits, or the least exponent
of the format when the ratio is too small for that. -/
def binade (numerator denominator : Nat) : Int :=
  let estimate : Int := (numerator.log2 : Int) - denominator.log2 - 53
  let scaled := shiftRatio numerator denominator (-estimate)
  max (-1074) (if 0x20000000000000 * scaled.2 ≤ scaled.1 then estimate + 1 else estimate)

/-- The number nearest to `numerator / denominator`, with the given sign.  A ratio beyond the
largest finite number becomes infinite.

With the significand `q` rounded at exponent `e`, the bits are `(e + 1074) * 2 ^ 52 + q`: for a
normal number the leading bit of `q` counts one step into the exponent field, and a significand
rounded up to `2 ^ 53` carries into it. -/
def ofRatio (negative : Bool) (numerator denominator : Nat) : Double :=
  if numerator = 0 then ofMagnitudeBits negative 0
  else
    let exponent := binade numerator denominator
    let scaled := shiftRatio numerator denominator (-exponent)
    let size := (exponent + 1074).toNat * exponentWeight + roundRatio .toEven scaled.1 scaled.2
    ofMagnitudeBits negative (min size infiniteBits)

/-- The number nearest to a natural number. -/
def ofNat (value : Nat) : Double :=
  ofRatio false value 1

/-- The product of two finite numbers, signs apart. -/
def mulMagnitude (x y : Double) : Double :=
  match x.magnitude, y.magnitude with
  | .finite left leftExponent, .finite right rightExponent =>
    let ratio := shiftRatio (left * right) 1 (leftExponent + rightExponent)
    ofRatio false ratio.1 ratio.2
  | _, _ => infinity

/-- The quotient of two finite numbers, signs apart, with a divisor that is not zero. -/
def divMagnitude (x y : Double) : Double :=
  match x.magnitude, y.magnitude with
  | .finite left leftExponent, .finite right rightExponent =>
    let ratio := shiftRatio left right (leftExponent - rightExponent)
    ofRatio false ratio.1 ratio.2
  | _, _ => zero

/-- The integer nearest to a finite number, where a half goes away from zero. -/
def roundHalfAway (x : Double) : Int :=
  match x.magnitude with
  | .finite significand exponent =>
    let ratio := shiftRatio significand 1 exponent
    let size : Int := roundRatio .away ratio.1 ratio.2
    if x.isNegative then -size else size
  | _ => 0

end Double

end NodeSteward
