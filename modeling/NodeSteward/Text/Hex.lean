/-!
# Hexadecimal text

Bytes are shown with two lower-case digits each.  `read?_encode` says that the digits
determine the bytes.
-/

namespace NodeSteward

namespace Hex

/-- The lower-case digit that stands for `value`, which callers keep below sixteen. -/
def digitChar : Nat → Char
  | 10 => 'a'
  | 11 => 'b'
  | 12 => 'c'
  | 13 => 'd'
  | 14 => 'e'
  | 15 => 'f'
  | value => Char.ofNat (48 + value)

/-- The value of a digit of either case. -/
def digitValue? (c : Char) : Option Nat :=
  let code := c.toNat
  if 48 ≤ code ∧ code ≤ 57 then some (code - 48)
  else if 97 ≤ code ∧ code ≤ 102 then some (code - 87)
  else if 65 ≤ code ∧ code ≤ 70 then some (code - 55)
  else none

/-- The digits of `number`, most significant first, without leading zeros. -/
def digits (number : Nat) : List Char :=
  if number < 16 then [digitChar number] else digits (number / 16) ++ [digitChar (number % 16)]
termination_by number

/-- Two digits for each byte, high half first. -/
def encode (bytes : List UInt8) : List Char :=
  bytes.flatMap (fun byte => [digitChar (byte.toNat / 16), digitChar (byte.toNat % 16)])

/-- Reads two digits for each byte. -/
def read? : List Char → Option (List UInt8)
  | [] => some []
  | [_] => none
  | high :: low :: rest => do
    let upper ← digitValue? high
    let lower ← digitValue? low
    let bytes ← read? rest
    return UInt8.ofNat (upper * 16 + lower) :: bytes

theorem digitValue?_digitChar {value : Nat} (small : value < 16) :
    digitValue? (digitChar value) = some value := by
  have all : ∀ digit : Fin 16, digitValue? (digitChar digit) = some digit.val := by decide
  exact all ⟨value, small⟩

theorem read?_encode (bytes : List UInt8) : read? (encode bytes) = some bytes := by
  induction bytes with
  | nil => rfl
  | cons byte rest ih =>
    have bound : byte.toNat < 256 := byte.toNat_lt
    have split : byte.toNat / 16 * 16 + byte.toNat % 16 = byte.toNat := by omega
    have whole : UInt8.ofNat (byte.toNat / 16 * 16 + byte.toNat % 16) = byte := by
      rw [split]
      exact UInt8.ofNat_toNat
    have step : encode (byte :: rest) =
        digitChar (byte.toNat / 16) :: digitChar (byte.toNat % 16) :: encode rest := by
      simp [encode]
    rw [step, read?, digitValue?_digitChar (by omega), digitValue?_digitChar (by omega)]
    show ((read? (encode rest)).bind fun bytes =>
      some (UInt8.ofNat (byte.toNat / 16 * 16 + byte.toNat % 16) :: bytes)) = some (byte :: rest)
    rw [ih, Option.bind_some, whole]

end Hex

end NodeSteward
