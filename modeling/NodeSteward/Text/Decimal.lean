/-!
# Decimal integers

Numbers are written with the ten ASCII digits and no leading zero, and read back one digit
at a time.  A reader carries the largest magnitude it may return, so that a text can fail in
two ways at the same place: a character that is not a digit is reported before the overflow
that the digits up to it would cause.

The main statements are that a written number reads back as itself whenever it stays below
the limit (`readDigits_digits`), and that nothing but digits is written (`digits_all_isDigit`).
-/

namespace NodeSteward

namespace Decimal

/-- The digit that stands for `value`, which callers keep below ten. -/
def digitChar : Nat → Char
  | 0 => '0'
  | 1 => '1'
  | 2 => '2'
  | 3 => '3'
  | 4 => '4'
  | 5 => '5'
  | 6 => '6'
  | 7 => '7'
  | 8 => '8'
  | _ => '9'

/-- The value of an ASCII digit.  Digits of other scripts have no value here. -/
def digitValue? (c : Char) : Option Nat :=
  if 48 ≤ c.toNat ∧ c.toNat ≤ 57 then some (c.toNat - 48) else none

/-- The digits of `number`, most significant first, with a single `0` for zero. -/
def digits (number : Nat) : List Char :=
  if number < 10 then [digitChar number] else digits (number / 10) ++ [digitChar (number % 10)]
termination_by number

/-- The digits of `number`, filled up with zeros on the left to at least `width` places. -/
def paddedDigits (width number : Nat) : List Char :=
  let written := digits number
  List.replicate (width - written.length) '0' ++ written

/-- A natural number as text. -/
def natText (number : Nat) : String :=
  String.ofList (digits number)

/-- The characters of an integer: a minus sign stands before the digits of a negative one. -/
def intChars (number : Int) : List Char :=
  if number < 0 then '-' :: digits number.natAbs else digits number.natAbs

/-- An integer as text. -/
def intText (number : Int) : String :=
  String.ofList (intChars number)

/-- Why a text is not an integer of the wanted range. -/
inductive Fault where
  /-- There is no character at all. -/
  | empty
  /-- A character is not a digit, or a sign stands alone or where none may stand. -/
  | invalidDigit
  /-- The digits so far already exceed the largest value. -/
  | tooLarge
  /-- The digits so far already fall below the smallest value. -/
  | tooSmall
  deriving DecidableEq, Repr

/-- The wording of each cause. -/
def Fault.message : Fault → String
  | .empty => "cannot parse integer from empty string"
  | .invalidDigit => "invalid digit found in string"
  | .tooLarge => "number too large to fit in target type"
  | .tooSmall => "number too small to fit in target type"

/-- Reads digits into `value`, which may not exceed `limit`.  The first fault from the left is
the one reported, and `overflow` says how an excess is called. -/
def readDigits (limit : Nat) (overflow : Fault) : Nat → List Char → Except Fault Nat
  | value, [] => .ok value
  | value, c :: rest =>
    match digitValue? c with
    | none => .error .invalidDigit
    | some digit =>
      if limit < value * 10 + digit then .error overflow
      else readDigits limit overflow (value * 10 + digit) rest

/-- Reads a natural number of at most `limit`; one plus sign may stand before the digits. -/
def readNat (limit : Nat) : List Char → Except Fault Nat
  | [] => .error .empty
  | ['+'] => .error .invalidDigit
  | '+' :: rest => readDigits limit .tooLarge 0 rest
  | text => readDigits limit .tooLarge 0 text

/-- Reads an integer between `-lowest` and `highest`; one sign may stand before the digits. -/
def readInt (lowest highest : Nat) : List Char → Except Fault Int
  | [] => .error .empty
  | ['+'] => .error .invalidDigit
  | ['-'] => .error .invalidDigit
  | '+' :: rest => (readDigits highest .tooLarge 0 rest).map Int.ofNat
  | '-' :: rest => (readDigits lowest .tooSmall 0 rest).map (fun value => -(value : Int))
  | text => (readDigits highest .tooLarge 0 text).map Int.ofNat

/-- The largest value of a signed word of 64 bits. -/
def maxInt64 : Nat := 0x7fffffffffffffff

/-- The largest value of an unsigned word of 64 bits. -/
def maxUInt64 : Nat := 0xffffffffffffffff

/-- The largest value of an unsigned word of 32 bits. -/
def maxUInt32 : Nat := 0xffffffff

/-- Reads an integer that fits a signed word of 64 bits. -/
def readInt64 (text : String) : Except Fault Int :=
  readInt 0x8000000000000000 maxInt64 text.toList

theorem digitValue?_digitChar {value : Nat} (small : value < 10) :
    digitValue? (digitChar value) = some value := by
  have all : ∀ digit : Fin 10, digitValue? (digitChar digit) = some digit.val := by decide
  exact all ⟨value, small⟩

theorem digits_ne_nil (number : Nat) : digits number ≠ [] := by
  rw [digits]
  split <;> simp

theorem digits_all_isDigit (number : Nat) :
    ∀ c ∈ digits number, ∃ value, value < 10 ∧ c = digitChar value := by
  induction number using Nat.strongRecOn with
  | ind number ih =>
    intro c member
    rw [digits] at member
    split at member
    · exact ⟨number, by assumption, by simpa using member⟩
    · rcases List.mem_append.mp member with earlier | last
      · exact ih (number / 10) (by omega) c earlier
      · exact ⟨number % 10, by omega, by simpa using last⟩

theorem readDigits_append (limit : Nat) (overflow : Fault) (first second : List Char)
    (value : Nat) :
    readDigits limit overflow value (first ++ second) =
      (readDigits limit overflow value first).bind
        (fun reached => readDigits limit overflow reached second) := by
  induction first generalizing value with
  | nil => rfl
  | cons c rest ih =>
    simp only [List.cons_append, readDigits]
    cases digitValue? c with
    | none => rfl
    | some digit =>
      dsimp only
      split
      · rfl
      · exact ih _

theorem readDigits_digits (limit : Nat) (overflow : Fault) {number : Nat}
    (small : number ≤ limit) : readDigits limit overflow 0 (digits number) = .ok number := by
  induction number using Nat.strongRecOn with
  | ind number ih =>
    rw [digits]
    split
    · rename_i below
      simp [readDigits, digitValue?_digitChar below, Nat.not_lt.mpr small]
    · rename_i above
      have earlier : readDigits limit overflow 0 (digits (number / 10)) = .ok (number / 10) :=
        ih (number / 10) (by omega) (by omega)
      have whole : number / 10 * 10 + number % 10 = number := by omega
      rw [readDigits_append, earlier]
      simp [Except.bind, readDigits, digitValue?_digitChar (Nat.mod_lt number (by omega : 0 < 10)),
        whole, Nat.not_lt.mpr small]

end Decimal

end NodeSteward
