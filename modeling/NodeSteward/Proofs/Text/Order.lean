import Mathlib.Algebra.Group.Nat.Defs
import Mathlib.Data.Int.Order.Basic
import Mathlib.Data.Nat.Init
import Mathlib.Order.Compare
import NodeSteward.Text.Decimal

/-!
# The order of written numbers

Numbers that are written with the same number of digits are ordered as their texts are, byte by
byte.  The same holds of several numbers side by side, as long as each has its own places: the one
in front decides, and only if it is the same does the next one count.  A row of such fields is again
a number, of which each field is some digits.
-/

namespace NodeSteward

namespace Text

/-- The bytes of a text. -/
def bytes (text : String) : List UInt8 :=
  text.toUTF8.data.toList

theorem compare_bytes_eq_iff {one two : String} :
    compare (bytes one) (bytes two) = .eq ↔ one = two := by
  rw [Std.LawfulEqCmp.compare_eq_iff_eq, bytes, bytes, Array.toList_inj, ByteArray.ext_iff.symm]
  exact String.toByteArray_inj

theorem bytes_ofList {chars : List Char} (ascii : ∀ c ∈ chars, c.toNat < 128) :
    bytes (String.ofList chars) = chars.map Char.toUInt8 := by
  rw [bytes, String.toUTF8_eq_toByteArray, String.toByteArray_ofList]
  induction chars with
  | nil => simp
  | cons c chars ih =>
    rw [List.forall_mem_cons] at ascii
    have small : c.utf8Size = 1 := by
      rw [Char.utf8Size_eq_one_iff, UInt32.le_iff_toNat_le]
      exact Nat.le_of_lt_succ ascii.1
    rw [List.utf8Encode_cons, ByteArray.toList_data_append, List.utf8Encode_singleton,
      List.toList_data_toByteArray, String.utf8EncodeChar_eq_singleton small, ih ascii.2]
    rfl

end Text

section

variable {α : Type} [Ord α]

theorem compare_append {first second front back : List α} (same : first.length = front.length) :
    compare (first ++ second) (front ++ back) =
      (compare first front).then (compare second back) := by
  induction first generalizing front with
  | nil =>
    have empty : front = [] := List.length_eq_zero_iff.mp same.symm
    simp [empty]
  | cons x first ih =>
    cases front with
    | nil => cases same
    | cons y front =>
      rw [List.cons_append, List.cons_append, List.compare_cons_cons, List.compare_cons_cons,
        ih (Nat.succ.inj same), Ordering.then_assoc]

end

theorem compare_congr {first second third fourth : Int} (less : first < second ↔ third < fourth)
    (greater : second < first ↔ fourth < third) :
    compare first second = compare third fourth := by
  rcases lt_trichotomy first second with below | same | above
  · rw [compare_lt_iff_lt.mpr below, compare_lt_iff_lt.mpr (less.mp below)]
  · have equal : third = fourth := by omega
    rw [compare_eq_iff_eq.mpr same, compare_eq_iff_eq.mpr equal]
  · rw [compare_gt_iff_gt.mpr above, compare_gt_iff_gt.mpr (greater.mp above)]

variable {radix upper lower otherUpper otherLower : Int}

/-- A larger upper part is not outweighed by any lower part. -/
theorem radix_lt (fits : lower < radix) (otherLow : 0 ≤ otherLower) (less : upper < otherUpper)
    (low : 0 ≤ lower) : upper * radix + lower < otherUpper * radix + otherLower := by
  have step : (upper + 1) * radix ≤ otherUpper * radix :=
    Int.mul_le_mul_of_nonneg_right less (Int.le_of_lt (Int.lt_of_le_of_lt low fits))
  rw [Int.add_mul, Int.one_mul] at step
  omega

/-- The upper part of a number decides, and after it the lower part. -/
theorem compare_radix (low : 0 ≤ lower) (fits : lower < radix) (otherLow : 0 ≤ otherLower)
    (otherFits : otherLower < radix) :
    compare (upper * radix + lower) (otherUpper * radix + otherLower) =
      (compare upper otherUpper).then (compare lower otherLower) := by
  rcases lt_trichotomy upper otherUpper with less | same | greater
  · rw [compare_lt_iff_lt.mpr less, compare_lt_iff_lt.mpr (radix_lt fits otherLow less low)]
    rfl
  · rw [same, compare_eq_iff_eq.mpr (rfl : otherUpper = otherUpper)]
    apply compare_congr <;> omega
  · rw [compare_gt_iff_gt.mpr greater,
      compare_gt_iff_gt.mpr (radix_lt otherFits low greater otherLow)]
    rfl

/-- Two texts of the same length are ordered by their bytes as two numbers are. -/
structure OrderedAs (first second : List Char) (one two : Int) : Prop where
  length_eq : first.length = second.length
  compare_eq : compare (first.map Char.toUInt8) (second.map Char.toUInt8) = compare one two

namespace OrderedAs

variable {first second front back : List Char} {one two : Int}

/-- What both texts have in front does not count. -/
theorem prepend (ordered : OrderedAs first second one two) (separator : List Char) :
    OrderedAs (separator ++ first) (separator ++ second) one two := by
  constructor
  · rw [List.length_append, List.length_append, ordered.length_eq]
  · have same : compare (separator.map Char.toUInt8) (separator.map Char.toUInt8) = .eq :=
      Std.ReflCmp.compare_self
    rw [List.map_append, List.map_append, compare_append rfl, same, Ordering.eq_then,
      ordered.compare_eq]

/-- Behind one field stands another, which has its own places in the numbers. -/
theorem append {radix lower otherLower : Nat} (upperAs : OrderedAs first second upper otherUpper)
    (lowerAs : OrderedAs front back lower otherLower) (fits : lower < radix)
    (otherFits : otherLower < radix) :
    OrderedAs (first ++ front) (second ++ back) (upper * radix + lower)
      (otherUpper * radix + otherLower) := by
  constructor
  · rw [List.length_append, List.length_append, upperAs.length_eq, lowerAs.length_eq]
  · have same : (first.map Char.toUInt8).length = (second.map Char.toUInt8).length := by
      simp [upperAs.length_eq]
    rw [List.map_append, List.map_append, compare_append same, upperAs.compare_eq,
      lowerAs.compare_eq, compare_radix (by omega) (by omega) (by omega) (by omega)]

end OrderedAs

namespace Decimal

/-- One place more is one digit behind the others. -/
theorem paddedDigits_succ {width : Nat} (wide : 1 ≤ width) (number : Nat) :
    paddedDigits (width + 1) number =
      paddedDigits width (number / 10) ++ [digitChar (number % 10)] := by
  unfold paddedDigits
  by_cases single : number < 10
  · have zero : digits (number / 10) = ['0'] := by
      rw [Nat.div_eq_of_lt single, digits]
      rfl
    have padding : List.replicate width '0' = List.replicate (width - 1) '0' ++ ['0'] := by
      rw [← List.replicate_succ', Nat.sub_add_cancel wide]
    rw [zero, digits, if_pos single, Nat.mod_eq_of_lt single]
    simp [padding]
  · have written := digits.eq_def number
    rw [if_neg single] at written
    simp [written]

theorem orderedAs_digitChar {one two : Nat} (small : one < 10) (otherSmall : two < 10) :
    OrderedAs [digitChar one] [digitChar two] one two := by
  have all : ∀ one two : Fin 10, compare [(digitChar one).toUInt8] [(digitChar two).toUInt8] =
      compare (one.val : Int) (two.val : Int) := by decide
  exact ⟨rfl, all ⟨one, small⟩ ⟨two, otherSmall⟩⟩

/-- With enough places for both, numbers are ordered as their digits are. -/
theorem orderedAs_paddedDigits {width one two : Nat} (wide : 1 ≤ width) (fits : one < 10 ^ width)
    (otherFits : two < 10 ^ width) :
    OrderedAs (paddedDigits width one) (paddedDigits width two) one two := by
  induction width, wide using Nat.le_induction generalizing one two with
  | base =>
    have alone : ∀ number, number < 10 → paddedDigits 1 number = [digitChar number] := by
      intro number small
      rw [paddedDigits, digits, if_pos small]
      rfl
    rw [alone one fits, alone two otherFits]
    exact orderedAs_digitChar fits otherFits
  | succ width wide ih =>
    have front : OrderedAs (paddedDigits width (one / 10)) (paddedDigits width (two / 10))
        (one / 10 : Nat) (two / 10 : Nat) := ih (by omega) (by omega)
    have last := orderedAs_digitChar (Nat.mod_lt one (by decide)) (Nat.mod_lt two (by decide))
    have ordered := front.append last (Nat.mod_lt one (by decide)) (Nat.mod_lt two (by decide))
    have whole : ∀ number : Nat,
        ((number / 10 : Nat) : Int) * (10 : Nat) + (number % 10 : Nat) = number := by omega
    rwa [whole, whole, ← paddedDigits_succ wide, ← paddedDigits_succ wide] at ordered

theorem isDigit_of_mem_paddedDigits {width number : Nat} {c : Char}
    (member : c ∈ paddedDigits width number) : ∃ value, value < 10 ∧ c = digitChar value := by
  rcases List.mem_append.mp member with padding | written
  · exact ⟨0, by decide, (List.mem_replicate.mp padding).2⟩
  · exact digits_all_isDigit number c written

end Decimal

/-- Behind one field stand the digits of another, after what separates them in both texts. -/
theorem OrderedAs.field {first second : List Char} {width one two : Nat}
    (front : OrderedAs first second upper otherUpper) (separator : List Char) (wide : 1 ≤ width)
    (fits : one < 10 ^ width) (otherFits : two < 10 ^ width) :
    OrderedAs (first ++ (separator ++ Decimal.paddedDigits width one))
      (second ++ (separator ++ Decimal.paddedDigits width two))
      (upper * (10 ^ width : Nat) + one) (otherUpper * (10 ^ width : Nat) + two) :=
  front.append ((Decimal.orderedAs_paddedDigits wide fits otherFits).prepend separator) fits
    otherFits

end NodeSteward
