import NodeSteward.Text.Decimal

/-!
# Which texts are numbers

A text spells a number if it is one or more ASCII digits with the number as their value; zeros may
stand before it.  Reading accepts just these texts, with a plus sign before the digits or without,
as long as the value stays within the limit.  It gives up at the first digit that leads beyond the
limit, which is no other criterion than the value of the whole, since a value only grows as digits
follow.  Where integers are read, a minus sign may stand before the digits as well.
-/

namespace NodeSteward

namespace Decimal

/-- The text is made of digits, at least one, and has the value. -/
structure Spells (text : List Char) (value : Nat) : Prop where
  ne_nil : text ≠ []
  isDigit : ∀ c ∈ text, c.isDigit = true
  value_eq : Nat.ofDigitChars 10 text 0 = value

/-- The text is a number in digits, before which a plus sign may stand. -/
inductive Numeral : List Char → Nat → Prop
  | unsigned {text : List Char} {value : Nat} (spells : Spells text value) : Numeral text value
  | plus {text : List Char} {value : Nat} (spells : Spells text value) :
    Numeral ('+' :: text) value

/-- The text is a number in digits, before which one sign may stand. -/
inductive SignedNumeral : List Char → Int → Prop
  | unsigned {text : List Char} {value : Nat} (numeral : Numeral text value) :
    SignedNumeral text value
  | minus {text : List Char} {value : Nat} (spells : Spells text value) :
    SignedNumeral ('-' :: text) (-(value : Int))

/-- The number is a signed word of 64 bits. -/
def IsInt64 (number : Int) : Prop :=
  ∃ word : Int64, word.toInt = number

theorem digitValue?_eq_some_iff {c : Char} {digit : Nat} :
    digitValue? c = some digit ↔ c.isDigit = true ∧ c.toNat - '0'.toNat = digit := by
  have range : c.isDigit = true ↔ 48 ≤ c.toNat ∧ c.toNat ≤ 57 := by
    rw [Char.isDigit, Bool.and_eq_true, decide_eq_true_iff, decide_eq_true_iff]
    exact Iff.rfl
  rw [range, digitValue?]
  split
  · rename_i inside
    simp only [Option.some_inj, inside, true_and]
    exact Iff.rfl
  · rename_i outside
    simp only [reduceCtorEq, outside, false_and]

/-- A value only grows as digits follow. -/
theorem le_ofDigitChars (text : List Char) (value : Nat) :
    value ≤ Nat.ofDigitChars 10 text value := by
  induction text generalizing value with
  | nil => exact Nat.le_refl value
  | cons c rest ih =>
    rw [Nat.ofDigitChars_cons]
    exact Nat.le_trans (by omega) (ih _)

theorem readDigits_eq_ok_iff {limit value number : Nat} {overflow : Fault} {text : List Char}
    (start : value ≤ limit) :
    readDigits limit overflow value text = .ok number ↔
      (∀ c ∈ text, c.isDigit = true) ∧ Nat.ofDigitChars 10 text value = number ∧
        number ≤ limit := by
  induction text generalizing value with
  | nil =>
    simp only [readDigits, Except.ok.injEq, List.not_mem_nil, false_implies, implies_true,
      Nat.ofDigitChars_nil, true_and]
    exact ⟨fun same => ⟨same, same ▸ start⟩, And.left⟩
  | cons c rest ih =>
    rw [readDigits, List.forall_mem_cons, Nat.ofDigitChars_cons]
    cases valued : digitValue? c with
    | none =>
      have other : ¬ c.isDigit = true := by
        intro digit
        cases valued.symm.trans (digitValue?_eq_some_iff.mpr ⟨digit, rfl⟩)
      simp [other]
    | some digit =>
      rcases digitValue?_eq_some_iff.mp valued with ⟨isDigit, rfl⟩
      dsimp only
      rw [Nat.mul_comm value 10]
      split
      · rename_i beyond
        constructor
        · intro overflows
          cases overflows
        · rintro ⟨_, rfl, within⟩
          exact absurd (Nat.le_trans (le_ofDigitChars rest _) within) (Nat.not_le_of_lt beyond)
      · rename_i within
        rw [ih (Nat.le_of_not_lt within)]
        simp [isDigit]

theorem readDigits_eq_ok_iff_spells {limit number : Nat} {overflow : Fault} {text : List Char}
    (nonempty : text ≠ []) :
    readDigits limit overflow 0 text = .ok number ↔ Spells text number ∧ number ≤ limit := by
  rw [readDigits_eq_ok_iff (Nat.zero_le limit)]
  constructor
  · rintro ⟨digits, value, within⟩
    exact ⟨⟨nonempty, digits, value⟩, within⟩
  · rintro ⟨⟨_, digits, value⟩, within⟩
    exact ⟨digits, value, within⟩

theorem Spells.not_mem {text : List Char} {value : Nat} {c : Char} (spells : Spells text value)
    (other : c.isDigit = false) : c ∉ text := by
  intro member
  rw [spells.isDigit c member] at other
  cases other

theorem Numeral.not_mem {text : List Char} {value : Nat} {c : Char} (numeral : Numeral text value)
    (other : c.isDigit = false) (unsigned : c ≠ '+') : c ∉ text := by
  cases numeral with
  | unsigned spells => exact spells.not_mem other
  | plus spells => exact List.not_mem_cons_of_ne_of_not_mem unsigned (spells.not_mem other)

theorem SignedNumeral.not_mem {text : List Char} {value : Int} {c : Char}
    (numeral : SignedNumeral text value) (other : c.isDigit = false) (noPlus : c ≠ '+')
    (noMinus : c ≠ '-') : c ∉ text := by
  cases numeral with
  | unsigned numeral => exact numeral.not_mem other noPlus
  | minus spells => exact List.not_mem_cons_of_ne_of_not_mem noMinus (spells.not_mem other)

theorem numeral_plus_iff {text : List Char} {value : Nat} :
    Numeral ('+' :: text) value ↔ Spells text value := by
  constructor
  · rintro (spells | spells)
    · exact absurd List.mem_cons_self (spells.not_mem rfl)
    · exact spells
  · exact .plus

theorem numeral_iff_spells {text : List Char} {value : Nat} (unsigned : text.head? ≠ some '+') :
    Numeral text value ↔ Spells text value := by
  constructor
  · rintro (spells | spells)
    · exact spells
    · exact absurd rfl unsigned
  · exact .unsigned

/-- A text has at most one value. -/
theorem Numeral.value_unique {text : List Char} {first second : Nat}
    (one : Numeral text first) (two : Numeral text second) : first = second := by
  cases one with
  | unsigned one =>
    cases two with
    | unsigned two => exact one.value_eq.symm.trans two.value_eq
    | plus => exact absurd List.mem_cons_self (one.not_mem rfl)
  | plus one => exact one.value_eq.symm.trans (numeral_plus_iff.mp two).value_eq

theorem Numeral.head?_ne_minus {text : List Char} {value : Nat} (numeral : Numeral text value) :
    text.head? ≠ some '-' := by
  intro minus
  exact numeral.not_mem rfl (by decide) (List.mem_of_head? minus)

theorem signedNumeral_minus_iff {text : List Char} {value : Int} :
    SignedNumeral ('-' :: text) value ↔ ∃ size, Spells text size ∧ value = -(size : Int) := by
  constructor
  · rintro (numeral | spells)
    · exact absurd rfl numeral.head?_ne_minus
    · exact ⟨_, spells, rfl⟩
  · rintro ⟨size, spells, rfl⟩
    exact .minus spells

theorem signedNumeral_iff_numeral {text : List Char} {value : Int}
    (unsigned : text.head? ≠ some '-') :
    SignedNumeral text value ↔ ∃ size, Numeral text size ∧ value = (size : Int) := by
  constructor
  · rintro (numeral | spells)
    · exact ⟨_, numeral, rfl⟩
    · exact absurd rfl unsigned
  · rintro ⟨size, numeral, rfl⟩
    exact .unsigned numeral

/-- A text has at most one value, with a sign before it or without. -/
theorem SignedNumeral.value_unique {text : List Char} {first second : Int}
    (one : SignedNumeral text first) (two : SignedNumeral text second) : first = second := by
  cases one with
  | unsigned one =>
    rcases (signedNumeral_iff_numeral one.head?_ne_minus).mp two with ⟨size, spelled, rfl⟩
    rw [one.value_unique spelled]
  | minus one =>
    rcases signedNumeral_minus_iff.mp two with ⟨size, spelled, rfl⟩
    rw [← one.value_eq, spelled.value_eq]

/-- Reading accepts the numbers up to the limit. -/
theorem readNat_eq_ok_iff {limit number : Nat} {text : List Char} :
    readNat limit text = .ok number ↔ Numeral text number ∧ number ≤ limit := by
  unfold readNat
  split
  · have empty : ¬ Numeral [] number := by
      rintro (spells | spells)
      exact spells.ne_nil rfl
    simp [empty]
  · have alone : ¬ Numeral ['+'] number := fun numeral => (numeral_plus_iff.mp numeral).ne_nil rfl
    simp [alone]
  · rename_i rest notAlone
    rw [numeral_plus_iff]
    exact readDigits_eq_ok_iff_spells (by simpa using notAlone)
  · rename_i notEmpty notAlone unsigned
    have head : text.head? ≠ some '+' := by
      intro plus
      rcases List.head?_eq_some_iff.mp plus with ⟨rest, rfl⟩
      exact unsigned rest rfl
    rw [numeral_iff_spells head]
    exact readDigits_eq_ok_iff_spells notEmpty

theorem map_eq_ok_iff {α β ε : Type} {f : α → β} {result : Except ε α} {value : β} :
    result.map f = .ok value ↔ ∃ held, result = .ok held ∧ f held = value := by
  cases result <;> simp [Except.map]

/-- Before a text without a minus sign there is no more to read than a natural number. -/
theorem readInt_of_head?_ne_minus {lowest highest : Nat} {text : List Char}
    (unsigned : text.head? ≠ some '-') :
    readInt lowest highest text = (readNat highest text).map Int.ofNat := by
  unfold readInt
  split
  · rfl
  · rfl
  · exact absurd rfl unsigned
  · rename_i rest notAlone
    rw [readNat]
    simpa using notAlone
  · exact absurd rfl unsigned
  · rename_i notEmpty notPlus _ noPlus _
    rw [readNat]
    · exact notEmpty
    · exact notPlus
    · exact noPlus

theorem readInt_minus {lowest highest : Nat} {rest : List Char} (digits : rest ≠ []) :
    readInt lowest highest ('-' :: rest) =
      Except.map (fun value : Nat => -(value : Int)) (readDigits lowest .tooSmall 0 rest) := by
  rw [readInt]
  · cases readDigits lowest .tooSmall 0 rest <;> rfl
  · simpa using digits

/-- Reading accepts the numbers between the limits. -/
theorem readInt_eq_ok_iff {lowest highest : Nat} {text : List Char} {number : Int} :
    readInt lowest highest text = .ok number ↔
      SignedNumeral text number ∧ -(lowest : Int) ≤ number ∧ number ≤ highest := by
  by_cases signed : text.head? = some '-'
  · rcases List.head?_eq_some_iff.mp signed with ⟨rest, rfl⟩
    rw [signedNumeral_minus_iff]
    by_cases digits : rest = []
    · subst digits
      have empty : ∀ size, ¬ Spells [] size := fun size spells => spells.ne_nil rfl
      simp [readInt, empty]
    · rw [readInt_minus digits, map_eq_ok_iff]
      simp only [readDigits_eq_ok_iff_spells digits]
      constructor
      · rintro ⟨size, ⟨spells, within⟩, rfl⟩
        exact ⟨⟨size, spells, rfl⟩, by omega, by omega⟩
      · rintro ⟨⟨size, spells, rfl⟩, within, _⟩
        exact ⟨size, ⟨spells, by omega⟩, rfl⟩
  · rw [readInt_of_head?_ne_minus signed, signedNumeral_iff_numeral signed, map_eq_ok_iff]
    simp only [readNat_eq_ok_iff, Int.ofNat_eq_natCast]
    constructor
    · rintro ⟨size, ⟨numeral, within⟩, rfl⟩
      exact ⟨⟨size, numeral, rfl⟩, by omega, by omega⟩
    · rintro ⟨⟨size, numeral, rfl⟩, _, within⟩
      exact ⟨size, ⟨numeral, by omega⟩, rfl⟩

theorem isInt64_iff {number : Int} :
    IsInt64 number ↔ -(0x8000000000000000 : Nat) ≤ number ∧ number ≤ maxInt64 := by
  constructor
  · rintro ⟨word, same⟩
    have lowest := word.le_toInt
    have highest := word.toInt_lt
    rw [maxInt64, ← same]
    omega
  · rintro ⟨lowest, highest⟩
    rw [maxInt64] at highest
    exact ⟨Int64.ofInt number, Int64.toInt_ofInt_of_le (by omega) (by omega)⟩

/-- A text that starts with neither a digit nor a sign is refused for its first character. -/
theorem readInt_of_other {lowest highest : Nat} {c : Char} {rest : List Char}
    (noDigit : c.isDigit = false) (noPlus : c ≠ '+') (noMinus : c ≠ '-') :
    readInt lowest highest (c :: rest) = .error .invalidDigit := by
  have worthless : digitValue? c = none := by
    rw [Option.eq_none_iff_forall_not_mem]
    intro digit valued
    rw [(digitValue?_eq_some_iff.mp valued).1] at noDigit
    cases noDigit
  rw [readInt, readDigits, worthless]
  · rfl
  all_goals simp [noPlus, noMinus]

theorem digits_eq_toDigits (number : Nat) : digits number = Nat.toDigits 10 number := by
  induction number using Nat.strongRecOn with
  | ind number ih =>
    have same : ∀ digit : Fin 10, digitChar digit = Nat.digitChar digit := by decide
    rw [digits, Nat.toDigits_eq_if (by decide)]
    split
    · rename_i small
      rw [same ⟨number, small⟩]
    · rw [ih (number / 10) (by omega), same ⟨number % 10, Nat.mod_lt number (by decide)⟩]

/-- What is written for a number spells it. -/
theorem spells_digits (number : Nat) : Spells (digits number) number :=
  ((readDigits_eq_ok_iff_spells (digits_ne_nil number)).mp
    (readDigits_digits number .tooLarge (Nat.le_refl number))).1

theorem signedNumeral_intChars (number : Int) : SignedNumeral (intChars number) number := by
  rw [intChars]
  split
  · have whole : -(number.natAbs : Int) = number := by omega
    have spelled := SignedNumeral.minus (spells_digits number.natAbs)
    rwa [whole] at spelled
  · have whole : (number.natAbs : Int) = number := by omega
    have spelled := SignedNumeral.unsigned (.unsigned (spells_digits number.natAbs))
    rwa [whole] at spelled

theorem intChars_inj {first second : Int} : intChars first = intChars second ↔ first = second :=
  ⟨fun same => (signedNumeral_intChars first).value_unique (same ▸ signedNumeral_intChars second),
    congrArg intChars⟩

theorem intChars_natCast (number : Nat) : intChars number = digits number := by
  rw [intChars, if_neg (by omega), Int.natAbs_natCast]

end Decimal

end NodeSteward
