import NodeSteward.Channel.ShortChannelId
import NodeSteward.Proofs.Text.Numerals

/-!
# Which texts are short channel identifiers

A text spells a short channel identifier if it is three numbers with an `x` between them, each of
which fits its part.  A part may be too large in two ways.  If it exceeds a word of 64 bits it
cannot be read at all, so that the text counts as malformed; if it can be read, it is named as
being out of range.

Numbers have no `x` in them.  So a text can be split into three of them in one way only, and the
text that is written for an identifier is read as that identifier.
-/

namespace NodeSteward

namespace ShortChannelId

open Decimal (Numeral)

/-- The text is three numbers with an `x` between them. -/
inductive Spells (text : String) (block tx output : Nat) : Prop
  | parts {first second third : List Char}
    (text_eq : text.toList = first ++ 'x' :: (second ++ 'x' :: third))
    (block_eq : Numeral first block) (tx_eq : Numeral second tx)
    (output_eq : Numeral third output)

/-- Each of the three numbers fits a word of 64 bits. -/
def Words (block tx output : Nat) : Prop :=
  block < UInt64.size ∧ tx < UInt64.size ∧ output < UInt64.size

/-- The text is three numbers that can be read. -/
def Readable (text : String) : Prop :=
  ∃ block tx output, Spells text block tx output ∧ Words block tx output

/-- The parts of the identifier are spelled out. -/
def SpelledBy (id : ShortChannelId) (text : String) : Prop :=
  Spells text id.blockHeight.val id.txIndex.val id.outputIndex.val

/-- A number that does not fit its part, and the name of the part. -/
inductive Exceeds (block tx output : Nat) : String → Nat → Prop
  | block (large : 0x1000000 ≤ block) : Exceeds block tx output "block height" block
  | tx (large : 0x1000000 ≤ tx) : Exceeds block tx output "tx index" tx
  | output (large : 0x10000 ≤ output) : Exceeds block tx output "output index" output

/-- The text is three numbers that can be read, and the named one does not fit its part. -/
def OutOfRange (text field : String) (value : Nat) : Prop :=
  ∃ block tx output, Spells text block tx output ∧ Words block tx output ∧
    Exceeds block tx output field value

theorem splitParts_eq_splitOn (text : List Char) : splitParts text = text.splitOn 'x' := by
  induction text with
  | nil => rfl
  | cons c rest ih =>
    rw [splitParts, List.splitOn_cons_eq_if_modifyHead, ih]
    simp only [beq_iff_eq]
    split
    · rfl
    · cases parts : rest.splitOn 'x' with
      | nil => exact absurd parts (List.splitOn_ne_nil 'x' rest)
      | cons first others => rfl

theorem eq_of_splitParts {text first second third : List Char}
    (split : splitParts text = [first, second, third]) :
    text = first ++ 'x' :: (second ++ 'x' :: third) := by
  rw [splitParts_eq_splitOn] at split
  have joined : ['x'].intercalate (text.splitOn 'x') = text := List.intercalate_splitOn 'x'
  rw [split] at joined
  rw [← joined]
  simp

theorem splitParts_of_not_mem {first second third : List Char} (one : 'x' ∉ first)
    (two : 'x' ∉ second) (three : 'x' ∉ third) :
    splitParts (first ++ 'x' :: (second ++ 'x' :: third)) = [first, second, third] := by
  have apart : ∀ part ∈ [first, second, third], 'x' ∉ part := by simp [one, two, three]
  have joined : ['x'].intercalate [first, second, third] =
      first ++ 'x' :: (second ++ 'x' :: third) := by simp
  rw [splitParts_eq_splitOn, ← joined]
  exact List.splitOn_intercalate 'x' apart (List.cons_ne_nil _ _)

variable {text : String} {block tx output : Nat}

/-- The only parts of a text that spells three numbers are their texts. -/
theorem Spells.numerals (spells : Spells text block tx output) :
    ∃ first second third, splitParts text.toList = [first, second, third] ∧
      Numeral first block ∧ Numeral second tx ∧ Numeral third output := by
  rcases spells with ⟨text_eq, one, two, three⟩
  refine ⟨_, _, _, ?_, one, two, three⟩
  rw [text_eq]
  exact splitParts_of_not_mem (one.not_mem rfl (by decide)) (two.not_mem rfl (by decide))
    (three.not_mem rfl (by decide))

theorem Spells.unique {otherBlock otherTx otherOutput : Nat}
    (spells : Spells text block tx output) (again : Spells text otherBlock otherTx otherOutput) :
    block = otherBlock ∧ tx = otherTx ∧ output = otherOutput := by
  rcases spells.numerals with ⟨_, _, _, split, one, two, three⟩
  rcases again.numerals with ⟨_, _, _, same, one', two', three'⟩
  rw [split] at same
  cases same
  exact ⟨one.value_unique one', two.value_unique two', three.value_unique three'⟩

/-- What a text is read as. -/
inductive Parses (text : String) : Except ShortChannelIdError ShortChannelId → Prop
  | read {id : ShortChannelId} (spelled : id.SpelledBy text) : Parses text (.ok id)
  | malformed (unreadable : ¬ Readable text) : Parses text (.error (.malformed text))
  | outOfRange {field : String} {value : Nat} (out : OutOfRange text field value) :
    Parses text (.error (.outOfRange field value))

theorem readNat_word_iff {part : List Char} {value : Nat} :
    Decimal.readNat Decimal.maxUInt64 part = .ok value ↔
      Numeral part value ∧ value < UInt64.size := by
  rw [Decimal.readNat_eq_ok_iff, ← Nat.lt_succ_iff]
  exact Iff.rfl

/-- A text is malformed unless it has three parts that can be read. -/
theorem not_readable_of_parts {first second third : List Char}
    (split : splitParts text.toList = [first, second, third])
    (unread : ¬ ∃ block tx output, Decimal.readNat Decimal.maxUInt64 first = .ok block ∧
      Decimal.readNat Decimal.maxUInt64 second = .ok tx ∧
      Decimal.readNat Decimal.maxUInt64 third = .ok output) : ¬ Readable text := by
  rintro ⟨block, tx, output, spells, fitsBlock, fitsTx, fitsOutput⟩
  rcases spells.numerals with ⟨_, _, _, same, one, two, three⟩
  rw [split] at same
  cases same
  exact unread ⟨block, tx, output, readNat_word_iff.mpr ⟨one, fitsBlock⟩,
    readNat_word_iff.mpr ⟨two, fitsTx⟩, readNat_word_iff.mpr ⟨three, fitsOutput⟩⟩

theorem parses_ofText (text : String) : Parses text (ofText text) := by
  have whole : String.ofList text.toList = text := String.ofList_toList
  rw [ofText, ofChars]
  split
  · rename_i first second third split
    split
    · rename_i block tx output one two three
      rcases readNat_word_iff.mp one with ⟨one, fitsBlock⟩
      rcases readNat_word_iff.mp two with ⟨two, fitsTx⟩
      rcases readNat_word_iff.mp three with ⟨three, fitsOutput⟩
      have spells : Spells text block tx output := .parts (eq_of_splitParts split) one two three
      have words : Words block tx output := ⟨fitsBlock, fitsTx, fitsOutput⟩
      have exceeds : ∀ {field value}, Exceeds block tx output field value →
          Parses text (.error (.outOfRange field value)) :=
        fun out => .outOfRange ⟨block, tx, output, spells, words, out⟩
      split
      · exact exceeds (.block (by omega))
      · split
        · exact exceeds (.tx (by omega))
        · split
          · unfold ofParts
            split
            · split
              · exact .read spells
              · exact exceeds (.tx (by omega))
            · exact exceeds (.block (by omega))
          · exact exceeds (.output (by omega))
    · rename_i unread
      rw [whole]
      refine .malformed (not_readable_of_parts split ?_)
      rintro ⟨block, tx, output, one, two, three⟩
      exact unread block tx output one two three
  · rename_i other
    rw [whole]
    refine .malformed ?_
    rintro ⟨block, tx, output, spells, _⟩
    rcases spells.numerals with ⟨first, second, third, split, _⟩
    exact other first second third split

theorem SpelledBy.readable {id : ShortChannelId} (spelled : id.SpelledBy text) :
    Readable text := by
  have block : id.blockHeight.val < UInt64.size := Nat.lt_trans id.blockHeight.isLt (by decide)
  have tx : id.txIndex.val < UInt64.size := Nat.lt_trans id.txIndex.isLt (by decide)
  have output : id.outputIndex.val < UInt64.size := Nat.lt_trans id.outputIndex.isLt (by decide)
  exact ⟨_, _, _, spelled, block, tx, output⟩

/-- A text spells at most one identifier. -/
theorem SpelledBy.unique {id other : ShortChannelId} (spelled : id.SpelledBy text)
    (again : other.SpelledBy text) : id = other := by
  rcases Spells.unique spelled again with ⟨sameBlock, sameTx, sameOutput⟩
  cases id
  cases other
  rw [mk.injEq]
  exact ⟨Fin.ext sameBlock, Fin.ext sameTx, Fin.ext sameOutput⟩

section

variable {field : String} {value : Nat}

theorem OutOfRange.readable (out : OutOfRange text field value) : Readable text := by
  rcases out with ⟨block, tx, output, spells, words, _⟩
  exact ⟨block, tx, output, spells, words⟩

theorem OutOfRange.not_spelledBy (out : OutOfRange text field value) (id : ShortChannelId) :
    ¬ id.SpelledBy text := by
  intro spelled
  rcases out with ⟨block, tx, output, spells, _, exceeds⟩
  rcases spells.unique spelled with ⟨rfl, rfl, rfl⟩
  cases exceeds with
  | block large => exact absurd id.blockHeight.isLt (Nat.not_lt_of_le large)
  | tx large => exact absurd id.txIndex.isLt (Nat.not_lt_of_le large)
  | output large => exact absurd id.outputIndex.isLt (Nat.not_lt_of_le large)

end

theorem ofText_eq_ok_iff {id : ShortChannelId} : ofText text = .ok id ↔ id.SpelledBy text := by
  have parses := parses_ofText text
  constructor
  · intro read
    rw [read] at parses
    cases parses with
    | read spelled => exact spelled
  · intro spelled
    cases result : ofText text with
    | ok other =>
      rw [result] at parses
      cases parses with
      | read again => rw [again.unique spelled]
    | error cause =>
      rw [result] at parses
      cases parses with
      | malformed unreadable => exact absurd spelled.readable unreadable
      | outOfRange out => exact absurd spelled (out.not_spelledBy id)

theorem ofText_eq_malformed_iff {input : String} :
    ofText text = .error (.malformed input) ↔ input = text ∧ ¬ Readable text := by
  have parses := parses_ofText text
  constructor
  · intro refused
    rw [refused] at parses
    cases parses with
    | malformed unreadable => exact ⟨rfl, unreadable⟩
  · rintro ⟨rfl, unreadable⟩
    generalize ofText input = result at parses
    cases parses with
    | read spelled => exact absurd spelled.readable unreadable
    | malformed => rfl
    | outOfRange out => exact absurd out.readable unreadable

theorem exists_ofText_eq_outOfRange_iff :
    (∃ field value, ofText text = .error (.outOfRange field value) ∧
      OutOfRange text field value) ↔
        Readable text ∧ ∀ id : ShortChannelId, ¬ id.SpelledBy text := by
  have parses := parses_ofText text
  constructor
  · rintro ⟨field, value, _, out⟩
    exact ⟨out.readable, out.not_spelledBy⟩
  · rintro ⟨readable, unspelled⟩
    generalize ofText text = result at parses
    cases parses with
    | read spelled => exact absurd spelled (unspelled _)
    | malformed unreadable => exact absurd readable unreadable
    | outOfRange out => exact ⟨_, _, rfl, out⟩

theorem spelledBy_text (id : ShortChannelId) : id.SpelledBy id.text := by
  refine .parts ?_ (.unsigned (Decimal.spells_digits _)) (.unsigned (Decimal.spells_digits _))
    (.unsigned (Decimal.spells_digits _))
  rw [text, String.toList_ofList, chars, List.append_assoc, List.cons_append]

/-- A text is read as an identifier just if it spells its parts, and is malformed just if it is not
three numbers of 64 bits; otherwise a number is named that does not fit its part.  The text that is
written for an identifier is read as that identifier. -/
theorem ofText_exact :
    (∀ text,
      (∀ id, ofText text = .ok id ↔ id.SpelledBy text) ∧
      (∀ input, ofText text = .error (.malformed input) ↔ input = text ∧ ¬ Readable text) ∧
      ((∃ field value, ofText text = .error (.outOfRange field value) ∧
        OutOfRange text field value) ↔
          Readable text ∧ ∀ id : ShortChannelId, ¬ id.SpelledBy text)) ∧
    ∀ id : ShortChannelId, ofText id.text = .ok id := by
  constructor
  · intro text
    exact ⟨fun _ => ofText_eq_ok_iff, fun _ => ofText_eq_malformed_iff,
      exists_ofText_eq_outOfRange_iff⟩
  · intro id
    exact ofText_eq_ok_iff.mpr (spelledBy_text id)

/-- Plus signs and zeros before a number do not matter. -/
example : ofText "+505580x001917x1" = .ok ⟨505580, 1917, 1⟩ := by
  cbv

end ShortChannelId

end NodeSteward
