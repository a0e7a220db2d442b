import Mathlib.Data.List.Basic
import NodeSteward.Id
import NodeSteward.Proofs.Text.Numerals

/-!
# Which texts are identifiers

A text is an identifier of a kind if it is a number of a signed word of 64 bits, with a sign or
without one, and with the tag of the kind before it or without.

Some tags begin with other tags.  Still no text can be taken for an identifier of another kind: the
underscore behind a tag is the first one of the text, so that it tells where the tag ends.  A number
has no underscore at all.
-/

namespace NodeSteward

namespace IdKind

variable {kind other : IdKind}

theorem underscore_not_mem_tag (kind : IdKind) : '_' ∉ kind.tag.toList := by
  cases kind <;> decide

theorem eq_of_tag_eq (same : kind.tag = other.tag) : kind = other := by
  cases kind <;> cases other <;> first | rfl | exact absurd same (by decide)

/-- A tag starts with a letter, as no number does. -/
theorem exists_tag_eq_cons (kind : IdKind) :
    ∃ c rest, kind.tag.toList = c :: rest ∧ c.isDigit = false ∧ c ≠ '+' ∧ c ≠ '-' := by
  cases kind <;> exact ⟨_, _, rfl, by decide⟩

end IdKind

namespace Id

open Decimal (IsInt64 SignedNumeral)

variable {kind : IdKind}

/-- The text is a number, before which the tag of the kind may stand with an underscore. -/
inductive Spells (kind : IdKind) (text : String) (raw : Int) : Prop
  | bare (numeral : SignedNumeral text.toList raw)
  | tagged {number : List Char} (text_eq : text.toList = kind.tag.toList ++ '_' :: number)
    (numeral : SignedNumeral number raw)

theorem afterFront?_eq_some_iff {front input rest : List Char} :
    afterFront? front input = some rest ↔ input = front ++ rest := by
  induction front generalizing input with
  | nil => simp [afterFront?]
  | cons c front ih =>
    cases input with
    | nil => simp [afterFront?]
    | cons first input =>
      rw [afterFront?]
      split
      · rename_i same
        rw [ih, same, List.cons_append, List.cons.injEq]
        simp
      · rename_i different
        simp [different]

theorem mark_append (kind : IdKind) (number : List Char) :
    mark kind ++ number = kind.tag.toList ++ '_' :: number := by
  simp [mark]

/-- Behind its tag, an identifier is a number. -/
theorem spells_iff_of_tagged {text : String} {number : List Char} {raw : Int}
    (tagged : text.toList = mark kind ++ number) :
    Spells kind text raw ↔ SignedNumeral number raw := by
  rw [mark_append] at tagged
  constructor
  · rintro (numeral | ⟨same, numeral⟩)
    · apply absurd _ (numeral.not_mem (c := '_') rfl (by decide) (by decide))
      simp [tagged]
    · rw [tagged, List.append_cancel_left_eq, List.cons.injEq] at same
      rwa [same.2]
  · exact fun numeral => .tagged tagged numeral

/-- Without its tag, an identifier is a number. -/
theorem spells_iff_of_untagged {text : String} {raw : Int}
    (untagged : afterFront? (mark kind) text.toList = none) :
    Spells kind text raw ↔ SignedNumeral text.toList raw := by
  constructor
  · rintro (numeral | ⟨same, numeral⟩)
    · exact numeral
    · rw [← mark_append, ← afterFront?_eq_some_iff, untagged] at same
      cases same
  · exact .bare

/-- The tag of one kind does not stand before the identifiers of another. -/
theorem afterFront?_mark_chars {other : IdKind} (different : kind ≠ other) (id : Id kind) :
    afterFront? (mark other) id.chars = none := by
  have noUnderscore : '_' ∉ Decimal.intChars id.raw :=
    (Decimal.signedNumeral_intChars id.raw).not_mem rfl (by decide) (by decide)
  rw [Option.eq_none_iff_forall_ne_some]
  intro rest tagged
  rw [afterFront?_eq_some_iff, chars, mark_append, mark_append,
    List.append_cons_inj_of_notMem kind.underscore_not_mem_tag noUnderscore] at tagged
  exact different (IdKind.eq_of_tag_eq (String.toList_inj.mp tagged.1))

theorem ofChars_eq_ok_iff {input : List Char} {id : Id kind} :
    ofChars kind input = .ok id ↔
      Decimal.readInt 0x8000000000000000 Decimal.maxInt64
        ((afterFront? (mark kind) input).getD input) = .ok id.raw := by
  rw [ofChars]
  split
  · rename_i raw read
    rw [read, Except.ok.injEq, Except.ok.injEq]
    exact ⟨fun same => same ▸ rfl, fun same => ext_raw same⟩
  · rename_i reason refused
    simp [refused]

theorem ofText_eq_ok_iff_spells {input : String} {id : Id kind} :
    ofText kind input = .ok id ↔ Spells kind input id.raw ∧ IsInt64 id.raw := by
  rw [ofText, ofChars_eq_ok_iff, Decimal.isInt64_iff, Decimal.readInt_eq_ok_iff]
  cases found : afterFront? (mark kind) input.toList with
  | some number => rw [spells_iff_of_tagged (afterFront?_eq_some_iff.mp found), Option.getD_some]
  | none => rw [spells_iff_of_untagged found, Option.getD_none]

theorem spells_text (id : Id kind) : Spells kind id.text id.raw := by
  apply Spells.tagged _ (Decimal.signedNumeral_intChars id.raw)
  rw [text, String.toList_ofList, chars, mark_append]

theorem ofText_text_of_ne {other : IdKind} (different : kind ≠ other) (id : Id kind) :
    ofText other id.text = .error ⟨other, .invalidDigit⟩ := by
  rcases kind.exists_tag_eq_cons with ⟨c, rest, tag, noDigit, noPlus, noMinus⟩
  have starts : id.chars = c :: (rest ++ '_' :: Decimal.intChars id.raw) := by
    rw [chars, mark_append, tag, List.cons_append]
  rw [ofText, text, String.toList_ofList, ofChars, afterFront?_mark_chars different id,
    Option.getD_none, starts, Decimal.readInt_of_other noDigit noPlus noMinus]

/-- What is written for an identifier is read as that identifier.  A text is read as an identifier
of a kind just if it spells one, with the tag of that kind or without, whose number is a signed word
of 64 bits.  What is written for an identifier of one kind is read as none of another. -/
theorem tagged_texts_exact :
    (∀ (kind : IdKind) (id : Id kind), IsInt64 id.raw → ofText kind id.text = .ok id) ∧
    (∀ (kind : IdKind) (input : String) (id : Id kind),
      ofText kind input = .ok id ↔ Spells kind input id.raw ∧ IsInt64 id.raw) ∧
    ∀ (kind other : IdKind), kind ≠ other → ∀ id : Id kind,
      ofText other id.text = .error ⟨other, .invalidDigit⟩ := by
  refine ⟨?_, fun kind input id => ofText_eq_ok_iff_spells, ?_⟩
  · intro kind id word
    exact ofText_eq_ok_iff_spells.mpr ⟨spells_text id, word⟩
  · intro kind other different id
    exact ofText_text_of_ne different id

/-- The tag of a node starts the tag of a link. -/
theorem tagged_texts_exact_lowest :
    IsInt64 (⟨-9223372036854775808⟩ : NodeId).raw ∧
      ofText .node "wfvn_-9223372036854775808" = .ok ⟨-9223372036854775808⟩ ∧
      Spells .node "wfvn_-9223372036854775808" (-9223372036854775808) ∧
      IdKind.node ≠ .link ∧
      ofText .link "wfvn_-9223372036854775808" = .error ⟨.link, .invalidDigit⟩ := by
  have word : IsInt64 (⟨-9223372036854775808⟩ : NodeId).raw := ⟨Int64.minValue, rfl⟩
  have written : (⟨-9223372036854775808⟩ : NodeId).text = "wfvn_-9223372036854775808" := by
    cbv
  have read := tagged_texts_exact.1 .node ⟨-9223372036854775808⟩ word
  have refused := tagged_texts_exact.2.2 .node .link (by decide) ⟨-9223372036854775808⟩
  rw [written] at read refused
  exact ⟨word, read, ((tagged_texts_exact.2.1 _ _ _).mp read).1, by decide, refused⟩

end Id

end NodeSteward
