import NodeSteward.Channel.Record
import NodeSteward.Proofs.Text.Numerals

/-!
# The funding outpoint that a channel point names

A channel point is a text that anybody may hand in.  Its last colon parts the funding transaction
from the number of the output; a text without a colon names a transaction only, and an output that
cannot be read counts as output 0.  So the split never fails, and it loses no part of the text.
-/

namespace NodeSteward

/-- The number of the output that a text stands for, which is 0 unless it is one of 32 bits. -/
def outputNamed (index : List Char) : Nat :=
  (Decimal.readNat Decimal.maxUInt32 index).toOption.getD 0

/-- The funding transaction and the output that a channel point names. -/
inductive NamesOutpoint : String → String → Nat → Prop
  | transaction (hash : String) (noColon : ':' ∉ hash.toList) : NamesOutpoint hash hash 0
  /-- What stands before the last colon, and what stands behind it. -/
  | output (hash index : List Char) (noColon : ':' ∉ index) :
    NamesOutpoint (String.ofList (hash ++ ':' :: index)) (String.ofList hash) (outputNamed index)

namespace NewChannel

theorem splitLastColon?_eq_none {text : List Char} (whole : splitLastColon? text = none) :
    ':' ∉ text := by
  induction text with
  | nil => exact List.not_mem_nil
  | cons c rest ih =>
    rw [splitLastColon?] at whole
    cases later : splitLastColon? rest with
    | some parts =>
      rw [later] at whole
      cases whole
    | none =>
      simp only [later] at whole
      split at whole
      · cases whole
      · rename_i different
        rw [List.mem_cons, not_or]
        exact ⟨fun same => different same.symm, ih later⟩

/-- The part behind the split has no colon, and both parts make up the text. -/
theorem splitLastColon?_eq_some {text front back : List Char}
    (parts : splitLastColon? text = some (front, back)) :
    text = front ++ ':' :: back ∧ ':' ∉ back := by
  induction text generalizing front with
  | nil => cases parts
  | cons c rest ih =>
    rw [splitLastColon?] at parts
    cases later : splitLastColon? rest with
    | some split =>
      rcases split with ⟨first, second⟩
      simp only [later, Option.some_inj, Prod.mk.injEq] at parts
      rcases parts with ⟨rfl, rfl⟩
      rcases ih later with ⟨joined, noColon⟩
      exact ⟨congrArg (c :: ·) joined, noColon⟩
    | none =>
      simp only [later] at parts
      split at parts
      · rename_i colon
        cases parts
        subst colon
        exact ⟨rfl, splitLastColon?_eq_none later⟩
      · cases parts

/-- The funding outpoint of a new channel is the one that its channel point names. -/
theorem names_fundingOutpoint (channel : NewChannel) :
    NamesOutpoint channel.point channel.fundingOutpoint.1 channel.fundingOutpoint.2.toNat := by
  rw [fundingOutpoint]
  cases parts : splitLastColon? channel.point.toList with
  | none => exact .transaction channel.point (splitLastColon?_eq_none parts)
  | some split =>
    rcases split with ⟨hash, index⟩
    rcases splitLastColon?_eq_some parts with ⟨joined, noColon⟩
    have named := NamesOutpoint.output hash index noColon
    rw [← joined, String.ofList_toList, outputNamed] at named
    dsimp only
    cases read : Decimal.readNat Decimal.maxUInt32 index with
    | error fault =>
      rw [read] at named
      exact named
    | ok number =>
      have within : number < UInt32.size := Nat.lt_succ_of_le (Decimal.readNat_eq_ok_iff.mp read).2
      dsimp only
      rw [UInt32.toNat_ofNat_of_lt' within]
      rw [read] at named
      exact named

end NewChannel

end NodeSteward
