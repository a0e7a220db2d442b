import Mathlib.Data.Prod.Lex
import NodeSteward.Proofs.Channel.Jobs

/-!
# Packed short channel identifiers

A short channel identifier and its packed word are two forms of the same.  The parts lie side by
side in the word, the height uppermost, so that every word has its parts, all parts that fit have
their word, and words are ordered as their parts are: by height, then by transaction, then by
output.

A report that opens or closes a channel carries the packed word, where 0 stands for none.  When
recording it adds a channel, the channel has this very word: it is unpacked into the new record,
and none of the further calls of the recording writes to the identifier.
-/

namespace NodeSteward

namespace ShortChannelId

/-- The parts are the fields of bits of the word. -/
structure Layout (id : ShortChannelId) (packed : UInt64) : Prop where
  block : id.blockHeight.val = (packed >>> 40).toNat
  tx : id.txIndex.val = ((packed >>> 16) &&& 0xffffff).toNat
  output : id.outputIndex.val = packed.toUInt16.toNat
  word : packed = UInt64.ofNat id.blockHeight.val <<< 40 ||| UInt64.ofNat id.txIndex.val <<< 16 |||
    UInt64.ofNat id.outputIndex.val

theorem packed_ofPacked (packed : UInt64) : (ofPacked packed).packed = packed := by
  rw [← UInt64.toNat_inj, toNat_packed, packedNat]
  have := packed.toNat_lt
  dsimp only [ofPacked]
  omega

theorem ofPacked_packed (id : ShortChannelId) : ofPacked id.packed = id := by
  rcases id with ⟨⟨block, fitsBlock⟩, ⟨tx, fitsTx⟩, ⟨output, fitsOutput⟩⟩
  simp only [ofPacked, toNat_packed, packedNat, mk.injEq, Fin.mk.injEq]
  omega

/-- Adding parts that lie side by side is joining their bits. -/
theorem packedNat_eq_or (id : ShortChannelId) :
    id.packedNat = id.blockHeight.val <<< 40 ||| id.txIndex.val <<< 16 ||| id.outputIndex.val := by
  have upper : id.blockHeight.val <<< 40 ||| id.txIndex.val <<< 16 =
      (id.blockHeight.val * 0x1000000 + id.txIndex.val) <<< 16 := by
    rw [← Nat.shiftLeft_eq id.blockHeight.val 24,
      Nat.shiftLeft_add_eq_or_of_lt (i := 24) id.txIndex.isLt, Nat.shiftLeft_or_distrib,
      ← Nat.shiftLeft_add]
  rw [upper, ← Nat.shiftLeft_add_eq_or_of_lt (i := 16) id.outputIndex.isLt, Nat.shiftLeft_eq]
  rfl

/-- A part that fits loses nothing when it is moved to its place. -/
theorem toNat_ofNat_shiftLeft (part : Nat) (places : UInt64) (moves : places.toNat < 64)
    (fits : part <<< places.toNat < UInt64.size) :
    (UInt64.ofNat part <<< places).toNat = part <<< places.toNat := by
  have small : part < UInt64.size := by
    rw [Nat.shiftLeft_eq] at fits
    exact Nat.lt_of_le_of_lt (Nat.le_mul_of_pos_right _ (Nat.two_pow_pos _)) fits
  rw [UInt64.toNat_shiftLeft, Nat.mod_eq_of_lt moves, UInt64.toNat_ofNat', Nat.mod_eq_of_lt small,
    Nat.mod_eq_of_lt fits]

theorem packed_eq_or (id : ShortChannelId) :
    id.packed = UInt64.ofNat id.blockHeight.val <<< 40 ||| UInt64.ofNat id.txIndex.val <<< 16 |||
      UInt64.ofNat id.outputIndex.val := by
  have blockFits : id.blockHeight.val <<< 40 < UInt64.size := by
    rw [Nat.shiftLeft_eq]
    exact Nat.mul_lt_mul_of_pos_right id.blockHeight.isLt (by decide)
  have txFits : id.txIndex.val <<< 16 < UInt64.size := by
    rw [Nat.shiftLeft_eq]
    exact Nat.lt_trans (Nat.mul_lt_mul_of_pos_right id.txIndex.isLt (by decide)) (by decide)
  have blockPlace := toNat_ofNat_shiftLeft id.blockHeight.val 40 (by decide) blockFits
  have txPlace := toNat_ofNat_shiftLeft id.txIndex.val 16 (by decide) txFits
  have outputPlace : (UInt64.ofNat id.outputIndex.val).toNat = id.outputIndex.val :=
    UInt64.toNat_ofNat_of_lt' (Nat.lt_trans id.outputIndex.isLt (by decide))
  rw [← UInt64.toNat_inj, toNat_packed, packedNat_eq_or, UInt64.toNat_or, UInt64.toNat_or,
    blockPlace, txPlace, outputPlace]
  rfl

theorem layout_ofPacked (packed : UInt64) : (ofPacked packed).Layout packed where
  block := by
    rw [UInt64.toNat_shiftRight, Nat.shiftRight_eq_div_pow]
    rfl
  tx := by
    rw [UInt64.toNat_and, UInt64.toNat_shiftRight, Nat.shiftRight_eq_div_pow]
    exact (Nat.and_two_pow_sub_one_eq_mod _ 24).symm
  output := rfl
  word := by
    rw [← packed_eq_or, packed_ofPacked]

theorem layout_packed (id : ShortChannelId) : id.Layout id.packed := by
  have layout := layout_ofPacked id.packed
  rwa [ofPacked_packed] at layout

/-- Parts that fit make an identifier. -/
theorem ofParts_of_lt {block tx : Nat} (output : Fin 0x10000) (fitsBlock : block < 0x1000000)
    (fitsTx : tx < 0x1000000) :
    ofParts block tx output = .ok ⟨⟨block, fitsBlock⟩, ⟨tx, fitsTx⟩, output⟩ := by
  rw [ofParts, dif_pos fitsBlock, dif_pos fitsTx]

/-- Where a channel stands in the chain: by height, then by transaction, then by output. -/
def place (id : ShortChannelId) : Fin 0x1000000 ×ₗ Fin 0x1000000 ×ₗ Fin 0x10000 :=
  toLex (id.blockHeight, toLex (id.txIndex, id.outputIndex))

variable {first second : ShortChannelId}

theorem place_lt_iff :
    first.place < second.place ↔
      first.blockHeight < second.blockHeight ∨
        first.blockHeight = second.blockHeight ∧
          (first.txIndex < second.txIndex ∨
            first.txIndex = second.txIndex ∧ first.outputIndex < second.outputIndex) := by
  rw [place, place, Prod.Lex.toLex_lt_toLex, Prod.Lex.toLex_lt_toLex]

/-- Words are ordered as their parts are. -/
theorem place_lt_iff_packed_lt : first.place < second.place ↔ first.packed < second.packed := by
  rw [place_lt_iff, UInt64.lt_iff_toNat_lt, toNat_packed, toNat_packed]
  rcases first with ⟨⟨block, fitsBlock⟩, ⟨tx, fitsTx⟩, ⟨output, fitsOutput⟩⟩
  rcases second with ⟨⟨block', fitsBlock'⟩, ⟨tx', fitsTx'⟩, ⟨output', fitsOutput'⟩⟩
  simp only [packedNat, Fin.mk_lt_mk, Fin.mk.injEq]
  omega

theorem le_eq_true_iff : first.le second = true ↔ ¬ second.place < first.place := by
  rw [place_lt_iff, le]
  simp only [Bool.or_eq_true, Bool.and_eq_true, decide_eq_true_iff, beq_iff_eq, Fin.ext_iff,
    Fin.lt_def, Fin.le_def]
  omega

end ShortChannelId

/-! ## Channels that a report adds -/

/-- The packed short identifier that a report carries. -/
def ChannelUpdate.chanId? : ChannelUpdate → Option UInt64
  | .open channel => some channel.chanId
  | .closed channel => some channel.chanId
  | _ => none

theorem ChannelUpdate.wanted_of_chanId? {update : ChannelUpdate} {packed : UInt64}
    {now : Timestamp} {wanted : NewChannel} (carries : update.chanId? = some packed)
    (nonzero : packed ≠ 0) (asks : update.channel? now = some wanted) :
    wanted.shortChannelId = some (.ofPacked packed) := by
  cases update with
  | «open» channel =>
    cases carries
    cases asks
    exact if_neg nonzero
  | closed channel =>
    cases carries
    cases asks
    exact if_neg nonzero
  | _ => cases carries

namespace ChannelStore

/-- A channel that is stored afterwards, under an identifier that was not in use before. -/
def Creates (before after : ChannelStore) (created : Channel) : Prop :=
  created ∈ after.channels.rows ∧ ∀ channel ∈ before.channels.rows, channel.id ≠ created.id

/-- Every channel was there before with its short identifier, or has the given one. -/
def Gains (shortId : Option ShortChannelId) (before after : ChannelStore) : Prop :=
  ∀ held ∈ after.channels.rows,
    (∃ channel ∈ before.channels.rows, channel.id = held.id ∧
      channel.shortChannelId = held.shortChannelId) ∨ held.shortChannelId = shortId

variable {shortId : Option ShortChannelId} {first second third : ChannelStore}

theorem Gains.refl (store : ChannelStore) : Gains shortId store store :=
  fun held present => Or.inl ⟨held, present, rfl, rfl⟩

theorem Gains.trans (before : Gains shortId first second) (behind : Gains shortId second third) :
    Gains shortId first third := by
  intro held present
  rcases behind held present with ⟨channel, there, sameId, same⟩ | given
  · rcases before channel there with ⟨origin, member, again, kept⟩ | given
    · exact Or.inl ⟨origin, member, again.trans sameId, kept.trans same⟩
    · exact Or.inr (same.symm.trans given)
  · exact Or.inr given

theorem Gains.of_creates {created : Channel} (gains : Gains shortId first second)
    (creates : first.Creates second created) : created.shortChannelId = shortId := by
  rcases gains created creates.1 with ⟨channel, member, same, _⟩ | given
  · exact absurd same (creates.2 channel member)
  · exact given

end ChannelStore

namespace ChannelUpdate

variable {update : ChannelUpdate} {packed : UInt64} {now : Timestamp}

/-- Each call with which a report is recorded leaves the channels their short identifiers. -/
theorem Makes.gains {request : ChannelCall} (makes : update.Makes now (.store request))
    (carries : update.chanId? = some packed) (nonzero : packed ≠ 0) (store : ChannelStore) :
    store.Gains (some (.ofPacked packed)) (ChannelStore.handler request store).2 := by
  have unnamed : ∀ now id shortId, request ≠ .setShortChannelId now id shortId := by
    rintro _ _ _ rfl
    cases makes
  have changes := ChannelStore.handler_changes request store
  generalize (ChannelStore.handler request store).2 = after at changes
  cases changes with
  | nothing => exact .refl store
  | refused wanted => exact .refl store
  | added wanted free =>
    intro held present
    rcases Table.mem_rows_insert.mp present with rfl | ⟨old, _⟩
    · cases makes with
      | ensured asks => exact Or.inr (wanted_of_chanId? carries nonzero asks)
    · exact Or.inl ⟨held, old, rfl, rfl⟩
  | written request id change keeps rewrites =>
    intro held present
    rcases (Table.mem_rows_modify keeps).mp present with ⟨channel, member, rfl⟩
    refine Or.inl ⟨channel, member, ?_⟩
    split
    · rename_i named
      have written := rewrites channel member named
      exact ⟨written.id.symm, (written.shortChannelId unnamed).symm⟩
    · exact ⟨rfl, rfl⟩
  | eventAdded => exact .refl store
  | transactionsWritten => exact .refl store

/-- So does a part of the recording as a whole, if nobody else works on the store. -/
theorem gains_of_only {α : Type} {program : Program ingestCalls α}
    (only : program.Only (update.Makes now)) (carries : update.chanId? = some packed)
    (nonzero : packed ≠ 0) (listening : Bool) (store : ChannelStore) (told : List Fact) :
    store.Gains (some (.ofPacked packed))
      (program.run (IngestCall.handler ChannelStore.handler listening) (store, told)).2.1 := by
  induction only generalizing store told with
  | done result => exact .refl store
  | @call request next makes _ ih =>
    cases request with
    | store request => exact (makes.gains carries nonzero store).trans (ih _ _ told)
    | publish fact => exact ih () store _

end ChannelUpdate

/-- A channel that the call creates has the given packed identifier. -/
def IngestCall.CreatesWith (packed : UInt64) : IngestCall → Prop
  | store request => ∀ (before : ChannelStore) created,
    before.Creates (ChannelStore.handler request before).2 created →
      created.packedId = some packed
  | publish _ => True

/-- A channel that a program creates has the given packed identifier: with each of its calls by
itself, whatever others have made of the store by then, and over the whole of it if nobody else
works on the store. -/
structure IngestProgram.CreatesWith {α : Type} (packed : UInt64)
    (program : Program ingestCalls α) : Prop where
  byCall : program.Only (IngestCall.CreatesWith packed)
  alone : ∀ listening (store : ChannelStore) told created,
    store.Creates
      (program.run (IngestCall.handler ChannelStore.handler listening) (store, told)).2.1 created →
        created.packedId = some packed

theorem ChannelUpdate.record_createsWith {update : ChannelUpdate} {packed : UInt64}
    (carries : update.chanId? = some packed) (nonzero : packed ≠ 0) (patience : Nat)
    (now : Timestamp) (imported : Bool) :
    IngestProgram.CreatesWith packed (update.record patience now imported).run := by
  have only := only_makes patience now update imported
  have named : ∀ {created : Channel}, created.shortChannelId = some (.ofPacked packed) →
      created.packedId = some packed := by
    intro created given
    rw [Channel.packedId, given, Option.map_some, ShortChannelId.packed_ofPacked]
  constructor
  · refine only.mono ?_
    intro request makes
    cases request with
    | store request =>
      intro store created creates
      exact named ((makes.gains carries nonzero store).of_creates creates)
    | publish => trivial
  · intro listening store told created creates
    exact named ((gains_of_only only carries nonzero listening store told).of_creates creates)

namespace ShortChannelId

/-- Every word is the packed form of its fields of bits, and parts that fit are packed into a word
from which they can be taken again.  Packing keeps the order.  So a channel that is created when a
report is recorded has the packed identifier that the report carries. -/
theorem packing_exact :
    (∀ packed, (ofPacked packed).Layout packed ∧ (ofPacked packed).blockHeight.val < 0x1000000 ∧
      (ofPacked packed).txIndex.val < 0x1000000 ∧ (ofPacked packed).packed = packed) ∧
    (∀ block tx output, block < 0x1000000 → tx < 0x1000000 →
      ∃ id, ofParts block tx output = .ok id ∧ id.blockHeight.val = block ∧
        id.txIndex.val = tx ∧ id.outputIndex = output ∧ id.Layout id.packed ∧
        ofPacked id.packed = id) ∧
    (∀ first second : ShortChannelId,
      (first.place < second.place ↔ first.packed < second.packed) ∧
      (first.le second = true ↔ first.packed ≤ second.packed)) ∧
    ∀ (update : ChannelUpdate) packed, update.chanId? = some packed → packed ≠ 0 →
      ∀ patience now imported,
        IngestProgram.CreatesWith packed (update.record patience now imported).run := by
  refine ⟨fun packed => ?_, fun block tx output fitsBlock fitsTx => ?_, fun first second => ?_,
    fun update packed carries nonzero patience now imported => ?_⟩
  · exact ⟨layout_ofPacked packed, (ofPacked packed).blockHeight.isLt,
      (ofPacked packed).txIndex.isLt, packed_ofPacked packed⟩
  · exact ⟨_, ofParts_of_lt output fitsBlock fitsTx, rfl, rfl, rfl, layout_packed _,
      ofPacked_packed _⟩
  · refine ⟨place_lt_iff_packed_lt, ?_⟩
    rw [le_eq_true_iff, place_lt_iff_packed_lt, UInt64.not_lt]
  · exact ChannelUpdate.record_createsWith carries nonzero patience now imported

/-- The channel 505580x1917x1, which is opened while nothing is stored yet. -/
theorem packing_exact_known :
    let opens : ChannelUpdate := .open ⟨555891088896622593, "f:1", "", 0, false, true, false⟩
    (∃ id, ofParts 505580 1917 1 = .ok id ∧ ofPacked id.packed = id) ∧
      ∃ created, ChannelStore.empty.Creates ((opens.record 3 ⟨0, 0⟩ false).run.run
          (IngestCall.handler ChannelStore.handler false) (.empty, [])).2.1 created ∧
        created.packedId = some 555891088896622593 := by
  intro opens
  constructor
  · rcases packing_exact.2.1 505580 1917 1 (by decide) (by decide) with
      ⟨id, made, _, _, _, _, unpacks⟩
    exact ⟨id, made, unpacks⟩
  · have stored : ((opens.record 3 ⟨0, 0⟩ false).run.run
        (IngestCall.handler ChannelStore.handler false) (.empty, [])).2.1.channels.rows.any
          (fun channel => channel.point = "f:1") = true := by decide +kernel
    rcases List.any_eq_true.mp stored with ⟨created, present, _⟩
    have creates : ChannelStore.empty.Creates ((opens.record 3 ⟨0, 0⟩ false).run.run
        (IngestCall.handler ChannelStore.handler false) (.empty, [])).2.1 created :=
      ⟨present, fun _ held => absurd held List.not_mem_nil⟩
    exact ⟨created, creates,
      (packing_exact.2.2.2 opens 555891088896622593 rfl (by decide) 3 ⟨0, 0⟩ false).alone
        false .empty [] created creates⟩

end ShortChannelId

end NodeSteward
