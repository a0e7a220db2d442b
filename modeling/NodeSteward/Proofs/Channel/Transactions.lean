import Mathlib.Data.Finset.SDiff
import Mathlib.Data.Finset.Card
import Mathlib.Data.Finset.Dedup
import NodeSteward.Proofs.Channel.Change
import NodeSteward.Proofs.Channel.Pacing

/-!
# A transaction is stored once

Transactions reach the store from a listing and from streams, in any order and as often as the node
cares to report them.  A transaction is stored under its instant and its hash, and the one that
comes first under a key stays.  So what is found under a key after any deliveries is what a search
through all that was stored and delivered, in this order, comes upon first; and which keys are in
use depends only on what was delivered, not on when.

The rows ascend by their keys.  Placing one transaction keeps that, and the rest is a fold.
-/

namespace NodeSteward

namespace Transaction

/-- What a transaction is stored under: its instant and its hash.  The calendar covers the years
-262143 to 262142, and a time outside of them counts as the start of 1970. -/
def key (transaction : Transaction) : Timestamp × String :=
  (if -8334601228800 ≤ transaction.timeStamp ∧ transaction.timeStamp ≤ 8210266876799 then
      ⟨transaction.timeStamp, 0⟩
    else ⟨0, 0⟩,
    transaction.hash)

variable {first second third : Transaction}

theorem key_eq (transaction : Transaction) :
    transaction.key = (transaction.timestamp, transaction.hash) := by
  have covered : Timestamp.inRange transaction.timeStamp = true ↔
      -8334601228800 ≤ transaction.timeStamp ∧ transaction.timeStamp ≤ 8210266876799 :=
    decide_eq_true_iff
  rw [key, timestamp]
  exact congrArg (·, transaction.hash) (if_congr covered.symm rfl rfl)

theorem key_eq_iff :
    first.key = second.key ↔ first.timestamp = second.timestamp ∧ first.hash = second.hash := by
  rw [key_eq, key_eq, Prod.mk.injEq]

/-- The order of the rows: by instant, and by hash within an instant. -/
def Precedes (first second : Transaction) : Prop :=
  first.timestamp.before second.timestamp = true ∨
    first.timestamp = second.timestamp ∧ first.hash < second.hash

instance : Decidable (first.Precedes second) :=
  inferInstanceAs (Decidable (_ ∨ _))

end Transaction

namespace Timestamp

variable {first second third : Timestamp}

theorem before_iff : first.before second = true ↔ first.seconds < second.seconds ∨
    first.seconds = second.seconds ∧ first.nanos < second.nanos := by
  simp [before]

theorem before_trans (earlier : first.before second = true) (later : second.before third = true) :
    first.before third = true := by
  rw [before_iff] at *
  omega

theorem not_before_self (instant : Timestamp) : ¬ instant.before instant = true := by
  rw [before_iff]
  omega

theorem eq_of_not_before (notEarlier : ¬ first.before second = true)
    (notLater : ¬ second.before first = true) : first = second := by
  rcases first with ⟨seconds, nanos⟩
  rcases second with ⟨otherSeconds, otherNanos⟩
  simp only [before_iff] at notEarlier notLater
  rw [mk.injEq]
  omega

end Timestamp

namespace Transaction

variable {first second third : Transaction}

theorem Precedes.trans (before : first.Precedes second) (behind : second.Precedes third) :
    first.Precedes third := by
  rcases before with earlier | ⟨same, less⟩
  · rcases behind with later | ⟨same, _⟩
    · exact Or.inl (Timestamp.before_trans earlier later)
    · exact Or.inl (same ▸ earlier)
  · rcases behind with later | ⟨again, more⟩
    · exact Or.inl (same ▸ later)
    · exact Or.inr ⟨same.trans again, String.lt_trans less more⟩

theorem Precedes.key_ne (before : first.Precedes second) : first.key ≠ second.key := by
  intro equal
  rcases key_eq_iff.mp equal with ⟨sameInstant, sameHash⟩
  rcases before with earlier | ⟨_, less⟩
  · exact Timestamp.not_before_self _ (sameInstant ▸ earlier)
  · exact String.lt_irrefl _ (sameHash ▸ less)

/-- Of two transactions with different keys, one precedes the other. -/
theorem precedes_of_not (different : first.key ≠ second.key) (notBefore : ¬ first.Precedes second) :
    second.Precedes first := by
  rw [Precedes, not_or, not_and] at notBefore
  by_cases later : second.timestamp.before first.timestamp = true
  · exact Or.inl later
  · have same := Timestamp.eq_of_not_before notBefore.1 later
    refine Or.inr ⟨same.symm, String.not_le.mp fun below => different (key_eq_iff.mpr ⟨same, ?_⟩)⟩
    exact String.le_antisymm below (String.not_lt.mp (notBefore.2 same))

end Transaction

namespace ChannelStore

variable {store : ChannelStore} {transaction : Transaction} {rows : List Transaction}

theorem placeTransaction_cons (held : Transaction) :
    placeTransaction transaction (held :: rows) =
      if transaction.key = held.key then (false, held :: rows)
      else if transaction.Precedes held then (true, transaction :: held :: rows)
      else
        ((placeTransaction transaction rows).1, held :: (placeTransaction transaction rows).2) := by
  rw [placeTransaction]
  refine if_congr Transaction.key_eq_iff.symm rfl (if_congr ?_ rfl rfl)
  rw [Transaction.Precedes, Bool.or_eq_true, Bool.and_eq_true, decide_eq_true_iff,
    decide_eq_true_iff]

/-- Where the key is in use, the rows stay as they are. -/
theorem placeTransaction_of_present (ascending : rows.Pairwise Transaction.Precedes)
    (present : transaction.key ∈ rows.map Transaction.key) :
    placeTransaction transaction rows = (false, rows) := by
  induction rows with
  | nil => exact absurd present List.not_mem_nil
  | cons held rows ih =>
    rcases List.pairwise_cons.mp ascending with ⟨front, behind⟩
    rw [placeTransaction_cons]
    split
    · rfl
    · rename_i different
      have later := (List.mem_cons.mp present).resolve_left different
      rcases List.mem_map.mp later with ⟨other, member, same⟩
      rw [if_neg fun before : transaction.Precedes held =>
        (before.trans (front other member)).key_ne same.symm, ih behind later]

theorem placeTransaction_of_absent (absent : transaction.key ∉ rows.map Transaction.key) :
    (placeTransaction transaction rows).1 = true ∧
      (placeTransaction transaction rows).2.Perm (transaction :: rows) := by
  induction rows with
  | nil => exact ⟨rfl, .refl _⟩
  | cons held rows ih =>
    rw [List.map_cons, List.mem_cons, not_or] at absent
    rcases ih absent.2 with ⟨new, placed⟩
    rw [placeTransaction_cons, if_neg absent.1]
    split
    · exact ⟨rfl, .refl _⟩
    · exact ⟨new, (placed.cons held).trans (.swap transaction held rows)⟩

theorem ascending_placeTransaction (ascending : rows.Pairwise Transaction.Precedes) :
    (placeTransaction transaction rows).2.Pairwise Transaction.Precedes := by
  by_cases present : transaction.key ∈ rows.map Transaction.key
  · rw [placeTransaction_of_present ascending present]
    exact ascending
  induction rows with
  | nil => exact List.pairwise_singleton _ _
  | cons held rows ih =>
    rcases List.pairwise_cons.mp ascending with ⟨front, behind⟩
    rw [List.map_cons, List.mem_cons, not_or] at present
    rw [placeTransaction_cons, if_neg present.1]
    split
    · rename_i before
      refine List.pairwise_cons.mpr ⟨?_, ascending⟩
      intro other listed
      rcases List.mem_cons.mp listed with rfl | later
      · exact before
      · exact before.trans (front other later)
    · rename_i notBefore
      refine List.pairwise_cons.mpr ⟨?_, ih behind present.2⟩
      intro other listed
      rcases List.mem_cons.mp ((placeTransaction_of_absent present.2).2.mem_iff.mp listed) with
        rfl | later
      · exact Transaction.precedes_of_not present.1 notBefore
      · exact front other later

/-- The transactions stand in the order of their keys, so that no two of them share one. -/
def TransactionsAscend (store : ChannelStore) : Prop :=
  store.transactions.Pairwise Transaction.Precedes

/-- The transaction that is stored under a key. -/
def transactionAt? (store : ChannelStore) (key : Timestamp × String) : Option Transaction :=
  store.transactions.find? (fun transaction => transaction.key = key)

/-- The keys under which transactions are stored. -/
def transactionKeys (store : ChannelStore) : Finset (Timestamp × String) :=
  (store.transactions.map Transaction.key).toFinset

theorem mem_transactionKeys {key : Timestamp × String} :
    key ∈ store.transactionKeys ↔ key ∈ store.transactions.map Transaction.key :=
  List.mem_toFinset

theorem TransactionsAscend.insert (ascend : store.TransactionsAscend)
    (transaction : Transaction) : (store.insertTransaction transaction).2.TransactionsAscend :=
  ascending_placeTransaction ascend

/-- Only one call writes to the table. -/
theorem Changes.transactions {request : ChannelCall} {after : ChannelStore}
    (changes : store.Changes request after) :
    after.transactions = store.transactions ∨
      ∃ transaction, request = .insertTransaction transaction := by
  cases changes with
  | transactionsWritten transaction => exact Or.inr ⟨transaction, rfl⟩
  | _ => exact Or.inl rfl

/-- The transactions ascend after every history of the store. -/
theorem TransactionsAscend.applyAll (deeds : List ChannelDeed) :
    (ChannelDeed.applyAll .empty deeds).TransactionsAscend := by
  refine ChannelDeed.applyAll_keeps TransactionsAscend ?_ (fun _ _ _ ascend => ascend) deeds
    List.Pairwise.nil
  intro request store ascend
  rcases (handler_changes request store).transactions with same | ⟨transaction, rfl⟩
  · rw [TransactionsAscend, same]
    exact ascend
  · exact ascend.insert transaction

/-- Every key is that of a single row. -/
theorem TransactionsAscend.card_transactionKeys (ascend : store.TransactionsAscend) :
    store.transactionKeys.card = store.transactions.length := by
  have distinct : (store.transactions.map Transaction.key).Nodup :=
    List.pairwise_map.mpr (ascend.imp Transaction.Precedes.key_ne)
  rw [transactionKeys, List.toFinset_card_of_nodup distinct, List.length_map]

theorem insertTransaction_of_present (ascend : store.TransactionsAscend)
    (present : transaction.key ∈ store.transactionKeys) :
    store.insertTransaction transaction = (false, store) := by
  rw [insertTransaction, placeTransaction_of_present ascend (mem_transactionKeys.mp present)]

theorem length_insertTransaction (ascend : store.TransactionsAscend) :
    (store.insertTransaction transaction).2.transactions.length =
      store.transactions.length + if (store.insertTransaction transaction).1 then 1 else 0 := by
  by_cases present : transaction.key ∈ store.transactionKeys
  · rw [insertTransaction_of_present ascend present]
    rfl
  · rcases placeTransaction_of_absent (mt mem_transactionKeys.mpr present) with ⟨new, placed⟩
    show (placeTransaction transaction store.transactions).2.length =
      _ + if (placeTransaction transaction store.transactions).1 then 1 else 0
    rw [placed.length_eq, new]
    rfl

theorem TransactionsAscend.transactionAt?_eq_some_iff (ascend : store.TransactionsAscend)
    {key : Timestamp × String} :
    store.transactionAt? key = some transaction ↔
      transaction ∈ store.transactions ∧ transaction.key = key := by
  have stored : ∀ {key other}, store.transactionAt? key = some other →
      other ∈ store.transactions ∧ other.key = key := by
    intro key other found
    have named := List.find?_some found
    exact ⟨List.mem_of_find?_eq_some found, of_decide_eq_true named⟩
  refine ⟨stored, ?_⟩
  rintro ⟨member, rfl⟩
  cases found : store.transactionAt? transaction.key with
  | none => simpa using List.find?_eq_none.mp found transaction member
  | some other =>
    have distinct := List.pairwise_map.mpr (ascend.imp Transaction.Precedes.key_ne)
    rw [List.inj_on_of_nodup_map distinct (stored found).1 member (stored found).2]

/-- Under a key that is in use the transaction that is stored there stays, and one whose key is not
in use is stored as it is. -/
theorem TransactionsAscend.transactionAt?_insert (ascend : store.TransactionsAscend)
    (transaction : Transaction) (key : Timestamp × String) :
    (store.insertTransaction transaction).2.transactionAt? key =
      (store.transactions ++ [transaction]).find? (fun held => held.key = key) := by
  have kept := ascend.insert transaction
  rw [List.find?_append]
  by_cases present : transaction.key ∈ store.transactionKeys
  · rw [insertTransaction_of_present ascend present, transactionAt?]
    by_cases same : transaction.key = key
    · rcases List.mem_map.mp (mem_transactionKeys.mp present) with ⟨held, member, shared⟩
      have found : (store.transactions.find? (fun held => held.key = key)).isSome = true :=
        List.find?_isSome.mpr ⟨held, member, decide_eq_true (shared.trans same)⟩
      rw [Option.or_of_isSome found]
    · rw [List.find?_singleton, if_neg (by simpa using same), Option.or_none]
  · have absent := mt mem_transactionKeys.mpr present
    have placed := (placeTransaction_of_absent absent).2
    by_cases same : transaction.key = key
    · have unused : store.transactions.find? (fun held => held.key = key) = none := by
        refine List.find?_eq_none.mpr fun held member shared => absent ?_
        exact List.mem_map.mpr ⟨held, member, (of_decide_eq_true shared).trans same.symm⟩
      rw [unused, Option.none_or, List.find?_singleton, if_pos (decide_eq_true same)]
      exact kept.transactionAt?_eq_some_iff.mpr ⟨placed.mem_iff.mpr List.mem_cons_self, same⟩
    · rw [List.find?_singleton, if_neg (by simpa using same), Option.or_none]
      apply Option.ext
      intro held
      have unchanged : held ∈ (store.insertTransaction transaction).2.transactions ∧
          held.key = key ↔ held ∈ store.transactions ∧ held.key = key := by
        refine and_congr_left fun named => placed.mem_iff.trans (List.mem_cons.trans ?_)
        exact or_iff_right fun itself => same (itself ▸ named)
      exact kept.transactionAt?_eq_some_iff.trans
        (unchanged.trans ascend.transactionAt?_eq_some_iff.symm)

/-! ## Taking in one transaction after the other -/

/-- The store after some transactions have come. -/
def takeIn (store : ChannelStore) (came : List Transaction) : ChannelStore :=
  came.foldl (fun held transaction => (held.insertTransaction transaction).2) store

theorem takeIn_append (store : ChannelStore) (came later : List Transaction) :
    store.takeIn (came ++ later) = (store.takeIn came).takeIn later :=
  List.foldl_append

/-- What a store has become that stored what came, each transaction under its key and once. -/
structure StoresOnce (before : ChannelStore) (came : List Transaction) (after : ChannelStore) :
    Prop where
  ascend : after.TransactionsAscend
  keys : after.transactionKeys = before.transactionKeys ∪ (came.map Transaction.key).toFinset
  /-- Under each key there is the transaction that was the first. -/
  first : ∀ key, after.transactionAt? key =
    (before.transactions ++ came).find? (fun transaction => transaction.key = key)
  others : after = { before with transactions := after.transactions }

theorem isSome_transactionAt? {key : Timestamp × String} :
    (store.transactionAt? key).isSome = true ↔ key ∈ store.transactionKeys := by
  simp [transactionAt?, transactionKeys]

theorem TransactionsAscend.takeIn (ascend : store.TransactionsAscend) (came : List Transaction) :
    (store.takeIn came).TransactionsAscend :=
  List.foldlRecOn came _ ascend fun _ held transaction _ => held.insert transaction

theorem TransactionsAscend.transactionAt?_takeIn (ascend : store.TransactionsAscend)
    (came : List Transaction) (key : Timestamp × String) :
    (store.takeIn came).transactionAt? key =
      (store.transactions ++ came).find? (fun transaction => transaction.key = key) := by
  induction came generalizing store with
  | nil =>
    rw [List.append_nil]
    rfl
  | cons transaction came ih =>
    calc
      ((store.insertTransaction transaction).2.takeIn came).transactionAt? key =
          ((store.insertTransaction transaction).2.transactionAt? key).or
            (came.find? (fun transaction => transaction.key = key)) :=
        (ih (ascend.insert transaction)).trans List.find?_append
      _ = (store.transactions ++ transaction :: came).find?
            (fun transaction => transaction.key = key) := by
        rw [ascend.transactionAt?_insert, ← List.find?_append, List.append_assoc,
          List.singleton_append]

theorem others_takeIn (store : ChannelStore) (came : List Transaction) :
    store.takeIn came = { store with transactions := (store.takeIn came).transactions } := by
  induction came generalizing store with
  | nil => rfl
  | cons transaction came ih => exact ih (store.insertTransaction transaction).2

theorem TransactionsAscend.storesOnce (ascend : store.TransactionsAscend)
    (came : List Transaction) : store.StoresOnce came (store.takeIn came) where
  ascend := ascend.takeIn came
  keys := by
    ext key
    rw [← isSome_transactionAt?, ascend.transactionAt?_takeIn, List.find?_append, Option.isSome_or,
      Bool.or_eq_true, ← transactionAt?, isSome_transactionAt?, Finset.mem_union]
    simp
  first := ascend.transactionAt?_takeIn came
  others := others_takeIn store came

/-- Transactions whose keys are in use change nothing. -/
theorem TransactionsAscend.takeIn_of_present (ascend : store.TransactionsAscend)
    {came : List Transaction} (present : ∀ transaction ∈ came,
      transaction.key ∈ store.transactionKeys) : store.takeIn came = store := by
  induction came with
  | nil => rfl
  | cons transaction came ih =>
    show (store.insertTransaction transaction).2.takeIn came = store
    rw [insertTransaction_of_present ascend (present transaction List.mem_cons_self)]
    exact ih fun later listed => present later (List.mem_cons_of_mem _ listed)

end ChannelStore

namespace Transaction

open ChannelStore
open IngestProgram (ask)

variable {store : ChannelStore}

/-- An import stores the transactions one after the other, and it counts the new rows. -/
theorem run_importEach (ascend : store.TransactionsAscend) (listing : List Transaction)
    (listening : Bool) (facts : List Fact) :
    ∃ count, (importEach listing).run.run (IngestCall.handler ChannelStore.handler listening)
        (store, facts) = (.ok count, store.takeIn listing, facts) ∧
      (store.takeIn listing).transactions.length = store.transactions.length + count := by
  induction listing generalizing store with
  | nil => exact ⟨0, rfl, rfl⟩
  | cons transaction listing ih =>
    rcases ih (ascend.insert transaction) with ⟨count, runs, length⟩
    refine ⟨count + if (store.insertTransaction transaction).1 then 1 else 0, ?_, ?_⟩
    · have asked : (ask (.insertTransaction transaction)).run.run
          (IngestCall.handler ChannelStore.handler listening) (store, facts) =
            (.ok (store.insertTransaction transaction).1,
              (store.insertTransaction transaction).2, facts) := rfl
      rw [importEach, ExceptT.run_bind, Program.run_bind, asked]
      dsimp only
      rw [ExceptT.run_bind, Program.run_bind, runs]
      rfl
    · refine length.trans ?_
      rw [length_insertTransaction ascend]
      omega

/-- The import of a listing yields the number of keys that it adds. -/
theorem run_importAll (ascend : store.TransactionsAscend) (listing : List Transaction)
    (listening : Bool) (facts : List Fact) :
    (importAll (.ok listing)).run.run (IngestCall.handler ChannelStore.handler listening)
        (store, facts) =
      (.ok ((store.takeIn listing).transactionKeys \ store.transactionKeys).card,
        store.takeIn listing, facts) := by
  rcases run_importEach ascend listing listening facts with ⟨count, runs, length⟩
  have stored := ascend.storesOnce listing
  have more : store.transactionKeys ⊆ (store.takeIn listing).transactionKeys :=
    stored.keys ▸ Finset.subset_union_left
  rw [Finset.card_sdiff_of_subset more, stored.ascend.card_transactionKeys,
    ascend.card_transactionKeys, length, Nat.add_sub_cancel_left]
  exact runs

/-- A listing whose keys are in use adds none. -/
theorem run_importAll_of_present (ascend : store.TransactionsAscend) {listing : List Transaction}
    (present : ∀ transaction ∈ listing, transaction.key ∈ store.transactionKeys)
    (listening : Bool) (facts : List Fact) :
    (importAll (.ok listing)).run.run (IngestCall.handler ChannelStore.handler listening)
        (store, facts) = (.ok 0, store, facts) := by
  rw [run_importAll ascend, ascend.takeIn_of_present present, Finset.sdiff_self, Finset.card_empty]

end Transaction

/-! ## Streams -/

namespace Following

variable {ι σ : Type} {timing : Timing} {store : ι → σ → Bool × σ} {offered : List ι}

/-- The state after some items have been handed to the store. -/
def handing (store : ι → σ → Bool × σ) (items : List ι) (state : σ) : σ :=
  items.foldl (fun state item => (store item state).2) state

/-- Of what is offered, the store is handed the first items, and all of them if there is no
cancellation. -/
def Hands (timing : Timing) (store : ι → σ → Bool × σ) (offered : List ι) (before after : σ) :
    Prop :=
  ∃ handed, handed <+: offered ∧ after = handing store handed before ∧
    (timing.cancel = none → handed = offered)

/-- A stream was left after the store was handed some of its items: all of them unless it was
cancelled. -/
structure StreamHands (timing : Timing) (store : ι → σ → Bool × σ) (stream : Attempt ι)
    (before : σ) (left : StreamEnd × Following σ) (handed : List ι) : Prop where
  first : handed <+: stream.delivered
  state : left.2.state = handing store handed before
  cancelled : left.1 = .cancelled → timing.cancel ≠ none
  broken : left.1 = .broken → handed = stream.delivered ∧ stream.lasts = false
  silent : left.1 = .silent → handed = stream.delivered ∧ stream.lasts = true

/-- A store that takes every item is handed one after the other, until the stream ends. -/
theorem streamHands_followStream (takes : ∀ item state, (store item state).1 = true)
    (timing : Timing) (staysOpen : Bool) (deliveries : List (Delivery ι))
    (following : Following σ) :
    ∃ handed, StreamHands timing store (.stream deliveries staysOpen) following.state
      (followStream timing store staysOpen deliveries following) handed := by
  induction deliveries generalizing following with
  | nil =>
    cases staysOpen with
    | false => refine ⟨[], List.nil_prefix, rfl, ?_, fun _ => ⟨rfl, rfl⟩, ?_⟩ <;> rintro ⟨⟩
    | true => refine ⟨[], List.nil_prefix, rfl, ?_, ?_, fun _ => ⟨rfl, rfl⟩⟩ <;> rintro ⟨⟩
  | cons delivery deliveries ih =>
    rw [followStream]
    dsimp only
    rw [← arrival]
    by_cases stopped : timing.cancelledBefore (following.arrival timing.resolution delivery.delay)
    · rw [if_pos stopped]
      refine ⟨[], List.nil_prefix, rfl, fun _ endless => ?_, ?_, ?_⟩
      · rw [Timing.cancelledBefore, endless] at stopped
        cases stopped
      · rintro ⟨⟩
      · rintro ⟨⟩
    rw [if_neg stopped]
    cases came : delivery.item with
    | error cause =>
      refine ⟨[], List.nil_prefix, rfl, ?_,
        fun _ => ⟨(Attempt.delivered_of_error came).symm, Attempt.lasts_of_error came⟩, ?_⟩ <;>
        rintro ⟨⟩
    | ok item =>
      dsimp only
      rw [if_pos (takes item following.state)]
      rcases ih { following with
          state := (store item following.state).2
          now := following.arrival timing.resolution delivery.delay } with ⟨handed, hands⟩
      have delivered : (Attempt.stream (delivery :: deliveries) staysOpen).delivered =
        item :: (Attempt.stream deliveries staysOpen).delivered := Attempt.delivered_of_ok came
      have lasts : (Attempt.stream (delivery :: deliveries) staysOpen).lasts =
        (Attempt.stream deliveries staysOpen).lasts := Attempt.lasts_of_ok came
      refine ⟨item :: handed, ?_, hands.state, hands.cancelled, ?_, ?_⟩
      · rw [delivered]
        exact List.cons_prefix_cons.mpr ⟨rfl, hands.first⟩
      · intro broken
        rw [delivered, lasts]
        exact (hands.broken broken).imp_left (congrArg _)
      · intro silent
        rw [delivered, lasts]
        exact (hands.silent silent).imp_left (congrArg _)

/-- What comes after an attempt is handed over behind what the attempt delivers. -/
theorem hands_goOn {attempt : Attempt ι} {script : List (Attempt ι)} {before : σ}
    {left : StreamEnd × Following σ} {handed : List ι}
    (stream : StreamHands timing store attempt before left handed)
    (later : ∀ next : Following σ, Hands timing store (Attempt.handedOver script) next.state
      (resubscribe timing store script next).2.state) :
    Hands timing store (Attempt.handedOver (attempt :: script)) before
      (goOn timing store script left).2.state := by
  rcases left with ⟨ending, next⟩
  rw [Attempt.handedOver_cons]
  cases ending with
  | broken =>
    rcases stream.broken rfl with ⟨rfl, ends⟩
    rcases later next with ⟨others, first, state, all⟩
    refine ⟨attempt.delivered ++ others, ?_, ?_, fun endless => ?_⟩
    · rw [ends]
      exact (List.prefix_append_right_inj _).mpr first
    · refine state.trans ?_
      rw [stream.state]
      exact List.foldl_append.symm
    · rw [ends, all endless]
      rfl
  | silent =>
    rcases stream.silent rfl with ⟨rfl, lasts⟩
    refine ⟨attempt.delivered, List.prefix_append _ _, stream.state, fun _ => ?_⟩
    rw [lasts, if_pos rfl, List.append_nil]
  | cancelled =>
    exact ⟨handed, stream.first.trans (List.prefix_append _ _), stream.state,
      fun endless => absurd endless (stream.cancelled rfl)⟩

/-- However often streams break, the store is handed what the attempts deliver. -/
theorem hands_resubscribe (takes : ∀ item state, (store item state).1 = true) (timing : Timing)
    (script : List (Attempt ι)) (following : Following σ) :
    Hands timing store (Attempt.handedOver script) following.state
      (resubscribe timing store script following).2.state := by
  induction script generalizing following with
  | nil =>
    rw [resubscribe_eq]
    split <;> exact ⟨[], List.nil_prefix, rfl, fun _ => rfl⟩
  | cons attempt script ih =>
    rw [resubscribe_eq]
    split
    · cases attempt with
      | refused cause =>
        have nothing : StreamHands timing store (.refused cause) following.state
            (.broken, following.permitted timing true) [] :=
          ⟨List.nil_prefix, rfl, nofun, fun _ => ⟨rfl, rfl⟩, nofun⟩
        exact hands_goOn nothing ih
      | stream deliveries staysOpen =>
        rcases streamHands_followStream takes timing staysOpen deliveries
          (following.permitted timing true) with ⟨handed, hands⟩
        exact hands_goOn hands ih
    · rename_i refused
      refine ⟨[], List.nil_prefix, rfl, fun endless => absurd ?_ refused⟩
      rw [wait, endless]
      exact RateLimiter.granted_take _ _ _

/-- A subscription whose first attempt is not refused hands over what its script delivers. -/
theorem hands_run (takes : ∀ item state, (store item state).1 = true) (timing : Timing)
    (script : List (Attempt ι)) (opened : ∀ cause later, script ≠ .refused cause :: later)
    (following : Following σ) :
    Hands timing store (Attempt.handedOver script) following.state
      (following.run timing store script).2.state := by
  cases script with
  | nil => exact ⟨[], List.nil_prefix, rfl, fun _ => rfl⟩
  | cons attempt script =>
    cases attempt with
    | refused cause => exact absurd rfl (opened cause script)
    | stream deliveries staysOpen =>
      rcases streamHands_followStream takes timing staysOpen deliveries
        following.subscribed with ⟨handed, hands⟩
      exact hands_goOn hands (hands_resubscribe takes timing script)

end Following

namespace Transaction

open ChannelStore

variable {store : ChannelStore}

/-- Following a subscription takes in the listing and then what the store is handed. -/
theorem state_follow {following : Following ChannelStore}
    (ascend : following.state.TransactionsAscend) (timing : Timing) (listing : List Transaction)
    (script : List (Attempt Transaction)) :
    ∃ handed, handed <+: Attempt.handedOver script ∧
      (follow ChannelStore.handler timing (.ok listing) script following).2.state =
        (following.state.takeIn listing).takeIn handed ∧
      (timing.cancel = none → (∀ cause later, script ≠ .refused cause :: later) →
        handed = Attempt.handedOver script) := by
  rw [follow, run_importAll ascend]
  dsimp only
  match script with
  | .refused cause :: script =>
    exact ⟨[], List.nil_prefix, rfl, fun _ opened => absurd rfl (opened cause script)⟩
  | [] => exact ⟨[], List.nil_prefix, rfl, fun _ _ => rfl⟩
  | .stream deliveries staysOpen :: script =>
    have takes : ∀ transaction held, (storeIn ChannelStore.handler transaction held).1 = true :=
      fun _ _ => rfl
    rcases Following.hands_run takes timing (.stream deliveries staysOpen :: script)
      (fun _ _ => nofun) { following with state := following.state.takeIn listing } with
      ⟨handed, first, state, all⟩
    exact ⟨handed, first, state, fun endless _ => all endless⟩

/-- Transactions that come in a listing and then on a stream are stored once under each key, and
the first one stays.  The import yields the number of keys that it adds; taking the listing over
again, then or later, adds none and changes nothing.  Which keys are stored does not depend on the
order in which the transactions come, nor on what comes in the listing and what on the stream.  So
it is for what a subscription hands over, whenever its streams break and its timers fire. -/
theorem transactions_stored_once (ascend : store.TransactionsAscend)
    (listing streamed : List Transaction) :
    let takeOver (listing : List Transaction) (held : ChannelStore) :=
      (importAll (.ok listing)).run.run (IngestCall.handler ChannelStore.handler false) (held, [])
    let imported := (takeOver listing store).2.1
    let after := imported.takeIn streamed
    takeOver listing store =
        (.ok (imported.transactionKeys \ store.transactionKeys).card, imported, []) ∧
      store.StoresOnce listing imported ∧ store.StoresOnce (listing ++ streamed) after ∧
      takeOver listing imported = (.ok 0, imported, []) ∧
      takeOver listing after = (.ok 0, after, []) ∧
      (∀ otherListing otherStreamed, (otherListing ++ otherStreamed).Perm (listing ++ streamed) →
        ((takeOver otherListing store).2.1.takeIn otherStreamed).transactionKeys =
          after.transactionKeys) ∧
      ∀ (timing : Timing) (script : List (Attempt Transaction))
        (following : Following ChannelStore), following.state = store →
        let followed := (follow ChannelStore.handler timing (.ok listing) script following).2.state
        ∃ handed, handed <+: Attempt.handedOver script ∧ followed = imported.takeIn handed ∧
          (timing.cancel = none → (∀ cause later, script ≠ .refused cause :: later) →
            handed = Attempt.handedOver script) := by
  intro takeOver imported after
  have left : ∀ listing, (takeOver listing store).2.1 = store.takeIn listing :=
    fun listing => congrArg (·.2.1) (run_importAll ascend listing false [])
  have stored : ∀ listing streamed,
      store.StoresOnce (listing ++ streamed) ((takeOver listing store).2.1.takeIn streamed) := by
    intro listing streamed
    rw [left, ← takeIn_append]
    exact ascend.storesOnce _
  have importedOnce : store.StoresOnce listing imported := by
    show store.StoresOnce listing (takeOver listing store).2.1
    rw [left]
    exact ascend.storesOnce listing
  have used : ∀ {held came}, store.StoresOnce came held → listing ⊆ came →
      ∀ transaction ∈ listing, transaction.key ∈ held.transactionKeys := by
    intro held came once within transaction listed
    rw [once.keys, Finset.mem_union, List.mem_toFinset]
    exact Or.inr (List.mem_map_of_mem (within listed))
  refine ⟨?_, importedOnce, stored listing streamed, ?_, ?_, ?_, ?_⟩
  · show takeOver listing store = (.ok ((takeOver listing store).2.1.transactionKeys \ _).card,
      (takeOver listing store).2.1, [])
    rw [left]
    exact run_importAll ascend listing false []
  · exact run_importAll_of_present importedOnce.ascend (used importedOnce (List.Subset.refl _))
      false []
  · exact run_importAll_of_present (stored listing streamed).ascend
      (used (stored listing streamed) (List.subset_append_left _ _)) false []
  · intro otherListing otherStreamed reordered
    rw [(stored otherListing otherStreamed).keys, (stored listing streamed).keys,
      List.toFinset_eq_of_perm _ _ (reordered.map Transaction.key)]
  · rintro timing script following rfl followed
    show ∃ handed, _ ∧ _ = (takeOver listing following.state).2.1.takeIn handed ∧ _
    rw [left]
    exact state_follow ascend timing listing script

/-- A payment of an amount at a time. -/
def seen (hash : String) (amount timeStamp : Int) : Transaction where
  hash
  amount
  confirmations := 0
  blockHash := ""
  blockHeight := 0
  timeStamp
  totalFees := 0
  destinations := []
  rawHex := ""
  label := ""

/-- A transaction whose time no calendar shows shares its key with one from the start of 1970, and
the one that is listed first stays; so does the one that was stored before, whatever amount is
reported later.  Of three transactions that are listed one is new, and so is one of two that come
on two streams with a failure and a refusal in between. -/
theorem transactions_stored_once_clash :
    let store := ChannelDeed.applyAll .empty [.call (.insertTransaction (seen "aa" 1 500))]
    let listing := [seen "bb" 2 9000000000000, seen "aa" 3 500, seen "bb" 4 0]
    let streamed := [seen "bb" 5 (-9000000000000), seen "cc" 6 400]
    let takeOver (held : ChannelStore) :=
      (importAll (.ok listing)).run.run (IngestCall.handler ChannelStore.handler false) (held, [])
    let after := (takeOver store).2.1.takeIn streamed
    let script : List (Attempt Transaction) :=
      [.stream [⟨0, .ok (seen "bb" 5 (-9000000000000))⟩,
          ⟨0, .error (.stream "subscribe_transactions" "reset")⟩] true,
        .refused (.call "subscribe_transactions" "unreachable"),
        .stream [⟨0, .ok (seen "cc" 6 400)⟩] true]
    store.TransactionsAscend ∧ (takeOver store).1 = .ok 1 ∧ (takeOver after).1 = .ok 0 ∧
      after.transactionAt? (⟨0, 0⟩, "bb") = some (seen "bb" 2 9000000000000) ∧
      after.transactionAt? (⟨500, 0⟩, "aa") = some (seen "aa" 1 500) ∧
      after.transactionAt? (⟨400, 0⟩, "cc") = some (seen "cc" 6 400) ∧
      after.transactionKeys = {(⟨500, 0⟩, "aa"), (⟨0, 0⟩, "bb"), (⟨400, 0⟩, "cc")} ∧
      (follow ChannelStore.handler ⟨0, none⟩ (.ok listing) script
        ⟨store, .fresh .standard, 0, [], []⟩).2.state = after := by
  intro store listing streamed takeOver after script
  have ascend : store.TransactionsAscend := .applyAll _
  rcases transactions_stored_once ascend listing streamed with
    ⟨counted, imported, once, _, again, _, followed⟩
  refine ⟨ascend, ?_, congrArg Prod.fst again, once.first _, once.first _, once.first _, ?_, ?_⟩
  · have added := congrArg (fun keys => (keys \ store.transactionKeys).card) imported.keys
    exact (congrArg Prod.fst counted).trans (congrArg Except.ok (added.trans (by decide)))
  · exact once.keys.trans (by decide)
  · rcases followed ⟨0, none⟩ script ⟨store, .fresh .standard, 0, [], []⟩ rfl with
      ⟨handed, _, state, all⟩
    have opened : ∀ cause later, script ≠ .refused cause :: later :=
      fun _ _ refused => nomatch (List.cons.inj refused).1
    rw [state, all rfl opened]
    rfl

end Transaction

end NodeSteward
