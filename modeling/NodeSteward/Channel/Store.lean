import NodeSteward.Channel.Event
import NodeSteward.Channel.Record

/-!
# The store of channels

The store holds the channels, their events and the transactions of the wallet.  It keeps at most
one channel for a channel point and for a short identifier.  Events are only ever appended, and a
transaction is stored once under its instant and its hash.

Every operation is one atomic step.  A write that fails changes no channel, no event and no
transaction.
-/

namespace NodeSteward

/-- The tables of the channel store. -/
structure ChannelStore where
  /-- How many identifiers have been handed out. -/
  issued : Nat
  channels : Table Channel
  /-- The events, the oldest first. -/
  events : List ChannelEvent
  /-- The transactions in the order of their instants and hashes. -/
  transactions : List Transaction
  /-- Refuse events, to see how callers cope with it. -/
  refusesEvents : Bool
  /-- Refuse changes of channels, to see how callers cope with it. -/
  refusesUpdates : Bool

namespace ChannelStore

/-- The store without records. -/
def empty : ChannelStore where
  issued := 0
  channels := .empty
  events := []
  transactions := []
  refusesEvents := false
  refusesUpdates := false

def channel? (store : ChannelStore) (id : ChannelId) : Option Channel :=
  store.channels.get? id

/-- The channel with the given channel point. -/
def channelAt? (store : ChannelStore) (point : String) : Option Channel :=
  store.channels.rows.find? (fun channel => channel.point = point)

/-- True when a channel other than the one with identifier `except` has the short identifier. -/
def shortIdTaken (store : ChannelStore) (id : Option ShortChannelId) (except : ChannelId) : Bool :=
  id.isSome && store.channels.rows.any (fun channel =>
    channel.id ≠ except && channel.shortChannelId = id)

/-- Inserts a channel unless there is one with its channel point, which is returned unchanged
then.  An identifier is used up even when the short identifier turns out to be taken. -/
def ensureChannel (store : ChannelStore) (channel : NewChannel) :
    Except StoreError Channel × ChannelStore :=
  match store.channelAt? channel.point with
  | some held => (.ok held, store)
  | none =>
    let counted := { store with issued := store.issued + 1 }
    let stored := channel.withId ⟨(store.issued : Int) + 1⟩
    match stored.shortChannelId with
    | some id =>
      if store.shortIdTaken (some id) stored.id then
        (.error (.constraintViolation "ensure_channel"
          ("short_channel_id=Some(" ++ id.named ++ ")")), counted)
      else (.ok stored, { counted with channels := store.channels.insert stored })
    | none => (.ok stored, { counted with channels := store.channels.insert stored })

/-- Records where and when a transaction of a channel was confirmed. -/
def recordConfirmation (store : ChannelStore) (now : Timestamp) (id : ChannelId)
    (transaction : ChannelTransaction) (confirmation : Confirmation) :
    Except StoreError Unit × ChannelStore :=
  if store.refusesUpdates then (.error (.injected "record_confirmation"), store)
  else if store.channels.contains id then
    (.ok (),
      { store with
        channels := store.channels.modify id
          (fun channel =>
            { channel.applyConfirmation transaction confirmation with updatedOn := now })
          (fun channel => by cases transaction <;> rfl) })
  else (.error (.missingRow "record_confirmation" id.text), store)

/-- Gives a channel its short identifier. -/
def setShortChannelId (store : ChannelStore) (now : Timestamp) (id : ChannelId)
    (shortId : ShortChannelId) : Except StoreError Unit × ChannelStore :=
  if store.refusesUpdates then (.error (.injected "set_short_channel_id"), store)
  else if store.channels.contains id then
    if store.shortIdTaken (some shortId) id then
      (.error (.constraintViolation "set_short_channel_id"
        ("short_channel_id=" ++ shortId.text)), store)
    else
      (.ok (),
        { store with
          channels := store.channels.modify id
            (fun channel => { channel with shortChannelId := some shortId, updatedOn := now })
            (fun _ => rfl) })
  else (.error (.missingRow "set_short_channel_id" id.text), store)

/-- Changes the status of the channel with the given channel point, unless its status is not the
one from which the change starts.  Yields whether it was changed. -/
def changeStatus (store : ChannelStore) (now : Timestamp) (point : String)
    (change : StatusChange) : Except StoreError Bool × ChannelStore :=
  if store.refusesUpdates then (.error (.injected "change_status"), store)
  else
    match store.channelAt? point with
    | none => (.ok false, store)
    | some channel =>
      match channel.applyStatusChange? change with
      | none => (.ok false, store)
      | some _ =>
        (.ok true,
          { store with
            channels := store.channels.modify channel.id
              (fun held =>
                { ((held.applyStatusChange? change).getD held) with
                  id := held.id
                  updatedOn := now })
              (fun _ => rfl) })

def insertEvent (store : ChannelStore) (event : ChannelEvent) :
    Except StoreError Unit × ChannelStore :=
  if store.refusesEvents then (.error (.injected "insert_channel_event"), store)
  else (.ok (), { store with events := store.events ++ [event] })

/-- Those of some channel points that have an event of the given kind, each once. -/
def existingPoints (store : ChannelStore) (type : ChannelEventType) (points : List String) :
    List String :=
  ((store.events.filter (fun event => event.type = type && event.point ∈ points)).map
    ChannelEvent.point).eraseDups

/-- The events of a channel point in the order of their times. -/
def eventsAt (store : ChannelStore) (point : String) : List ChannelEvent :=
  (store.events.filter (fun event => event.point = point)).mergeSort
    (fun first second => !second.time.before first.time)

/-- Puts a transaction at its place, unless one with its instant and hash is there.  Yields
whether it was new. -/
def placeTransaction (transaction : Transaction) :
    List Transaction → Bool × List Transaction
  | [] => (true, [transaction])
  | held :: rest =>
    if transaction.timestamp = held.timestamp ∧ transaction.hash = held.hash then
      (false, held :: rest)
    else if transaction.timestamp.before held.timestamp ||
        (transaction.timestamp = held.timestamp && transaction.hash < held.hash) then
      (true, transaction :: held :: rest)
    else
      let (new, placed) := placeTransaction transaction rest
      (new, held :: placed)

/-- Stores a transaction unless it is stored already, and yields whether it was new. -/
def insertTransaction (store : ChannelStore) (transaction : Transaction) : Bool × ChannelStore :=
  let (new, transactions) := placeTransaction transaction store.transactions
  (new, { store with transactions })

end ChannelStore

end NodeSteward
