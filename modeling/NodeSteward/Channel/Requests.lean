import NodeSteward.Calls
import NodeSteward.Channel.Store

/-!
# Calls to the channel store

The work on channels reaches the store only by the calls listed here.  A call that changes a
channel carries the instant at which it is made.
-/

namespace NodeSteward

/-- A call to the channel store. -/
inductive ChannelCall where
  | getChannel (id : ChannelId)
  | findChannel (point : String)
  | listChannels
  | ensureChannel (channel : NewChannel)
  | recordConfirmation (now : Timestamp) (id : ChannelId) (transaction : ChannelTransaction)
      (confirmation : Confirmation)
  | setShortChannelId (now : Timestamp) (id : ChannelId) (shortId : ShortChannelId)
  | changeStatus (now : Timestamp) (point : String) (change : StatusChange)
  | insertEvent (event : ChannelEvent)
  | existingPoints (type : ChannelEventType) (points : List String)
  | channelEvents (point : String)
  | insertTransaction (transaction : Transaction)
  | listTransactions

namespace ChannelCall

/-- What a call yields when it does not fail. -/
abbrev Value : ChannelCall → Type
  | getChannel _ => Option Channel
  | findChannel _ => Option Channel
  | listChannels => List Channel
  | ensureChannel _ => Channel
  | recordConfirmation _ _ _ _ => Unit
  | setShortChannelId _ _ _ => Unit
  | changeStatus _ _ _ => Bool
  | insertEvent _ => Unit
  | existingPoints _ _ => List String
  | channelEvents _ => List ChannelEvent
  | insertTransaction _ => Bool
  | listTransactions => List Transaction

/-- The name under which failures are arranged for a call. -/
def operation : ChannelCall → String
  | getChannel _ => "get_channel"
  | findChannel _ => "find_channel_by_point"
  | listChannels => "list_channels"
  | ensureChannel _ => "ensure_channel"
  | recordConfirmation _ _ _ _ => "record_confirmation"
  | setShortChannelId _ _ _ => "set_short_channel_id"
  | changeStatus _ _ _ => "change_status"
  | insertEvent _ => "insert_channel_event"
  | existingPoints _ _ => "existing_channel_points"
  | channelEvents _ => "channel_events"
  | insertTransaction _ => "insert_transaction"
  | listTransactions => "list_transactions"

end ChannelCall

/-- The calls to the channel store with their answers. -/
abbrev channelCalls : Interface where
  Call := ChannelCall
  Answer request := Except StoreError request.Value

namespace ChannelStore

/-- How the store answers calls. -/
def handler : Handler channelCalls ChannelStore
  | .getChannel id, store => (.ok (store.channel? id), store)
  | .findChannel point, store => (.ok (store.channelAt? point), store)
  | .listChannels, store => (.ok store.channels.rows, store)
  | .ensureChannel channel, store => store.ensureChannel channel
  | .recordConfirmation now id transaction confirmation, store =>
    store.recordConfirmation now id transaction confirmation
  | .setShortChannelId now id shortId, store => store.setShortChannelId now id shortId
  | .changeStatus now point change, store => store.changeStatus now point change
  | .insertEvent event, store => store.insertEvent event
  | .existingPoints type points, store => (.ok (store.existingPoints type points), store)
  | .channelEvents point, store => (.ok (store.eventsAt point), store)
  | .insertTransaction transaction, store =>
    let (new, store) := store.insertTransaction transaction
    (.ok new, store)
  | .listTransactions, store => (.ok store.transactions, store)

end ChannelStore

end NodeSteward
