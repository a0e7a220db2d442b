import NodeSteward.Channel.Requests

/-!
# A channel store that others use at the same time

Between two calls of one operation another writer may change a channel.  Such changes can be
arranged here: before each change of status the next status of a list is given to the channel,
whatever it was before, and a channel can be made to look gone when it is read again.
-/

namespace NodeSteward

/-- A channel store with the changes that another writer is about to make. -/
structure ContestedChannelStore where
  store : ChannelStore
  /-- The statuses that another writer sets, one before each change of status. -/
  interfering : List ChannelStatus
  /-- Let no channel be found by its channel point. -/
  hidesChannels : Bool

namespace ContestedChannelStore

/-- Lets the other writer move a channel to a status. -/
def interfere (store : ChannelStore) (now : Timestamp) (point : String)
    (status : ChannelStatus) : ChannelStore :=
  match store.channelAt? point with
  | none => store
  | some channel => (store.changeStatus now point ⟨channel.status, status, none, none⟩).2

/-- Answers calls like the store, among the arranged changes. -/
def handler : Handler channelCalls ContestedChannelStore := fun request contested =>
  match request, contested.interfering, contested.hidesChannels with
  | .changeStatus now point change, status :: later, _ =>
    let (answer, store) :=
      (interfere contested.store now point status).changeStatus now point change
    (answer, { contested with store, interfering := later })
  | .findChannel _, _, true => (.ok none, contested)
  | request, _, _ =>
    let (answer, store) := ChannelStore.handler request contested.store
    (answer, { contested with store })

/-- Answers calls like `handler`, except for those that are arranged to fail. -/
def faultyHandler : Handler channelCalls (Faulty ContestedChannelStore) :=
  Faulty.handler (I := channelCalls) ChannelCall.operation (fun _ error => .error error) handler

end ContestedChannelStore

end NodeSteward
