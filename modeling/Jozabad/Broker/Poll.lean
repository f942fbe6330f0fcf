import Jozabad.Broker.Tables
import Jozabad.Lib.Lts

/-!
# The broker's event loop (`poll.c`)

`sProcess` handles a received message, `sPing` the periodic check for idle workers.
Both return the new state and the messages sent.

What the code takes from outside is a parameter of the event: the clock, the result
of the one send that is looked at, the bytes that lie in memory after a frame, the
bits of a pointer that the allocator returns, the address of a stack slot.

`brokerSystem` is the broker as a transition system. Besides messages and ticks it
has steps for the signal that starts the shutdown and for the hash table changing its
traversal order, which it may do at any time.
-/

namespace Jozabad
namespace Broker

open JozaMsg

/-! ### State and environment -/

/-- The state of the broker. -/
structure JozaPoll where
  workers : WorkersTable
  channels : ChannelsTable
  /-- The last number given to a channel (`_lcn`). -/
  lcn : Lcn
  /-- The flag that controls the termination of the loop. -/
  shutdownNow : Bool
  /-- The program has exited. -/
  exited : Bool

/-- What the processing of a message takes from outside. -/
structure Env where
  /-- The clock, in microseconds. -/
  now : ℤ
  sock : Sock
  /-- Bits 32 to 47 of the pointer to a copied name. -/
  ynameHi : Lcn
  /-- What lies in memory after the identity frame. -/
  beyond : Frame
  /-- The address of a parameter on the stack. -/
  lcnAddr : ℕ
  /-- It is no small number. -/
  lcnAddr_ge : 2 ^ 16 ≤ lcnAddr

/-- Circumstances in which nothing goes wrong. -/
def quietEnv : Env where
  now := 0
  sock := {}
  ynameHi := 0x5555
  beyond := []
  lcnAddr := 0x7ffc00000000
  lcnAddr_ge := by decide

/-- What the check of one worker takes from outside: the clock when it is checked and
when it and its peer are refreshed, and the result of the send. -/
structure Visit where
  now : ℤ
  refresh : ℤ
  refreshOther : ℤ
  sock : Sock

/-! ### Closing a channel -/

/-- Remove the channel stored under `key`, as the broker does it: the channel itself is
passed in the place of one of its workers. `other` is the worker on the other side.
Where the removal frees the channel, the two writes that follow go to the freed block
and change nothing. -/
def sRemoveChannel (b : JozaPoll) (key : ℕ) (channel : Channel) (other : ℕ) : JozaPoll :=
  let channels := b.channels.remove (channelAsWorkerGetLcn channel).toNat
  { b with
    channels := channels.modify key channelAsWorkerSetRoleToReady
    workers := b.workers.modify other workerSetRoleToReady }

/-! ### Messages -/

/-- A message of a worker on a call goes to the state machine of the call. -/
def sProcessMsgFromConnectedWorker (b : JozaPoll) (key : ℕ) (worker : Worker) (msg : JozaMsg)
    (env : Env) : Except Fault (JozaPoll × List JozaMsg) :=
  match b.channels.get? worker.lcn.toNat, workersTableLookupOther b.workers key worker with
  -- Both are looked up before the dispatch.
  | some channel, some (other, _) => do
    let (channel, outs) ← channelDispatch channel env.sock msg (!workerIsXCaller worker)
    let b := { b with channels := b.channels.modify worker.lcn.toNat fun _ => channel }
    if channelIsClosed channel then
      return (sRemoveChannel b worker.lcn.toNat channel other, outs)
    else
      return (b, outs)
  -- The source returns with a warning where one of them is missing.
  | _, _ => .ok (b, [])

/-- A call request of a worker that is on no call. -/
def sProcessCallRequestFromUnconnectedWorker (b : JozaPoll) (key : ℕ) (worker : Worker)
    (msg : JozaMsg) (env : Env) : Except Fault (JozaPoll × List JozaMsg) :=
  if channelsTableIsFull b.channels then
    .ok (b, [diagnostic msg.address .networkCongestion .noChannelsAvailable])
  else if !workerIsAllowedOutgoingCall worker then
    .ok (b, [diagnostic msg.address .accessBarred .outputBarred])
  else
    match workersTableLookupByAddress b.workers msg.calledAddress with
    | none => .ok (b, [diagnostic msg.address .unknownAddress .unknownWorkerAddress])
    | some (otherKey, other) =>
      if !workerIsAllowedIncomingCall other then
        .ok (b, [diagnostic msg.address .accessBarred .inputBarred])
      -- The worker asked here is the caller.
      else if !workerIsAvailableForCall worker then
        .ok (b, [diagnostic msg.address .numberBusy .numberBusy])
      else do
        -- The number is kept in a static variable, which is where the next search starts.
        let lcn ← channelsTableFindFreeLcn b.channels env.lcnAddr b.lcn
        -- The roles are set before the channel is made.
        let workers := b.workers.modify key (workerSetRoleToXCaller lcn)
        let workers := workers.modify otherKey (workerSetRoleToYCallee lcn)
        let channels ← channelsTableAddNewChannel b.channels env.ynameHi lcn worker.zaddr
          worker.address other.zaddr other.address msg.packet.toNat msg.window.toNat
          msg.throughput.toNat
        return ({ b with workers, channels, lcn },
          [sendAddrCallRequest other.zaddr msg.callingAddress msg.calledAddress msg.packet
            msg.window msg.throughput msg.data])

/-- A message of a worker that is on no call. -/
def sProcessMsgFromUnconnectedWorker (b : JozaPoll) (key : ℕ) (worker : Worker) (msg : JozaMsg)
    (env : Env) : Except Fault (JozaPoll × List JozaMsg) :=
  -- During the shutdown a worker may only leave.
  if msg.id = .callRequest ∧ !b.shutdownNow then
    sProcessCallRequestFromUnconnectedWorker b key worker msg env
  else if msg.id = .directoryRequest ∧ !b.shutdownNow then
    .ok (b, [sendAddrDirectory msg.address (workersTableCreateDirectory b.workers)])
  else if msg.id = .disconnect then
    -- The worker is removed, and is not told.
    .ok ({ b with workers := b.workers.remove key }, [])
  else
    .ok (b, [])

/-- A message of a registered worker. -/
def sProcessMsgFromKnownWorker (b : JozaPoll) (key : ℕ) (worker : Worker) (msg : JozaMsg)
    (env : Env) : Except Fault (JozaPoll × List JozaMsg) :=
  let b := { b with workers := b.workers.modify key (workerUpdateAtime env.now) }
  let worker := workerUpdateAtime env.now worker
  match worker.role with
  | .xCaller | .yCallee => sProcessMsgFromConnectedWorker b key worker msg env
  | .ready => sProcessMsgFromUnconnectedWorker b key worker msg env

/-- A message on a connection that is not registered. The name of the directionality is
logged, which asserts that the code is that of one. -/
def sProcessMsgFromUnknownWorker (b : JozaPoll) (key : ℕ) (msg : JozaMsg) (env : Env) :
    Except Fault (JozaPoll × List JozaMsg) :=
  if msg.id = .connect then
    -- The table, and then the address, have to be free.
    if workersTableIsFull b.workers then
      .ok (b, [diagnostic msg.address .networkCongestion .noConnectionsAvailable])
    else if (workersTableLookupByAddress b.workers msg.callingAddress).isSome then
      .ok (b, [diagnostic msg.address .addressInUse .addressInUse])
    else
      match IoDir.ofCode msg.directionality.toNat with
      | none => .error .assertFailed
      | some iodir =>
        let worker := workerCreate msg.address msg.callingAddress msg.hostName iodir env.now
        .ok ({ b with workers := b.workers.set key worker },
          [sendAddrConnectIndication msg.address])
  else
    .ok (b, [])

/-- The entry point of message processing. -/
def sProcess (b : JozaPoll) (msg : JozaMsg) (env : Env) : Except Fault (JozaPoll × List JozaMsg) :=
  let diag := prevalidateMessage msg
  if diag ≠ .unspecified then
    -- A message that fails the sanity checks changes nothing at all.
    .ok (b, [diagnostic msg.address .malformedMessage diag])
  else
    let key := msgAddr2key msg.address env.beyond
    match b.workers.get? key with
    | some worker => sProcessMsgFromKnownWorker b key worker msg env
    | none => sProcessMsgFromUnknownWorker b key msg env

/-! ### Ticks -/

/-- A worker is pinged after this many milliseconds. -/
def POLL_WORKER_PING_TIMER : ℤ := 10000

/-- A worker is dropped after this many milliseconds. -/
def POLL_WORKER_REMOVAL_TIMEOUT : ℤ := 30000

/-- The milliseconds since the last message of a worker. -/
def idleTime (worker : Worker) (v : Visit) : ℤ :=
  (v.now - worker.atime).tdiv 1000

/-- Disconnect an idle worker from its call. -/
def sDisconnectIdleChannel (b : JozaPoll) (key : ℕ) (worker : Worker) (v : Visit) :
    Except Fault (JozaPoll × List JozaMsg) :=
  match b.channels.get? worker.lcn.toNat with
  | none => .error .nullDereference
  | some channel => do
    let (channel, outs) ←
      -- The dispatcher is given a disconnect, as if the worker had sent it.
      channelDispatch channel v.sock { id := .disconnect } (!workerIsXCaller worker)
    let b := { b with channels := b.channels.modify worker.lcn.toNat fun _ => channel }
    if channelIsClosed channel then
      match workersTableLookupOther b.workers key worker with
      | none => throw .nullDereference
      | some (other, _) =>
        let b := sRemoveChannel b worker.lcn.toNat channel other
        -- Both workers stay, and have the full timeout again.
        let workers := b.workers.modify key (workerUpdateAtime v.refresh)
        let workers := workers.modify other (workerUpdateAtime v.refreshOther)
        return ({ b with workers }, outs)
    else
      return (b, outs)

/-- Check one worker. The last component says whether its entry is to be removed. -/
def sPingWorker (b : JozaPoll) (key : ℕ) (worker : Worker) (v : Visit) :
    Except Fault (JozaPoll × List JozaMsg × Bool) :=
  if idleTime worker v > POLL_WORKER_REMOVAL_TIMEOUT ∨ b.shutdownNow then
    match worker.role with
    -- Only a worker on no call is removed.
    | .ready => .ok (b, [], true)
    | .xCaller | .yCallee => do
      let (b, outs) ← sDisconnectIdleChannel b key worker v
      return (b, outs, false)
  else if idleTime worker v > POLL_WORKER_PING_TIMER then
    .ok (b, [sendAddrEnq worker.zaddr], false)
  else
    .ok (b, [], false)

/-- Check the workers under the given keys, in this order, and remove those whose check
says so. -/
def sPingWorkers (visit : ℕ → Visit) : List ℕ → JozaPoll → Except Fault (JozaPoll × List JozaMsg)
  | [], b => .ok (b, [])
  | key :: keys, b =>
    match b.workers.get? key with
    | none => sPingWorkers visit keys b
    | some worker => do
      let (b, outs, delete) ← sPingWorker b key worker (visit key)
      let b := if delete then { b with workers := b.workers.remove key } else b
      let (b, outs') ← sPingWorkers visit keys b
      return (b, outs ++ outs')

/-- The timer callback. -/
def sPing (b : JozaPoll) (visit : ℕ → Visit) : Except Fault (JozaPoll × List JozaMsg) := do
  let (b, outs) ← sPingWorkers visit b.workers.keys b
  if b.shutdownNow ∧ workersTableIsEmpty b.workers then
    return ({ b with exited := true }, outs)
  else
    return (b, outs)

/-! ### The broker as a transition system -/

/-- What happens to the broker, with what it sends in answer. -/
inductive Event where
  /-- A message is received. -/
  | recv (msg : JozaMsg) (env : Env) (outs : List JozaMsg)
  /-- The timer expires. -/
  | ping (visit : ℕ → Visit) (outs : List JozaMsg)
  /-- The signal that starts the shutdown arrives. -/
  | signal
  /-- The workers table changes its traversal order. -/
  | rehash

/-- One step of the broker. -/
def JozaPoll.Step (b : JozaPoll) : Event → JozaPoll → Prop
  | .recv msg env outs, b' => b.exited = false ∧ sProcess b msg env = .ok (b', outs)
  | .ping visit outs, b' => b.exited = false ∧ sPing b visit = .ok (b', outs)
  | .signal, b' => b' = { b with shutdownNow := true }
  | .rehash, b' => ∃ workers, b.workers.SameEntries workers ∧ b' = { b with workers }

/-- The broker with empty tables, as it starts. -/
def JozaPoll.start : JozaPoll :=
  { workers := ∅, channels := ∅, lcn := LCN_MIN, shutdownNow := false, exited := false }

/-- The broker as a transition system. -/
def brokerSystem : Lts JozaPoll Event where
  Init b := b = .start
  Step := JozaPoll.Step

end Broker
end Jozabad
