import Jozabad.Broker.Channel
import Jozabad.Lib.Table

/-!
# Workers and the two tables (`worker.c`, `workers_table.c`, `channels_table.c`)

The broker keeps its workers in a hash table under the keys of their connections,
and its channels in a hash table under their logical channel numbers, cast to
pointers. Keys are natural numbers here: the key of a connection, or the value of
the pointer.
-/

namespace Jozabad
namespace Broker

/-! ### Workers -/

/-- Whether a worker is on a call, and on which side of it. -/
inductive Role where
  | ready | xCaller | yCallee
  deriving DecidableEq, Repr

/-- A worker's connection to the broker. -/
structure Worker where
  /-- A plain-text name. -/
  address : CString
  hostname : CString
  /-- Identity frame of the connection. -/
  zaddr : Frame
  iodir : IoDir
  /-- The Logical Channel Number of the call, or 0. -/
  lcn : Lcn
  role : Role
  /-- Time of the last message, in microseconds. -/
  atime : ℤ
  deriving DecidableEq

/-- Allocate a worker. -/
def workerCreate (zaddr : Frame) (address hostname : CString) (iodir : IoDir) (now : ℤ) : Worker :=
  { address, hostname, zaddr, iodir, lcn := 0, role := .ready, atime := now }

/-- Whether the worker allows incoming calls. -/
def workerIsAllowedIncomingCall (w : Worker) : Bool :=
  iodirIncomingCallsAllowed w.iodir

/-- Whether the worker allows outgoing calls, as the code decides it. -/
def workerIsAllowedOutgoingCall (w : Worker) : Bool :=
  iodirIncomingCallsAllowed w.iodir

/-- Whether the worker can be called now. -/
def workerIsAvailableForCall (w : Worker) : Bool :=
  workerIsAllowedIncomingCall w ∧ w.role = .ready

/-- Whether the worker is on a call it initiated. -/
def workerIsXCaller (w : Worker) : Bool :=
  w.role = .xCaller

def workerSetRoleToReady (w : Worker) : Worker :=
  { w with lcn := 0, role := .ready }

def workerSetRoleToXCaller (lcn : Lcn) (w : Worker) : Worker :=
  { w with lcn, role := .xCaller }

def workerSetRoleToYCallee (lcn : Lcn) (w : Worker) : Worker :=
  { w with lcn, role := .yCallee }

def workerUpdateAtime (now : ℤ) (w : Worker) : Worker :=
  { w with atime := now }

/-! ### The workers table -/

/-- The workers, under the keys of their connections. -/
abbrev WorkersTable := Table ℕ Worker

/-- The maximum number of workers. -/
def WORKER_COUNT : ℕ := 1000

def workersTableIsEmpty (t : WorkersTable) : Bool :=
  t.size = 0

def workersTableIsFull (t : WorkersTable) : Bool :=
  t.size ≥ WORKER_COUNT

/-- The first worker with this name, with its key. -/
def workersTableLookupByAddress (t : WorkersTable) (address : CString) : Option (ℕ × Worker) :=
  t.find fun _ w => w.address = address

/-- The first worker, other than the one under `key`, with the same Logical Channel
Number. -/
def workersTableLookupOther (t : WorkersTable) (key : ℕ) (worker : Worker) : Option (ℕ × Worker) :=
  t.find fun k w => k ≠ key ∧ w.lcn = worker.lcn

/-- The directory: the name of each worker with its directionality and availability.
An entry is not overwritten. -/
def workersTableCreateDirectory (t : WorkersTable) : List (CString × String) :=
  t.entries.foldl (fun dir e =>
    let w := e.2
    if dir.any fun d => d.1 = w.address then dir
    else dir ++ [(w.address, iodirName w.iodir ++ "," ++
      if w.role = .ready then "AVAILABLE" else "BUSY")]) []

/-! ### The channels table -/

/-- The channels, under their numbers cast to pointers. -/
abbrev ChannelsTable := Table ℕ Channel

/-- The maximum number of channels. -/
def CHAN_COUNT : ℕ := 200

/-- The smallest valid Logical Channel Number. -/
def LCN_MIN : Lcn := 1

/-- A number that is free. The loop looks up `lcnAddr`, the address of its own
parameter, and not the number: it either stops at once or never. -/
def channelsTableFindFreeLcn (t : ChannelsTable) (lcnAddr : ℕ) (lcn : Lcn) : Except Fault Lcn :=
  if (t.get? lcnAddr).isSome then .error .diverged else .ok lcn

def channelsTableIsFull (t : ChannelsTable) : Bool :=
  t.size ≥ CHAN_COUNT

/-- Create a channel that waits for Y to accept the call, and store it under its
number. -/
def channelsTableAddNewChannel (t : ChannelsTable) (ynameHi : Lcn) (lcn : Lcn) (xzaddr : Frame)
    (xaddress : CString) (yzaddr : Frame) (yaddress : CString) (pkt window tput : ℕ) :
    Except Fault ChannelsTable := do
  let c ← channelCreate ynameHi lcn xzaddr xaddress yzaddr yaddress pkt window tput
  -- A channel that is stored under the number is replaced.
  return t.set lcn.toNat { c with state := .xCallRequest }

/-! ### A channel taken for a worker

`worker_get_lcn` and `worker_set_role_to_ready` are also called with a pointer to a
channel. With eight-byte pointers the `lcn` of a worker lies over bits 32 to 47 of
the channel's `yname`, and its `role` over the channel's `state`. -/

/-- `worker_get_lcn` on a channel. -/
def channelAsWorkerGetLcn (c : Channel) : Lcn :=
  c.yname.hi

/-- `worker_set_role_to_ready` on a channel. A pointer with bits knocked out refers to
nothing. -/
def channelAsWorkerSetRoleToReady (c : Channel) : Channel :=
  { c with yname := ⟨0, if c.yname.hi = 0 then c.yname.text else none⟩, state := .ready }

end Broker
end Jozabad
