import Jozabad.Broker.Action

/-!
# The broker's channels (`channel.h`, `channel.c`)

A channel joins a caller X and a callee Y. `channelDispatch` looks up the action
for a message of one of them and carries it out: it changes the channel and hands
messages to the transport, listed in the order in which they are sent.

* The channel of a call is written through a `worker_t *` when it closes, which
  overwrites the middle of the pointer `yname`. A `NamePtr` therefore keeps, besides
  the text it refers to, the bits of the pointer that such a write hits.
* The result of a send is looked at in a single place. `Sock` says whether that
  send succeeds.
* `Effect` lists everything a dispatch can do, with its circumstances, for X and Y
  alike; `channelDispatch_effect` says that the list is complete. Properties of
  channels are proved by cases on it.
-/

namespace Jozabad
namespace Broker

/-! ### The channel structure -/

/-- Logical channel numbers (`lcn_t`). -/
abbrev Lcn := UInt16

/-- A pointer to a name, as far as the broker depends on it. -/
structure NamePtr where
  /-- Bits 32 to 47 of the pointer. -/
  hi : Lcn
  /-- What it points at, if anything. -/
  text : Option CString
  deriving DecidableEq

/-- Follow the pointer. -/
def NamePtr.read (p : NamePtr) : Except Fault CString :=
  match p.text with
  | some s => .ok s
  | none => .error .wildRead

/-- The state of a call between two workers. -/
structure Channel where
  /-- Logical Channel Number, a unique key. -/
  lcn : Lcn
  /-- Identity frame of X. -/
  xzaddr : Frame
  /-- Identity frame of Y. -/
  yzaddr : Frame
  xname : CString
  yname : NamePtr
  state : State
  /-- Number of the next packet to be sent by X. -/
  xps : ℕ
  /-- Smallest packet number that X will accept from Y. -/
  xpr : ℕ
  /-- Number of the next packet to be sent by Y. -/
  yps : ℕ
  /-- Smallest packet number that Y will accept from X. -/
  ypr : ℕ
  window : ℕ
  pkt : ℕ
  tput : ℕ
  deriving DecidableEq

/-- The outcome of the send whose result the broker looks at: success, or failure
with the diagnostic that `errno` stands for. -/
structure Sock where
  sendError : Option Diag := none
  deriving DecidableEq

/-- Allocate a channel. The log message converts both facilities, and so asserts
that they are in range. `ynameHi` is what the allocator chooses of the new pointer. -/
def channelCreate (ynameHi : Lcn) (lcn : Lcn) (xzaddr : Frame) (xname : CString) (yzaddr : Frame)
    (yname : CString) (pkt window tput : ℕ) : Except Fault Channel := do
  let _ ← packetBytes pkt
  let _ ← tputBps tput
  return { lcn, xzaddr, yzaddr, xname, yname := ⟨ynameHi, some yname⟩, state := .ready,
           xps := SEQ_MIN, xpr := SEQ_MIN, yps := SEQ_MIN, ypr := SEQ_MIN, window, pkt, tput }

/-- Whether a channel is closed. -/
def channelIsClosed (c : Channel) : Bool :=
  c.state = .ready

/-! ### The actions

Each returns the new state, or the new values of what it is given pointers to, and
the messages it sends. -/

open JozaMsg

/-- The punishment that resets the call: both sides are told. -/
def doReset (selfZaddr otherZaddr : Frame) (state : State) : State × List JozaMsg :=
  (.yResetRequest,
    [sendAddrResetRequest selfZaddr .localProcedureError (STATE2DIAG state),
     sendAddrResetRequest otherZaddr .remoteProcedureError (STATE2DIAG state)])

/-- The punishment that clears the call. Unlike a clear requested by a worker it closes
the channel immediately. -/
def doClear (selfZaddr otherZaddr : Frame) (state : State) : State × List JozaMsg :=
  (.ready,
    [sendAddrClearRequest selfZaddr .localProcedureError (STATE2DIAG state),
     sendAddrClearRequest otherZaddr .remoteProcedureError (STATE2DIAG state)])

/-- A hard stop: the other side is sent a clear request, and the channel closes. -/
def doIDisconnect (sock : Sock) (selfZaddr otherZaddr : Frame) : State × List JozaMsg :=
  (.ready,
    sendAddrClearRequest otherZaddr .workerOriginated .workerOriginated ::
      match sock.sendError with
      | none => []
      | some d => [diagnostic selfZaddr .zmqSendmsgErr d])

/-- The callee's answer to the call. The new window, packet and throughput facilities
are returned after the state. -/
def doYCallAccepted (selfZaddr otherZaddr : Frame) (M : JozaMsg) (selfName otherName : CString)
    (state : State) (selfWindow selfPkt selfTput : ℕ) :
    Except Fault (State × ℕ × ℕ × ℕ × List JozaMsg) :=
  let refuse (C : Cause) (D : Diag) : Except Fault (State × ℕ × ℕ × ℕ × List JozaMsg) :=
    .ok (state, selfWindow, selfPkt, selfTput, [diagnostic selfZaddr C D])
  let pkt := M.packet.toNat
  let tput := M.throughput.toNat
  let window := M.window.toNat
  -- The facilities may have been modified, but only by the rules of negotiation.
  packetNegotiate pkt selfPkt >>= fun pktOk =>
  if !pktOk then refuse .invalidFacilityRequest .invalidPacketFacilityNegotiation else
  windowNegotiate window selfWindow >>= fun windowOk =>
  if !windowOk then refuse .invalidFacilityRequest .invalidWindowFacilityNegotiation else
  tputNegotiate tput selfTput >>= fun tputOk =>
  if !tputOk then refuse .invalidFacilityRequest .invalidThroughputFacilityNegotiation else
  -- Forwarding to another worker is not supported, so both addresses have to match.
  if M.callingAddress ≠ otherName then
    refuse .invalidForwardingRequest .callerForwardingNotAllowed
  else if M.calledAddress ≠ selfName then
    refuse .invalidForwardingRequest .calleeForwardingNotAllowed
  else
    .ok (.dataTransfer, window, pkt, tput,
      [sendAddrCallAccepted otherZaddr M.callingAddress M.calledAddress M.packet M.window
        M.throughput M.data])

/-- Y has called X while X was waiting for Y to accept a call. -/
def doYCallCollision (selfZaddr : Frame) : State × List JozaMsg :=
  (.callCollision, [diagnostic selfZaddr .callCollision .callCollision])

/-- A graceful end of the call. -/
def doIClearRequest (selfZaddr otherZaddr : Frame) (M : JozaMsg) (isY : Bool) (state : State) :
    State × List JozaMsg :=
  -- A worker may only give the cause and the diagnostic of a worker.
  if M.cause ≠ Cause.workerOriginated.code then
    (state, [diagnostic selfZaddr .malformedMessage .invalidCause])
  else if M.diagnostic ≠ Diag.workerOriginated.code then
    (state, [diagnostic selfZaddr .malformedMessage .invalidDiagnostic])
  else
    (STATE_CLEAR_REQUEST isY, [sendAddrClearRequest otherZaddr .workerOriginated .workerOriginated])

/-- The answer to the peer's request to close the channel. All four counters are
zeroed. -/
def doIClearConfirmation (otherZaddr : Frame) : State × ℕ × ℕ × ℕ × ℕ × List JozaMsg :=
  (.ready, 0, 0, 0, 0, [sendAddrClearConfirmation otherZaddr])

/-- A data packet. The new send number and the new acknowledged number of the sender
are returned. -/
def doIData (selfZaddr otherZaddr : Frame) (M : JozaMsg)
    (packetSize windowSize selfPs selfPr otherPs otherPr : ℕ) :
    Except Fault (ℕ × ℕ × List JozaMsg) :=
  let refuse (D : Diag) : Except Fault (ℕ × ℕ × List JozaMsg) :=
    .ok (selfPs, selfPr, [diagnostic selfZaddr .localProcedureError D])
  let pr := M.pr.toNat
  let ps := M.ps.toNat
  let dataLen := M.data.length
  packetBytes packetSize >>= fun bytes =>
  -- The first check that fails is the one that is reported.
  if dataLen > bytes then refuse .dataTooLongForPacketFacility
  else if ps ≠ selfPs then refuse .psOutOfOrder
  -- The modulus of the upper end is `SEQ_MAX`, not the number of sequence numbers.
  else if !seqInRange ps otherPr (windowEnd otherPr windowSize) then refuse .psNotInWindow
  else if !seqInRange pr selfPr otherPs then refuse .prInvalidWindowUpdate
  else
    -- Here the counter wraps at the number of sequence numbers.
    .ok ((selfPs + 1) % (SEQ_MAX + 1), pr, [sendAddrData otherZaddr M.q M.pr M.ps M.data])

/-- An update of the range of packet numbers that the sender allows. -/
def doIRr (selfZaddr otherZaddr : Frame) (M : JozaMsg) (selfPr otherPs : ℕ) : ℕ × List JozaMsg :=
  if !seqInRange M.pr.toNat selfPr otherPs then
    (selfPr, [diagnostic selfZaddr .localProcedureError .prInvalidWindowUpdate])
  else (M.pr.toNat, [sendAddrRr otherZaddr M.pr])

/-- The same, with the request to stop sending. -/
def doIRnr (selfZaddr otherZaddr : Frame) (M : JozaMsg) (selfPr otherPs : ℕ) : ℕ × List JozaMsg :=
  if !seqInRange M.pr.toNat selfPr otherPs then
    (selfPr, [diagnostic selfZaddr .localProcedureError .prInvalidWindowUpdate])
  else (M.pr.toNat, [sendAddrRnr otherZaddr M.pr])

/-- A request that the peer reset flow control. -/
def doIReset (selfZaddr otherZaddr : Frame) (M : JozaMsg) : List JozaMsg :=
  if M.cause ≠ Cause.workerOriginated.code then
    [diagnostic selfZaddr .malformedMessage .invalidCause]
  else if M.diagnostic ≠ Diag.workerOriginated.code then
    [diagnostic selfZaddr .malformedMessage .invalidDiagnostic]
  else [sendAddrResetRequest otherZaddr .workerOriginated .workerOriginated]

/-- The answer to a request for a reset. All four counters are zeroed. -/
def doIResetConfirmation (otherZaddr : Frame) : State × ℕ × ℕ × ℕ × ℕ × List JozaMsg :=
  (.dataTransfer, 0, 0, 0, 0, [sendAddrResetConfirmation otherZaddr])

/-! ### The dispatcher -/

/-- Act on a message of X, or of Y if `isY`. The log message before the switch prints
both names, and so follows both pointers. -/
def channelDispatch (c : Channel) (sock : Sock) (M : JozaMsg) (isY : Bool) :
    Except Fault (Channel × List JozaMsg) := do
  let a ← actionGet c.state M.id isY
  let yname ← c.yname.read
  -- The sender is self, and the side that it talks to is other.
  let selfZaddr := if isY then c.yzaddr else c.xzaddr
  let otherZaddr := if !isY then c.yzaddr else c.xzaddr
  match a with
  -- The call is set up by the time a channel gets a message, so none of these happens.
  | .unspecified | .disconnect | .xConnect | .xCallRequest | .xCallAccepted | .yCallRequest =>
    throw .aborted
  | .discard => return (c, [])
  | .reset =>
    let (state, outs) := doReset selfZaddr otherZaddr c.state
    return ({ c with state }, outs)
  | .clear =>
    let (state, outs) := doClear selfZaddr otherZaddr c.state
    return ({ c with state }, outs)
  | .xDisconnect | .yDisconnect =>
    let (state, outs) := doIDisconnect sock selfZaddr otherZaddr
    return ({ c with state }, outs)
  | .xClearRequest =>
    let (state, outs) := doIClearRequest selfZaddr otherZaddr M false c.state
    return ({ c with state }, outs)
  | .yClearRequest =>
    let (state, outs) := doIClearRequest selfZaddr otherZaddr M true c.state
    return ({ c with state }, outs)
  | .xClearConfirmation | .yClearConfirmation =>
    let (state, xps, xpr, yps, ypr, outs) := doIClearConfirmation otherZaddr
    return ({ c with state, xps, xpr, yps, ypr }, outs)
  | .xData =>
    let (xps, xpr, outs) ←
      doIData selfZaddr otherZaddr M c.pkt c.window c.xps c.xpr c.yps c.ypr
    return ({ c with xps, xpr }, outs)
  | .yData =>
    let (yps, ypr, outs) ←
      doIData selfZaddr otherZaddr M c.pkt c.window c.yps c.ypr c.xps c.xpr
    return ({ c with yps, ypr }, outs)
  | .xRr =>
    let (xpr, outs) := doIRr selfZaddr otherZaddr M c.xpr c.yps
    return ({ c with xpr }, outs)
  | .yRr =>
    let (ypr, outs) := doIRr selfZaddr otherZaddr M c.ypr c.xps
    return ({ c with ypr }, outs)
  | .xRnr =>
    let (xpr, outs) := doIRnr selfZaddr otherZaddr M c.xpr c.yps
    return ({ c with xpr }, outs)
  | .yRnr =>
    let (ypr, outs) := doIRnr selfZaddr otherZaddr M c.ypr c.xps
    return ({ c with ypr }, outs)
  -- A reset request leaves the state alone.
  | .xReset | .yReset => return (c, doIReset selfZaddr otherZaddr M)
  | .xResetConfirmation =>
    let (state, xps, xpr, yps, ypr, outs) := doIResetConfirmation otherZaddr
    return ({ c with state, xps, xpr, yps, ypr }, outs)
  | .yResetConfirmation =>
    let (state, yps, ypr, xps, xpr, outs) := doIResetConfirmation otherZaddr
    return ({ c with state, xps, xpr, yps, ypr }, outs)
  | .yCallAccepted =>
    let (state, window, pkt, tput, outs) ←
      doYCallAccepted selfZaddr otherZaddr M yname c.xname c.state c.window c.pkt c.tput
    return ({ c with state, window, pkt, tput }, outs)
  | .yCallCollision =>
    let (state, outs) := doYCallCollision selfZaddr
    return ({ c with state }, outs)

end Broker
end Jozabad
