import Jozabad.Application10.Channel
import Jozabad.Lib.Table

/-!
# The server's memory, and the client side of `channel.c`

The server has a list of clients, which only grows, and a heap of channels. The channel
table of a client leads from logical channel numbers to places in the heap. A place is
never used again. Reading through a pointer to a channel that has been freed is the fault
`wildRead`.

The handlers of messages from a client get the place of the channel. They pass the server
along, and what they send is logged with the channel that sends it.
-/

namespace Jozabad
namespace Application10

/-! ### Clients and the server -/

/-- Client states (`client_state_t`). -/
inductive ClientState where
  | c1Uninitialized | c2ClientRestartRequest | c3ServerRestartRequest | c4Initialized
  deriving DecidableEq, Repr

/-- Possible active timers of a client. -/
inductive JzClientTimerType where
  | none | restartIndication
  deriving DecidableEq, Repr

def JZ_CLIENT_TIMER_RESTART_INDICATION_DURATION_IN_SECONDS : ℕ := 6

/-- The client structure, without its input side. -/
structure JzClient where
  state : ClientState := .c1Uninitialized
  /-- The name under which the client is registered. -/
  address : Option CString := none
  iodir : UInt8 := 3
  timerType : JzClientTimerType := .none
  timerExpirationTime : ℕ := 0
  timerCount : ℕ := 0
  channels : Table UInt16 ℕ := ∅
  /-- Its socket is a source of the main loop. -/
  hasSource : Bool := true

/-- A message to a client, with the channel that sends it. -/
structure Sent where
  client : ℕ
  channel : Option ℕ
  msg : JzMsg
  deriving DecidableEq

/-- The server. -/
structure Server where
  clients : List JzClient := []
  heap : Table ℕ JzChannel := ∅
  /-- The next place in the heap. -/
  next : ℕ := 0
  /-- What has been sent in the current step. -/
  sent : List Sent := []

namespace Server

/-- Read through a pointer to a client. -/
def client (σ : Server) (i : ℕ) : Except Fault JzClient :=
  match σ.clients[i]? with
  | some C => .ok C
  | none => .error .wildRead

/-- Write through a pointer to a client. -/
def setClient (σ : Server) (i : ℕ) (C : JzClient) : Server :=
  { σ with clients := σ.clients.set i C }

/-- Read through a pointer to a channel. -/
def channel (σ : Server) (x : ℕ) : Except Fault JzChannel :=
  match σ.heap.get? x with
  | some X => .ok X
  | none => .error .wildRead

/-- Write through a pointer to a channel. -/
def setChannel (σ : Server) (x : ℕ) (X : JzChannel) : Server :=
  { σ with heap := σ.heap.modify x fun _ => X }

/-- Write to some fields of a channel. -/
def update (σ : Server) (x : ℕ) (f : JzChannel → JzChannel) : Except Fault Server := do
  let X ← σ.channel x
  return σ.setChannel x (f X)

end Server

/-- The text that stands for a client in log messages. It has the name of the
directionality in it. -/
def jzClientDiagnosticString (C : JzClient) : Except Fault Unit :=
  assertThat (iodirValidate C.iodir.toNat)

/-- Send a message to a client, on behalf of one of its channels or of none. -/
def jzClientSendMsg (i : ℕ) (channel : Option ℕ) (M : JzMsg) (σ : Server) :
    Except Fault Server := do
  let C ← σ.client i
  jzClientDiagnosticString C
  return { σ with sent := σ.sent ++ [{ client := i, channel, msg := M }] }

/-- The first client that is registered under `address`. -/
def jzClientListFindClient (address : Option CString) (σ : Server) : Except Fault (Option ℕ) :=
  match address with
  | some a => .ok (σ.clients.findIdx? fun C => C.address = some a)
  | none => if σ.clients.any fun C => C.address.isSome then .error .nullDereference else .ok none

/-- A new channel in the table of a client. -/
def openChannel (i : ℕ) (lcn : UInt16) (σ : Server) : Except Fault Server := do
  let C ← σ.client i
  return { σ.setClient i { C with channels := C.channels.set lcn σ.next } with
    heap := σ.heap.set σ.next (jzChannelNew i lcn), next := σ.next + 1 }

/-- The lowest number from `lcn` on that is not in the table, or the largest number. -/
def lowLcn (channels : Table UInt16 ℕ) : ℕ → UInt16 → UInt16
  | 0, lcn => lcn
  | fuel + 1, lcn =>
    if (channels.get? lcn).isSome ∧ lcn.toNat < JZ_MSG_MAX_LCN then lowLcn channels fuel (lcn + 1)
    else lcn

/-- Give a free channel of a client, if there is one. -/
def jzClientReserveLowChannel (i : ℕ) (σ : Server) : Except Fault (Option ℕ × Server) := do
  let C ← σ.client i
  let lcn := lowLcn C.channels JZ_MSG_MAX_LCN 1
  -- The largest number is never given away.
  if lcn.toNat < JZ_MSG_MAX_LCN then
    let σ' ← openChannel i lcn σ
    jzClientDiagnosticString C
    assertThat (C.channels.get? lcn).isNone
    return (some σ.next, σ')
  else
    return (none, σ)

/-- The line about a channel in the log, which has the addresses of both its ends. -/
def jzChannelDump (x : ℕ) (σ : Server) : Except Fault Unit := do
  let X ← σ.channel x
  let _ ← σ.client X.parent
  match X.peer with
  | some y =>
    let Y ← σ.channel y
    let _ ← σ.client Y.parent
    return ()
  | none => return ()

/-! ### Messages of the server -/

/-- A channel gets a message from the server itself. -/
def jzChannelProcessServerMessage (now x : ℕ) (msg : JzMsg) (σ : Server) :
    Except Fault Server := do
  let X ← σ.channel x
  let (X', msg2) ← jzChannelProcessServerMessageInState now X msg
  let σ := σ.setChannel x X'
  let σ ← match msg2 with
    | some msg2 => jzClientSendMsg X.parent (some x) msg2 σ
    | none => .ok σ
  jzChannelDump x σ
  return σ

/-- Pass on to the peer of `X`, if it has one, a message made from the peer. -/
def JzChannel.toPeer (now : ℕ) (X : JzChannel) (msg : JzChannel → JzMsg) (σ : Server) :
    Except Fault Server :=
  match X.peer with
  | some y => do
    let Y ← σ.channel y
    jzChannelProcessServerMessage now y (msg Y) σ
  | none => .ok σ

/-- Write to some fields of the peer of `X`, if it has one. -/
def JzChannel.updatePeer (X : JzChannel) (f : JzChannel → JzChannel) (σ : Server) :
    Except Fault Server :=
  match X.peer with
  | some y => σ.update y f
  | none => .ok σ

/-! ### Punishments -/

def jzChannelDoPunishmentClearRequest (now x : ℕ) (cause : ClearCause) (diagnostic : Diag)
    (σ : Server) : Except Fault Server := do
  jzChannelDump x σ
  let X ← σ.channel x
  let σ ← jzChannelProcessServerMessage now x
    (jzMsgNewClearRequest X.lcn cause.code diagnostic.code) σ
  -- The peer loses its pointer before it is told.
  let σ ← X.updatePeer (fun Y => { Y with peer := none }) σ
  -- What is local to one side is remote to the other one.
  let cause := if cause = .localProcedureError then .remoteProcedureError else cause
  X.toPeer now (fun Y => jzMsgNewClearRequest Y.lcn cause.code diagnostic.code) σ

def jzChannelDoPunishmentResetRequest (now x : ℕ) (cause : ResetCause) (diagnostic : Diag)
    (σ : Server) : Except Fault Server := do
  jzChannelDump x σ
  let X ← σ.channel x
  let σ ← jzChannelProcessServerMessage now x
    (jzMsgNewResetRequest X.lcn cause.code diagnostic.code) σ
  let cause := if cause = .localProcedureError then .remoteProcedureError else cause
  X.toPeer now (fun Y => jzMsgNewResetRequest Y.lcn cause.code diagnostic.code) σ

/-! ### Messages of a client -/

/-- Why a call request is rejected before the called client is looked for. -/
def callRequestError (iodir : UInt8) (msg : JzMsg) : Option Diag :=
  if iodir = 2 ∨ iodir = 3 then some .outgoingCallsBarred
  else if seqRngchk msg.window.toNat ≠ 0 then some .invalidWindowFacility
  else if tputRngchk msg.throughput.toNat ≠ 0 then some .invalidThroughputFacility
  else if packetRngchk msg.packet.toNat ≠ 0 then some .invalidPacketFacility
  else none

/-- The call reaches the called client. It gets the message as it came in. -/
def jzChannelConnect (now x y : ℕ) (msg : JzMsg) (σ : Server) : Except Fault Server := do
  let σ ← σ.update x fun X => { X with peer := some y }
  let σ ← σ.update y fun Y => { Y with peer := some x }
  let σ ← σ.update x (JzChannel.storeFacilities msg)
  -- The called channel gets the number of the caller in the message.
  let σ ← jzChannelProcessServerMessage now y msg σ
  -- The caller waits, whatever the called channel has done.
  σ.update x fun X => { X with state := .p2ClientWaiting }

def jzChannelDoClientCallRequest (now x : ℕ) (msg : JzMsg) (σ : Server) : Except Fault Server := do
  let X ← σ.channel x
  let C ← σ.client X.parent
  match callRequestError C.iodir msg with
  | some diagnostic =>
    jzChannelDoPunishmentClearRequest now x .localProcedureError diagnostic σ
  | none =>
    match ← jzClientListFindClient msg.calledAddress σ with
    | none => jzChannelDoPunishmentClearRequest now x .notObtainable .invalidCalledAddress σ
    | some peer =>
      let P ← σ.client peer
      -- A called client that bars incoming calls, or all calls.
      if P.iodir = 1 ∨ P.iodir = 3 then
        jzChannelDoPunishmentClearRequest now x .accessBarred .inputBarred σ
      else
        match ← jzClientReserveLowChannel peer σ with
        | (none, σ) =>
          jzChannelDoPunishmentClearRequest now x .numberBusy .noLogicalChannelAvailable σ
        | (some y, σ) => jzChannelConnect now x y msg σ

/-- Why a call may not be accepted. -/
def callAcceptedError (X : JzChannel) (msg : JzMsg) : Except Fault (Option Diag) := do
  if ¬ (← windowNegotiate msg.window.toNat X.window.toNat) then
    return some .invalidWindowFacilityNegotiation
  else if ¬ (← tputNegotiate msg.throughput.toNat X.throughput.toNat) then
    return some .invalidThroughputFacilityNegotiation
  else if ¬ (← packetNegotiate msg.packet.toNat X.packet.toNat) then
    return some .invalidPacketFacilityNegotiation
  else
    return none

def jzChannelDoClientCallAccepted (now x : ℕ) (msg : JzMsg) (σ : Server) : Except Fault Server := do
  let X ← σ.channel x
  match ← callAcceptedError X msg with
  | some diagnostic =>
    jzChannelDoPunishmentClearRequest now x .localProcedureError diagnostic σ
  | none =>
    let σ ← σ.update x (JzChannel.storeFacilities msg)
    assertThat X.peer.isSome
    let σ ← X.toPeer now (fun Y => jzMsgNewCallAccepted Y.lcn msg.callingAddress msg.calledAddress
      msg.packet msg.window msg.throughput msg.data) σ
    σ.update x jzChannelResetFlowControl

def jzChannelDoClientCallCollision (now x : ℕ) (msg : JzMsg) (σ : Server) :
    Except Fault Server := do
  let X ← σ.channel x
  let σ ← σ.update x (JzChannel.storeFacilities msg)
  assertThat X.peer.isSome
  let σ ← X.toPeer now (fun Y => jzMsgNewCallRequest Y.lcn msg.callingAddress msg.calledAddress
    msg.packet msg.window msg.throughput msg.data) σ
  σ.update x fun X => { X with state := .p5CallCollision }

/-- The peer is told, but the channel keeps its pointer to the peer. -/
def jzChannelDoClientClearRequest (now x : ℕ) (msg : JzMsg) (σ : Server) : Except Fault Server := do
  let X ← σ.channel x
  let σ ← X.toPeer now (fun Y => jzMsgNewClearRequest Y.lcn msg.cause msg.diagnostic) σ
  σ.update x fun X => { X with state := .p6ClientClearRequest }

def jzChannelDoClientClearConfirmation (x : ℕ) (σ : Server) : Except Fault Server :=
  σ.update x fun X => { X with state := .p1Ready }

def jzChannelDoClientResetRequest (now x : ℕ) (msg : JzMsg) (σ : Server) : Except Fault Server := do
  if ¬ CAUSE_IS_CLIENT_ORIGINATED msg.cause then
    -- A client may only give a cause of a client.
    jzChannelDoPunishmentResetRequest now x .localProcedureError .improperCauseCodeFromClient σ
  else
    let X ← σ.channel x
    let σ ← σ.update x fun X => { X with state := .d2ClientResetRequest }
    X.toPeer now (fun Y => jzMsgNewResetRequest Y.lcn msg.cause msg.diagnostic) σ

def jzChannelDoClientResetConfirmation (now x : ℕ) (σ : Server) : Except Fault Server := do
  let X ← σ.channel x
  let σ ← σ.update x jzChannelResetFlowControl
  X.toPeer now (fun Y => jzMsgNewResetConfirmation Y.lcn) σ

/-- What is wrong with a `DATA` message from the client. -/
def clientDataError (X : JzChannel) (msg : JzMsg) : Except Fault (Option Diag) := do
  -- A packet of the full size is already too long.
  if msg.data.length ≥ (← packetBytes X.packet.toNat) then
    return some .packetTooLong
  else if msg.data.length = 0 then
    return some .packetTooShort
  else if msg.ps ≠ X.clientPs ∨ ¬ seqInRange msg.ps.toNat X.peerPr.toNat
      (windowEnd X.peerPr.toNat X.window.toNat) then
    return some .invalidPs
  else if ¬ seqInRange msg.pr.toNat X.clientPr.toNat X.peerPs.toNat then
    return some .prInvalidWindowUpdate
  else
    return none

def jzChannelDoClientData (now x : ℕ) (msg : JzMsg) (σ : Server) : Except Fault Server := do
  let X ← σ.channel x
  match ← clientDataError X msg with
  | some diagnostic =>
    jzChannelDoPunishmentResetRequest now x .localProcedureError diagnostic σ
  | none =>
    -- The counter wraps at `SEQ_MAX` here, one earlier than in the broker.
    let σ ← σ.update x fun X =>
      { X with clientPs := UInt16.ofNat ((X.clientPs.toNat + 1) % SEQ_MAX), clientPr := msg.pr }
    X.toPeer now (fun Y => jzMsgNewData Y.lcn msg.q msg.pr msg.ps msg.data) σ

/-- `RR` and `RNR` differ only in the message that goes on to the peer. It keeps the
logical channel number of the sender. -/
def clientReceipt (new : UInt16 → UInt16 → JzMsg) (now x : ℕ) (msg : JzMsg) (σ : Server) :
    Except Fault Server := do
  let X ← σ.channel x
  if ¬ seqInRange msg.pr.toNat X.clientPr.toNat X.peerPs.toNat then
    jzChannelDoPunishmentResetRequest now x .localProcedureError .prInvalidWindowUpdate σ
  else
    let σ ← σ.update x fun X => { X with clientPr := msg.pr }
    -- The number in the message is not that of the peer.
    X.toPeer now (fun _ => new msg.lcn msg.pr) σ

def jzChannelDoClientRr (now x : ℕ) (msg : JzMsg) (σ : Server) : Except Fault Server :=
  clientReceipt jzMsgNewRr now x msg σ

def jzChannelDoClientRnr (now x : ℕ) (msg : JzMsg) (σ : Server) : Except Fault Server :=
  clientReceipt jzMsgNewRnr now x msg σ

/-- A channel whose state has changed no longer needs the timer of its old state. -/
def resetTimerOf (original : ChannelState) (timerType : JzChannelTimerType) (x : ℕ) (σ : Server) :
    Except Fault Server :=
  σ.update x fun X =>
    if X.state ≠ original ∧ X.timerType = timerType then jzChannelTimerReset X else X

/-- The switch over the states, and in each of them over the messages. -/
def jzChannelProcessMessageInState (now x : ℕ) (msg : JzMsg) (σ : Server) :
    Except Fault Server := do
  let X ← σ.channel x
  match X.state with
  | .p1Ready =>
    match msg.id with
    | .clearRequest => jzChannelDoClientClearRequest now x msg σ
    | .callRequest => jzChannelDoClientCallRequest now x msg σ
    | _ =>
      jzChannelDoPunishmentClearRequest now x .localProcedureError
        .invalidMessageForStateReady σ
  | .p2ClientWaiting =>
    match msg.id with
    | .clearRequest => jzChannelDoClientClearRequest now x msg σ
    | _ =>
      jzChannelDoPunishmentClearRequest now x .localProcedureError
        .invalidMessageForStateClientWaiting σ
  | .p3ServerWaiting =>
    (match msg.id with
      | .clearRequest => jzChannelDoClientClearRequest now x msg σ
      | .callRequest => jzChannelDoClientCallCollision now x msg σ
      | .callAccepted => jzChannelDoClientCallAccepted now x msg σ
      | _ =>
        jzChannelDoPunishmentClearRequest now x .localProcedureError
          .invalidMessageForStateServerWaiting σ) >>=
      resetTimerOf .p3ServerWaiting .incomingCall x
  | .d1FlowControlReady =>
    match msg.id with
    | .clearRequest => jzChannelDoClientClearRequest now x msg σ
    | .resetRequest => jzChannelDoClientResetRequest now x msg σ
    | .data => jzChannelDoClientData now x msg σ
    | .rr => jzChannelDoClientRr now x msg σ
    | .rnr => jzChannelDoClientRnr now x msg σ
    | _ =>
      jzChannelDoPunishmentResetRequest now x .localProcedureError
        .invalidMessageForStateFlowControlReady σ
  | .d2ClientResetRequest =>
    match msg.id with
    | .clearRequest => jzChannelDoClientClearRequest now x msg σ
    -- The request is repeated: ignored.
    | .resetRequest => return σ
    | _ =>
      jzChannelDoPunishmentResetRequest now x .localProcedureError
        .invalidMessageForStateClientResetRequest σ
  | .d3ServerResetIndication =>
    (match msg.id with
      | .clearRequest => jzChannelDoClientClearRequest now x msg σ
      | .resetRequest => jzChannelDoClientResetConfirmation now x σ
      | .resetConfirmation => jzChannelDoClientResetConfirmation now x σ
      -- Everything else is ignored, especially data and acknowledgements.
      | _ => .ok σ) >>=
      resetTimerOf .d3ServerResetIndication .resetIndication x
  | .p5CallCollision =>
    match msg.id with
    | .clearRequest => jzChannelDoClientClearRequest now x msg σ
    | _ =>
      jzChannelDoPunishmentClearRequest now x .localProcedureError
        .invalidMessageForStateCallCollision σ
  | .p6ClientClearRequest =>
    match msg.id with
    | .clearRequest => return σ
    | _ =>
      jzChannelDoPunishmentClearRequest now x .localProcedureError
        .invalidMessageForStateClientClearRequest σ
  | .p7ServerClearIndication =>
    (match msg.id with
      | .clearRequest => jzChannelDoClientClearConfirmation x σ
      | .clearConfirmation => jzChannelDoClientClearConfirmation x σ
      | _ => .ok σ) >>=
      resetTimerOf .p7ServerClearIndication .clearIndication x

def jzChannelProcessMessage (now x : ℕ) (msg : JzMsg) (σ : Server) : Except Fault Server := do
  let σ ← jzChannelProcessMessageInState now x msg σ
  jzChannelDump x σ
  return σ

/-! ### Timers -/

def jzChannelDoIncomingCallExpiration (now x : ℕ) (σ : Server) : Except Fault Server := do
  let X ← σ.channel x
  assertThat (X.timerCount = 1)
  let σ ← σ.update x jzChannelTimerReset
  jzChannelDoPunishmentClearRequest now x .localProcedureError .timeExpiredIncomingCall σ

def jzChannelDoResetIndicationExpiration (now x : ℕ) (σ : Server) : Except Fault Server := do
  let X ← σ.channel x
  -- The first time the reset is repeated, the second time the call is cleared.
  match X.timerCount with
  | 1 => jzChannelDoPunishmentResetRequest now x .localProcedureError .timeExpiredResetRequest σ
  | 2 => jzChannelDoPunishmentClearRequest now x .localProcedureError .timeExpiredResetRequest σ
  | _ => throw .assertFailed

def jzChannelDoClearIndicationExpiration (now x : ℕ) (σ : Server) : Except Fault Server := do
  let X ← σ.channel x
  -- The first time the clear is repeated, the second time the channel is set ready.
  match X.timerCount with
  | 1 => jzChannelDoPunishmentClearRequest now x .localProcedureError .timeExpiredClearRequest σ
  | 2 =>
    let σ ← X.updatePeer (fun Y => { Y with state := .p1Ready, peer := none }) σ
    let σ ← σ.update x fun X => jzChannelTimerReset { X with state := .p1Ready, peer := none }
    jzClientSendMsg X.parent (some x) (jzMsgNewDiagnostic Diag.timeExpiredClearRequest.code
      JZ_MSG_VERSION MsgId.clearRequest.code X.lcn) σ
  | _ => throw .assertFailed

def jzChannelCheckTimers (now x : ℕ) (σ : Server) : Except Fault Server := do
  let X ← σ.channel x
  if X.timerType = .none ∨ X.timerExpirationTime > now then
    return σ
  -- The expiration is counted before it is acted on.
  let σ ← σ.update x fun X => { X with timerCount := X.timerCount + 1 }
  match X.timerType with
  | .none => throw .assertFailed
  | .incomingCall => jzChannelDoIncomingCallExpiration now x σ
  | .resetIndication => jzChannelDoResetIndicationExpiration now x σ
  | .clearIndication => jzChannelDoClearIndicationExpiration now x σ

/-! ### Restarts -/

/-- The channel is disconnected, and its peer is sent a clear request. The two kinds of
restart differ in the cause that the peer is told. -/
def restartChannel (cause : ClearCause) (now x : ℕ) (diagnostic : UInt8) (σ : Server) :
    Except Fault Server := do
  let X ← σ.channel x
  let σ ← σ.update x fun X => { X with peer := none }
  -- The two channels are parted first, so that the peer answers for itself.
  let σ ← X.updatePeer (fun Y => { Y with peer := none }) σ
  let σ ← X.toPeer now (fun Y => jzMsgNewClearRequest Y.lcn cause.code diagnostic) σ
  σ.update x fun X => jzChannelTimerReset { X with state := .p1Ready }

def jzChannelDoClientRestartRequest (now x : ℕ) (diagnostic : UInt8) (σ : Server) :
    Except Fault Server :=
  restartChannel .clientOriginated now x diagnostic σ

def jzChannelDoServerRestartIndication (now x : ℕ) (diagnostic : UInt8) (σ : Server) :
    Except Fault Server :=
  restartChannel .remoteProcedureError now x diagnostic σ

/-- Free a channel. A peer that it still has loses its pointer back. -/
def jzChannelFree (x : ℕ) (σ : Server) : Except Fault Server := do
  let X ← σ.channel x
  let σ ← X.updatePeer (fun Y => { Y with peer := none }) σ
  return { σ with heap := σ.heap.remove x }

end Application10
end Jozabad
