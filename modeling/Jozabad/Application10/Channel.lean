import Jozabad.Application10.Msg

/-!
# Channels (`channel.h`, and the server side of `channel.c`)

Each client has channels of its own, one for each logical channel number. Two channels
that are connected are each other's `peer`. A peer is a pointer to another channel, and
channels are named here by their places in memory, which are numbers.

What a channel does with a message that the server itself gives to it changes only this
channel, and it sends at most one message to the client. So this half of `channel.c` is
a function of the channel, `jzChannelProcessServerMessageInState`.
-/

namespace Jozabad
namespace Application10

/-! ### The channel structure -/

/-- Channel states (`channel_state_t`). -/
inductive ChannelState where
  | p1Ready | p2ClientWaiting | p3ServerWaiting | p5CallCollision | p6ClientClearRequest
  | p7ServerClearIndication | d1FlowControlReady | d2ClientResetRequest
  | d3ServerResetIndication
  deriving DecidableEq, Repr

/-- Possible active timers of a channel. -/
inductive JzChannelTimerType where
  | none | incomingCall | resetIndication | clearIndication
  deriving DecidableEq, Repr

/-- One microsecond is the unit of the monotonic clock. -/
def G_USEC_PER_SEC : ℕ := 1000000

def TIMER_INCOMING_CALL_DURATION_IN_SECONDS : ℕ := 18

def TIMER_RESET_INDICATION_DURATION_IN_SECONDS : ℕ := 6

def TIMER_CLEAR_INDICATION_DURATION_IN_SECONDS : ℕ := 6

/-- The channel structure. -/
structure JzChannel where
  lcn : UInt16
  /-- The client that the channel belongs to. -/
  parent : ℕ
  /-- The connection to another channel. -/
  peer : Option ℕ := none
  state : ChannelState := .p1Ready
  /-- The next packet that the channel expects from its client. -/
  clientPs : UInt16 := 0
  clientPr : UInt16 := 0
  peerPs : UInt16 := 0
  peerPr : UInt16 := 0
  window : UInt16 := 0
  throughput : UInt8 := 0
  packet : UInt8 := 0
  timerType : JzChannelTimerType := .none
  timerExpirationTime : ℕ := 0
  /-- How many times the timer has expired. -/
  timerCount : ℕ := 0
  deriving DecidableEq

def jzChannelNew (client : ℕ) (lcn : UInt16) : JzChannel :=
  { parent := client, lcn }

def jzChannelTimerReset (X : JzChannel) : JzChannel :=
  { X with timerType := .none, timerExpirationTime := 0, timerCount := 0 }

/-- Start a timer, or start it again. Only another timer begins to count anew. -/
def JzChannel.startTimer (now : ℕ) (timerType : JzChannelTimerType) (seconds : ℕ)
    (X : JzChannel) : JzChannel :=
  { X with
    timerCount := if X.timerType ≠ timerType then 0 else X.timerCount
    timerType
    timerExpirationTime := now + seconds * G_USEC_PER_SEC }

def jzChannelResetFlowControl (X : JzChannel) : JzChannel :=
  { X with peerPs := 0, peerPr := 0, clientPs := 0, clientPr := 0, state := .d1FlowControlReady }

/-- Store the facilities of a message. -/
def JzChannel.storeFacilities (msg : JzMsg) (X : JzChannel) : JzChannel :=
  { X with window := msg.window, throughput := msg.throughput, packet := msg.packet }

/-! ### Server messages

Each handler gives the channel afterwards and the message to its client. -/

def jzChannelDoServerClearIndication (now : ℕ) (X : JzChannel) (msg : JzMsg) :
    JzChannel × Option JzMsg :=
  -- The channel gives up its peer before its client has confirmed.
  ({ X with state := .p7ServerClearIndication, peer := none }.startTimer now .clearIndication
      TIMER_CLEAR_INDICATION_DURATION_IN_SECONDS,
    some (jzMsgNewClearRequest msg.lcn msg.cause msg.diagnostic))

def jzChannelDoServerIncomingCall (now : ℕ) (X : JzChannel) (msg : JzMsg) :
    JzChannel × Option JzMsg :=
  (({ X with state := .p3ServerWaiting }.storeFacilities msg).startTimer now .incomingCall
      TIMER_INCOMING_CALL_DURATION_IN_SECONDS,
    some (jzMsgNewCallRequest msg.lcn msg.callingAddress msg.calledAddress msg.packet msg.window
      msg.throughput msg.data))

def jzChannelDoServerCallCollision (X : JzChannel) : JzChannel × Option JzMsg :=
  ({ X with state := .p5CallCollision }, none)

def jzChannelDoServerCallConnected (X : JzChannel) (msg : JzMsg) : JzChannel × Option JzMsg :=
  ((jzChannelResetFlowControl X).storeFacilities msg,
    some (jzMsgNewCallAccepted msg.lcn msg.callingAddress msg.calledAddress msg.packet msg.window
      msg.throughput msg.data))

def jzChannelDoServerClearConfirmation (X : JzChannel) (msg : JzMsg) : JzChannel × Option JzMsg :=
  -- The channel gets back to data transfer, not to `P1`.
  ({ X with state := .d1FlowControlReady }, some (jzMsgNewClearConfirmation msg.lcn))

def jzChannelDoServerResetIndication (now : ℕ) (X : JzChannel) (msg : JzMsg) :
    JzChannel × Option JzMsg :=
  ({ X with state := .d3ServerResetIndication }.startTimer now .resetIndication
      TIMER_RESET_INDICATION_DURATION_IN_SECONDS,
    some (jzMsgNewResetRequest msg.lcn msg.cause msg.diagnostic))

def jzChannelDoServerResetConfirmation (X : JzChannel) (msg : JzMsg) : JzChannel × Option JzMsg :=
  (jzChannelResetFlowControl X, some (jzMsgNewResetConfirmation msg.lcn))

/-- `RR` and `RNR` differ only in the message that goes on to the client. -/
def JzChannel.takeReceipt (new : UInt16 → UInt16 → JzMsg) (X : JzChannel) (msg : JzMsg) :
    Except Fault (JzChannel × Option JzMsg) := do
  -- The sender's channel has checked the same, on its own counters.
  assertThat (seqInRange msg.pr.toNat X.peerPr.toNat X.clientPs.toNat)
  return ({ X with peerPr := msg.pr }, some (new msg.lcn msg.pr))

def jzChannelDoServerRr (X : JzChannel) (msg : JzMsg) : Except Fault (JzChannel × Option JzMsg) :=
  X.takeReceipt jzMsgNewRr msg

def jzChannelDoServerRnr (X : JzChannel) (msg : JzMsg) : Except Fault (JzChannel × Option JzMsg) :=
  X.takeReceipt jzMsgNewRnr msg

def jzChannelDoServerData (X : JzChannel) (msg : JzMsg) :
    Except Fault (JzChannel × Option JzMsg) := do
  assertThat (msg.data.length ≤ (← packetBytes X.packet.toNat))
  assertThat (msg.data.length ≠ 0)
  assertThat (seqInRange msg.ps.toNat X.peerPr.toNat
    (windowEnd X.peerPr.toNat X.window.toNat))
  -- The number of the packet is stored as it is, not the next one.
  return ({ X with peerPr := msg.pr, peerPs := msg.ps },
    some (jzMsgNewData msg.lcn msg.q msg.pr msg.ps msg.data))

/-- The switch over the states, and in each of them over the messages. What is not listed
is ignored. -/
def jzChannelProcessServerMessageInState (now : ℕ) (X : JzChannel) (msg : JzMsg) :
    Except Fault (JzChannel × Option JzMsg) :=
  match X.state, msg.id with
  | .p1Ready, .clearRequest => return jzChannelDoServerClearIndication now X msg
  | .p1Ready, .callRequest => return jzChannelDoServerIncomingCall now X msg
  | .p2ClientWaiting, .clearRequest => return jzChannelDoServerClearIndication now X msg
  | .p2ClientWaiting, .callRequest => return jzChannelDoServerCallCollision X
  | .p2ClientWaiting, .callAccepted => return jzChannelDoServerCallConnected X msg
  | .p3ServerWaiting, .clearRequest => return jzChannelDoServerClearIndication now X msg
  | .d1FlowControlReady, .clearRequest => return jzChannelDoServerClearIndication now X msg
  | .d1FlowControlReady, .resetRequest => return jzChannelDoServerResetIndication now X msg
  | .d1FlowControlReady, .data => jzChannelDoServerData X msg
  | .d1FlowControlReady, .rr => jzChannelDoServerRr X msg
  | .d1FlowControlReady, .rnr => jzChannelDoServerRnr X msg
  | .d2ClientResetRequest, .clearRequest => return jzChannelDoServerClearIndication now X msg
  | .d2ClientResetRequest, .resetRequest => return jzChannelDoServerResetConfirmation X msg
  | .d2ClientResetRequest, .resetConfirmation => return jzChannelDoServerResetConfirmation X msg
  | .d3ServerResetIndication, .clearRequest => return jzChannelDoServerClearIndication now X msg
  | .p5CallCollision, .clearRequest => return jzChannelDoServerClearIndication now X msg
  | .p5CallCollision, .callAccepted => return jzChannelDoServerCallConnected X msg
  -- A clear from both sides counts as the confirmation.
  | .p6ClientClearRequest, .clearRequest => return jzChannelDoServerClearConfirmation X msg
  | .p6ClientClearRequest, .clearConfirmation => return jzChannelDoServerClearConfirmation X msg
  | _, _ => return (X, none)

end Application10
end Jozabad
