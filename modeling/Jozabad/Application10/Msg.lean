import Jozabad.Facility
import Jozabad.Lib.CString

/-!
# Messages of the application server (`msg.h`, `msg.c`, `cause.h`, `diag.h`)

`JzMsg` is the message structure with the fields that are on the wire. A message is
made by one of the `jzMsgNew` functions, which leave the fields that its type does not
have at zero, or taken off the wire. The signature is the same constant in every message
and is not a field here.
-/

namespace Jozabad
namespace Application10

/-! ### Causes and diagnostics -/

/-- Specific errors (`diag_t`), in the order of their codes. -/
inductive Diag where
  | ok | packetTooShort | packetOnUnassignedLogicalChannel | unspecified | clientOriginated
  | noLogicalChannelAvailable | numberBusy | callCollision | systemError | eagain | enotsup | efsm
  | eterm | enotsock | eintr | efault | unidentifiablePacket | invalidSignature | invalidEnvelope
  | unknownVersion | unknownMessageType | packetTooLong | invalidLcn | invalidQ | invalidPr
  | invalidPs | invalidCallingAddress | invalidCalledAddress | invalidHostname
  | invalidPacketFacility | invalidThroughputFacility | invalidWindowFacility
  | invalidDirectionalityFacility | invalidCause | invalidDiagnostic | dataTooShort | dataTooLong
  | invalidPacketFacilityNegotiation | invalidWindowFacilityNegotiation
  | invalidThroughputFacilityNegotiation | invalidDirectionalityFacilityNegotiation
  | calleeForwardingNotAllowed | callerForwardingNotAllowed | outputBarred | inputBarred
  | incomingCallsBarred | outgoingCallsBarred | reservedAddress | addressInUse
  | unknownClientAddress | unknownReservedAddress | noConnectionsAvailable | noChannelsAvailable
  | invalidMessageForStateUnitialized | invalidMessageForStateClientRestartRequest
  | invalidMessageForStateServerRestartRequest | invalidMessageForStateInitialized
  | invalidMessageForStateReady | invalidMessageForStateXCallRequest
  | invalidMessageForStateClientWaiting | invalidMessageForStateServerWaiting
  | invalidMessageForStateFlowControlReady | invalidMessageForStateYCallRequest
  | invalidMessageForStateDataTransfer | invalidMessageForStateCallCollision
  | invalidMessageForStateClientClearRequest | invalidMessageForStateServerClearRequest
  | invalidMessageForStateClientResetRequest | invalidMessageForStateServerResetRequest
  | psOutOfOrder | psNotInWindow | prInvalidWindowUpdate | dataTooLongForPacketFacility
  | improperCauseCodeFromClient | timeExpiredIncomingCall | timeExpiredResetRequest
  | timeExpiredClearRequest | timeExpiredRestartRequest | dataRateExceeded | messageRateExceeded
  deriving DecidableEq, Repr

/-- The code of a diagnostic on the wire. -/
def Diag.code (d : Diag) : UInt8 :=
  UInt8.ofNat d.ctorIdx

/-- The causes of a clear request that the server gives (`clear_cause_t`). -/
inductive ClearCause where
  | clientOriginated | numberBusy | accessBarred | notObtainable | remoteProcedureError
  | localProcedureError
  deriving DecidableEq, Repr

/-- Their codes. -/
def ClearCause.code : ClearCause → UInt8
  | .clientOriginated => 0
  | .numberBusy => 1
  | .accessBarred => 11
  | .notObtainable => 13
  | .remoteProcedureError => 17
  | .localProcedureError => 19

/-- The causes of a reset request that the server gives (`reset_cause_t`). -/
inductive ResetCause where
  | remoteProcedureError | localProcedureError
  deriving DecidableEq, Repr

/-- Their codes. -/
def ResetCause.code : ResetCause → UInt8
  | .remoteProcedureError => 3
  | .localProcedureError => 5

/-- The cause of a restart request that the server gives (`restart_cause_t`). -/
inductive RestartCause where
  | localProcedureError
  deriving DecidableEq, Repr

/-- Its code. -/
def RestartCause.code : RestartCause → UInt8
  | .localProcedureError => 1

/-- Whether the client itself is the cause. -/
def CAUSE_IS_CLIENT_ORIGINATED (x : UInt8) : Bool :=
  x = 0 ∨ x ≥ 128

/-! ### The message structure -/

/-- The message types, in the order of their ids. -/
inductive MsgId where
  | data | rr | rnr | callRequest | callAccepted | clearRequest | clearConfirmation
  | resetRequest | resetConfirmation | connect | connectIndication | disconnect
  | disconnectIndication | diagnostic | directoryRequest | directory | enq | ack
  | restartRequest | restartConfirmation
  deriving DecidableEq, Repr

/-- The number of a message type. -/
def MsgId.code (id : MsgId) : UInt8 :=
  UInt8.ofNat id.ctorIdx

/-- The message type of a number. -/
def MsgId.ofCode : ℕ → Option MsgId
  | 0 => some .data
  | 1 => some .rr
  | 2 => some .rnr
  | 3 => some .callRequest
  | 4 => some .callAccepted
  | 5 => some .clearRequest
  | 6 => some .clearConfirmation
  | 7 => some .resetRequest
  | 8 => some .resetConfirmation
  | 9 => some .connect
  | 10 => some .connectIndication
  | 11 => some .disconnect
  | 12 => some .disconnectIndication
  | 13 => some .diagnostic
  | 14 => some .directoryRequest
  | 15 => some .directory
  | 16 => some .enq
  | 17 => some .ack
  | 18 => some .restartRequest
  | 19 => some .restartConfirmation
  | _ => none

@[simp] theorem MsgId.ofCode_code (id : MsgId) : MsgId.ofCode id.code.toNat = some id := by
  cases id <;> rfl

/-- The message structure. A field that a message type does not have is zero. -/
structure JzMsg where
  version : UInt8 := 1
  id : MsgId
  iodir : UInt8 := 0
  /-- Logical channel number. -/
  lcn : UInt16 := 0
  callingAddress : Option CString := none
  calledAddress : Option CString := none
  packet : UInt8 := 0
  window : UInt16 := 0
  throughput : UInt8 := 0
  cause : UInt8 := 0
  diagnostic : UInt8 := 0
  diagnosticVersion : UInt8 := 0
  diagnosticId : UInt8 := 0
  diagnosticLcn : UInt16 := 0
  q : UInt8 := 0
  pr : UInt16 := 0
  ps : UInt16 := 0
  data : List UInt8 := []
  deriving DecidableEq

def JZ_MSG_VERSION : UInt8 := 1

/-- The longest payload of a `DATA` message. -/
def JZ_MSG_MAX_DATA_SIZE : ℕ := 1024

/-- The longest body of a message that the parser takes. -/
def JZ_MSG_MAX_PAYLOAD_LENGTH : ℕ := JZ_MSG_MAX_DATA_SIZE + 8

/-- The longest address. -/
def JZ_MSG_MAX_ADDRESS_LENGTH : ℕ := 16

/-- The largest logical channel number. -/
def JZ_MSG_MAX_LCN : ℕ := 1024

/-! ### Making messages -/

def jzMsgNewConnect (callingAddress : Option CString) (iodir : UInt8) : JzMsg :=
  { id := .connect, callingAddress, iodir }

def jzMsgNewConnectIndication : JzMsg :=
  { id := .connectIndication }

def jzMsgNewDisconnect : JzMsg :=
  { id := .disconnect }

def jzMsgNewDisconnectIndication : JzMsg :=
  { id := .disconnectIndication }

def jzMsgNewCallRequest (lcn : UInt16) (callingAddress calledAddress : Option CString)
    (packet : UInt8) (window : UInt16) (throughput : UInt8) (data : List UInt8) : JzMsg :=
  { id := .callRequest, lcn, callingAddress, calledAddress, packet, window, throughput, data }

def jzMsgNewCallAccepted (lcn : UInt16) (callingAddress calledAddress : Option CString)
    (packet : UInt8) (window : UInt16) (throughput : UInt8) (data : List UInt8) : JzMsg :=
  { id := .callAccepted, lcn, callingAddress, calledAddress, packet, window, throughput, data }

def jzMsgNewClearRequest (lcn : UInt16) (cause diagnostic : UInt8) : JzMsg :=
  { id := .clearRequest, lcn, cause, diagnostic }

def jzMsgNewClearConfirmation (lcn : UInt16) : JzMsg :=
  { id := .clearConfirmation, lcn }

def jzMsgNewData (lcn : UInt16) (q : UInt8) (pr ps : UInt16) (data : List UInt8) : JzMsg :=
  { id := .data, lcn, q, pr, ps, data }

def jzMsgNewRr (lcn pr : UInt16) : JzMsg :=
  { id := .rr, lcn, pr }

def jzMsgNewRnr (lcn pr : UInt16) : JzMsg :=
  { id := .rnr, lcn, pr }

def jzMsgNewResetRequest (lcn : UInt16) (cause diagnostic : UInt8) : JzMsg :=
  { id := .resetRequest, lcn, cause, diagnostic }

def jzMsgNewResetConfirmation (lcn : UInt16) : JzMsg :=
  { id := .resetConfirmation, lcn }

def jzMsgNewDiagnostic (diagnostic version id : UInt8) (lcn : UInt16) : JzMsg :=
  { id := .diagnostic, diagnostic, diagnosticVersion := version, diagnosticId := id,
    diagnosticLcn := lcn }

def jzMsgNewRestartRequest (cause diagnostic : UInt8) : JzMsg :=
  { id := .restartRequest, cause, diagnostic }

def jzMsgNewRestartConfirmation : JzMsg :=
  { id := .restartConfirmation }

/-- Whether the message is one of those that a channel processes. -/
def jzMsgIsForChannel (M : JzMsg) : Bool :=
  (1 ≤ M.lcn.toNat ∧ M.lcn.toNat ≤ JZ_MSG_MAX_LCN) ∧
    (M.id = .callRequest ∨ M.id = .data ∨ M.id = .rr ∨ M.id = .rnr ∨ M.id = .callAccepted ∨
      M.id = .clearRequest ∨ M.id = .clearConfirmation ∨ M.id = .resetRequest ∨
      M.id = .resetConfirmation)

end Application10
end Jozabad
