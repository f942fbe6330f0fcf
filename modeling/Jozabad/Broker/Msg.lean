import Jozabad.Memory
import Jozabad.Lib.CString
import Mathlib.Data.Fintype.Defs
import Mathlib.Data.Finset.Insert
import Mathlib.Data.List.Induction
import Mathlib.Tactic.SplitIfs

/-!
# Messages of the broker (`joza_msg.h`, `msg.c`, `cause.h`, `diag.h`, `lib.c`)

`JozaMsg` is the message class with the fields that the broker reads or writes. A
received message carries in `address` the identity frame of the connection it came
from; a message to be sent carries there the identity frame of its destination.

`prevalidateMessage` is the check that every received message goes through first.
Its blocks overwrite each other's verdict, so that the last objection is the one
reported.
-/

namespace Jozabad
namespace Broker

/-- The content of a ZeroMQ frame. -/
abbrev Frame := List UInt8

/-! ### Causes and diagnostics -/

/-- Error categories (`cause_t`), in the order of their codes. -/
inductive Cause where
  | unspecified | workerOriginated | numberBusy | callCollision | zmqSendmsgErr
  | malformedMessage | invalidFacilityRequest | invalidForwardingRequest | accessBarred
  | addressInUse | unknownAddress | networkCongestion | localProcedureError
  | remoteProcedureError | brokerShutdown | quotaExceeded
  deriving DecidableEq, Repr

/-- The code of a cause on the wire. -/
def Cause.code (c : Cause) : UInt8 :=
  UInt8.ofNat c.ctorIdx

/-- The largest cause. -/
def CAUSE_MAX : Cause := .quotaExceeded

/-- Specific errors (`diag_t`), in the order of their codes. -/
inductive Diag where
  | unspecified | workerOriginated | numberBusy | callCollision
  | zmqError | zmqEagain | zmqEnotsup | zmqEfsm | zmqEterm | zmqEnotsock | zmqEintr | zmqEfault
  | invalidQ | prTooLarge | psTooLarge | invalidDataFrame
  | callingAddressTooShort | callingAddressTooLong | callingAddressFormatInvalid
  | calledAddressTooShort | calledAddressTooLong | calledAddressFormatInvalid
  | packetFacilityTooSmall | packetFacilityTooLarge
  | windowFacilityTooSmall | windowFacilityTooLarge
  | throughputFacilityTooSmall | throughputFacilityTooLarge
  | invalidCause | invalidDiagnostic
  | invalidQTooLarge | invalidPrTooSmall | invalidPrTooLarge | dataTooShort | dataTooLong
  | invalidDirectionalityFacility
  | invalidPacketFacilityNegotiation | invalidWindowFacilityNegotiation
  | invalidThroughputFacilityNegotiation | invalidDirectionalityNegotiation
  | calleeForwardingNotAllowed | callerForwardingNotAllowed
  | outputBarred | inputBarred
  | reservedAddress | addressInUse
  | unknownWorkerAddress | unknownReservedAddress
  | noConnectionsAvailable | noChannelsAvailable
  | invalidMessageForStateReady | invalidMessageForStateXCallRequest
  | invalidMessageForStateYCallRequest | invalidMessageForStateDataTransfer
  | invalidMessageForStateCallCollision | invalidMessageForStateXClearRequest
  | invalidMessageForStateYClearRequest | invalidMessageForStateXResetRequest
  | invalidMessageForStateYResetRequest
  | psOutOfOrder | psNotInWindow | prInvalidWindowUpdate | dataTooLongForPacketFacility
  | dataRateExceeded | messageRateExceeded
  deriving DecidableEq, Repr

/-- The code of a diagnostic on the wire. -/
def Diag.code (d : Diag) : UInt8 :=
  UInt8.ofNat d.ctorIdx

/-- The largest diagnostic. -/
def d_last : Diag := .messageRateExceeded

/-! ### The message class -/

/-- The message types, in the order of their ids. -/
inductive MsgId where
  | data | rr | rnr | callRequest | callAccepted | clearRequest | clearConfirmation
  | resetRequest | resetConfirmation | connect | connectIndication | disconnect
  | disconnectIndication | diagnostic | directoryRequest | directory | enq | ack
  deriving DecidableEq, Repr

instance : Fintype MsgId where
  elems := {.data, .rr, .rnr, .callRequest, .callAccepted, .clearRequest, .clearConfirmation,
    .resetRequest, .resetConfirmation, .connect, .connectIndication, .disconnect,
    .disconnectIndication, .diagnostic, .directoryRequest, .directory, .enq, .ack}
  complete id := by cases id <;> decide

/-- The number of a message type. -/
def MsgId.code (id : MsgId) : ℕ :=
  id.ctorIdx

/-- The message class. A field that a message type does not have is zero, as
`joza_msg_new` leaves it. -/
structure JozaMsg where
  /-- Identity frame of the peer. -/
  address : Frame := []
  id : MsgId
  q : UInt8 := 0
  pr : UInt16 := 0
  ps : UInt16 := 0
  data : Frame := []
  callingAddress : CString := .empty
  calledAddress : CString := .empty
  packet : UInt8 := 0
  window : UInt16 := 0
  throughput : UInt8 := 0
  cause : UInt8 := 0
  diagnostic : UInt8 := 0
  hostName : CString := .empty
  directionality : UInt8 := 0
  workers : List (CString × String) := []
  deriving DecidableEq

namespace JozaMsg

variable (address : Frame)

/-! Each of these is the message that the `joza_msg_send_addr_` function of that
name hands to the transport. -/

def sendAddrData (q : UInt8) (pr ps : UInt16) (data : Frame) : JozaMsg :=
  { address, id := .data, q, pr, ps, data }

def sendAddrRr (pr : UInt16) : JozaMsg :=
  { address, id := .rr, pr }

def sendAddrRnr (pr : UInt16) : JozaMsg :=
  { address, id := .rnr, pr }

def sendAddrCallRequest (callingAddress calledAddress : CString) (packet : UInt8)
    (window : UInt16) (throughput : UInt8) (data : Frame) : JozaMsg :=
  { address, id := .callRequest, callingAddress, calledAddress, packet, window, throughput, data }

def sendAddrCallAccepted (callingAddress calledAddress : CString) (packet : UInt8)
    (window : UInt16) (throughput : UInt8) (data : Frame) : JozaMsg :=
  { address, id := .callAccepted, callingAddress, calledAddress, packet, window, throughput, data }

def sendAddrClearRequest (cause : Cause) (diagnostic : Diag) : JozaMsg :=
  { address, id := .clearRequest, cause := cause.code, diagnostic := diagnostic.code }

def sendAddrClearConfirmation : JozaMsg :=
  { address, id := .clearConfirmation }

def sendAddrResetRequest (cause : Cause) (diagnostic : Diag) : JozaMsg :=
  { address, id := .resetRequest, cause := cause.code, diagnostic := diagnostic.code }

def sendAddrResetConfirmation : JozaMsg :=
  { address, id := .resetConfirmation }

def sendAddrConnectIndication : JozaMsg :=
  { address, id := .connectIndication }

def sendAddrDirectory (workers : List (CString × String)) : JozaMsg :=
  { address, id := .directory, workers }

def sendAddrEnq : JozaMsg :=
  { address, id := .enq }

end JozaMsg

/-- Send a `DIAGNOSTIC`. -/
def diagnostic (A : Frame) (C : Cause) (D : Diag) : JozaMsg :=
  { address := A, id := .diagnostic, cause := C.code, diagnostic := D.code }

/-! ### Names -/

/-- The number of bytes in a worker name, without its terminator. -/
def NAME_LEN : ℕ := 16

/-- `isalnum` in the C locale. -/
def isalnum (c : UInt8) : Bool :=
  (48 ≤ c ∧ c ≤ 57) ∨ (65 ≤ c ∧ c ≤ 90) ∨ (97 ≤ c ∧ c ≤ 122)

/-- The punctuation `%&+,.:=_` that may start a name. -/
def p_ini : List UInt8 := [37, 38, 43, 44, 46, 58, 61, 95]

/-- The punctuation that may go on with a name: the same, hyphen and space. -/
def p_mid : List UInt8 := p_ini ++ [45, 32]

/-- Whether `c` is a valid initial character of a name. -/
def valInit (c : UInt8) : Bool :=
  c ≠ 0 ∧ (isalnum c ∨ c ∈ p_ini)

/-- Whether `c` is a valid non-initial character of a name. -/
def valMid (c : UInt8) : Bool :=
  c ≠ 0 ∧ (isalnum c ∨ c ∈ p_mid)

/-- The loop of `safeascii` from index `i` on, with `left` characters to go. The
state is 1 at the first character, 2 in the middle of the name and 3 at its end. The
position of a bad character is kept in an `int`. -/
def safeasciiFrom (mem : List UInt8) : (left i state : ℕ) → (bad : ℤ) → ℤ
  | 0, _, _, bad => bad
  | left + 1, i, state, bad =>
    let c := mem.getD i 0
    let bad := if state = 1 ∧ !valInit c then toInt i else bad
    let state := if state = 1 then 2 else if state = 2 ∧ !valMid c then 3 else state
    if state = 3 then
      if c ≠ 0 then toInt i else if mem.getD (i - 1) 0 = 32 then toInt (i - 1) else bad
    else safeasciiFrom mem left (i + 1) state bad

/-- Whether a character array of length `n` contains only safe characters. -/
def safeascii (mem : List UInt8) (n : ℕ) : Bool :=
  safeasciiFrom mem n 0 1 (-1) = -1

/-! ### Keys -/

/-- The key of a connection: bytes 1 to 4 of its identity frame, little end first.
`beyond` is what lies in memory after the frame. -/
def msgAddr2key (z beyond : Frame) : ℕ :=
  let mem := z ++ beyond
  (mem.getD 1 0).toNat + 2 ^ 8 * (mem.getD 2 0).toNat + 2 ^ 16 * (mem.getD 3 0).toNat +
    2 ^ 24 * (mem.getD 4 0).toNat

/-! ### Prevalidation -/

/-- The largest valid Q number. -/
def Q_MAX : ℕ := 255

section Prevalidate

variable (M : JozaMsg)

/-- The objection to the Q number. -/
def objectQ : Option Diag :=
  if M.id = .data ∧ M.q.toNat > Q_MAX then some .invalidQTooLarge else none

/-- The objection to PR. -/
def objectPr : Option Diag :=
  if (M.id = .data ∨ M.id = .rr ∨ M.id = .rnr) ∧ M.pr.toNat > SEQ_MAX then some .prTooLarge
  else none

/-- The objection to PS. -/
def objectPs : Option Diag :=
  if M.id = .data ∧ M.ps.toNat > SEQ_MAX then some .psTooLarge else none

/-- The objection to the length of a `DATA` message's payload. The code of the
largest packet is a constant, and its range check passes. -/
def objectData : Option Diag :=
  if M.id = .data then
    if M.data.length > packetRate.getD p_last 0 then some .dataTooLong
    else if M.data.length = 0 then some .dataTooShort
    else none
  else none

/-- The objection to the length of a call message's payload. -/
def objectCallData : Option Diag :=
  if (M.id = .callRequest ∨ M.id = .callAccepted) ∧ M.data.length > packetRate.getD p_default 0 then
    some .dataTooLong
  else none

/-- The objection to the calling address. -/
def objectCallingAddress : Option Diag :=
  if M.id = .callRequest ∨ M.id = .callAccepted ∨ M.id = .connect then
    if M.callingAddress.nlength (NAME_LEN + 1) = 0 then some .callingAddressTooShort
    else if M.callingAddress.nlength (NAME_LEN + 1) > NAME_LEN then some .callingAddressTooLong
    else if !safeascii M.callingAddress.memory NAME_LEN then some .callingAddressFormatInvalid
    else none
  else none

/-- The objection to the called address or to a facility. The window is checked as a
sequence number. -/
def objectCall : Option Diag :=
  if M.id = .callRequest ∨ M.id = .callAccepted then
    if M.calledAddress.nlength (NAME_LEN + 1) = 0 then some .calledAddressTooShort
    else if M.calledAddress.nlength (NAME_LEN + 1) > NAME_LEN then some .calledAddressTooLong
    else if !safeascii M.calledAddress.memory NAME_LEN then some .calledAddressFormatInvalid
    else if packetRngchk M.packet.toNat < 0 then some .packetFacilityTooSmall
    else if packetRngchk M.packet.toNat > 0 then some .packetFacilityTooLarge
    else if seqRngchk M.window.toNat < 0 then some .windowFacilityTooSmall
    else if seqRngchk M.window.toNat > 0 then some .windowFacilityTooLarge
    else if tputRngchk M.throughput.toNat < 0 then some .throughputFacilityTooSmall
    else if tputRngchk M.throughput.toNat > 0 then some .throughputFacilityTooLarge
    else none
  else none

/-- The objection to cause and diagnostic. -/
def objectCause : Option Diag :=
  if M.id = .clearRequest ∨ M.id = .resetRequest ∨ M.id = .diagnostic then
    if M.cause > CAUSE_MAX.code then some .invalidCause
    else if M.diagnostic > d_last.code then some .invalidDiagnostic
    else none
  else none

/-- The objection to the directionality. -/
def objectDirectionality : Option Diag :=
  if M.id = .connect ∧ iodirValidate M.directionality.toNat = false then
    some .invalidDirectionalityFacility
  else none

/-- The objections, in the order in which they overwrite each other. -/
def objections : List (Option Diag) :=
  [objectQ M, objectPr M, objectPs M, objectData M, objectCallData M, objectCallingAddress M,
    objectCall M, objectCause M, objectDirectionality M]

/-- The verdict of the checks on a received message: the last objection, or
`d_unspecified`. -/
def prevalidateMessage : Diag :=
  (objections M).foldl (fun ret o => o.getD ret) .unspecified

/-! ### What a message without objection looks like -/

/-- The fields of a message that prevalidation has nothing against. -/
structure Prevalidated : Prop where
  pr_le : M.id = .data ∨ M.id = .rr ∨ M.id = .rnr → M.pr.toNat ≤ SEQ_MAX
  ps_le : M.id = .data → M.ps.toNat ≤ SEQ_MAX
  data_pos : M.id = .data → 0 < M.data.length
  data_le : M.id = .data → M.data.length ≤ 4096
  callData_le : M.id = .callRequest ∨ M.id = .callAccepted → M.data.length ≤ 128
  packet_ok : M.id = .callRequest ∨ M.id = .callAccepted → packetRngchk M.packet.toNat = 0
  window_ok : M.id = .callRequest ∨ M.id = .callAccepted → seqRngchk M.window.toNat = 0
  tput_ok : M.id = .callRequest ∨ M.id = .callAccepted → tputRngchk M.throughput.toNat = 0
  directionality_ok : M.id = .connect → iodirValidate M.directionality.toNat = true

variable {M}

private theorem none_of_foldl_getD {l : List (Option Diag)} {d : Diag} (hd : some d ∉ l)
    (h : l.foldl (fun ret o => o.getD ret) d = d) : ∀ o ∈ l, o = none := by
  induction l using List.reverseRecOn with
  | nil => simp
  | append_singleton l o ih =>
    rw [List.foldl_append, List.foldl_cons, List.foldl_nil] at h
    rw [List.mem_append, not_or] at hd
    cases o with
    | some x =>
      rw [Option.getD_some] at h
      exact absurd (by simp [h]) hd.2
    | none =>
      rw [Option.getD_none] at h
      intro o' ho'
      rcases List.mem_append.1 ho' with hl | hl
      · exact ih hd.1 h o' hl
      · exact List.mem_singleton.1 hl

private theorem ne_ite {p : Prop} [Decidable p] {o₁ o₂ o : Option Diag} (h₁ : o ≠ o₁)
    (h₂ : o ≠ o₂) : o ≠ if p then o₁ else o₂ := by
  split_ifs
  · exact h₁
  · exact h₂

/-- No check objects with `d_unspecified`. -/
private theorem unspecified_notMem_objections : some Diag.unspecified ∉ objections M := by
  simp only [objections, List.mem_cons, List.not_mem_nil, or_false, not_or]
  refine ⟨?_, ?_, ?_, ?_, ?_, ?_, ?_, ?_, ?_⟩
  · exact ne_ite (by decide) (by decide)
  · exact ne_ite (by decide) (by decide)
  · exact ne_ite (by decide) (by decide)
  · exact ne_ite (ne_ite (by decide) (ne_ite (by decide) (by decide))) (by decide)
  · exact ne_ite (by decide) (by decide)
  · unfold objectCallingAddress
    repeat' apply ne_ite
    all_goals decide
  · unfold objectCall
    repeat' apply ne_ite
    all_goals decide
  · exact ne_ite (ne_ite (by decide) (ne_ite (by decide) (by decide))) (by decide)
  · exact ne_ite (by decide) (by decide)

private theorem ite_some_eq_none {p : Prop} [Decidable p] {d : Diag} {o : Option Diag} :
    (if p then some d else o) = none ↔ ¬ p ∧ o = none := by
  by_cases hp : p
  · rw [if_pos hp]
    exact iff_of_false (Option.some_ne_none d) fun h => h.1 hp
  · rw [if_neg hp]
    exact (and_iff_right hp).symm

private theorem sign_eq_zero {x : ℤ} (h₁ : ¬ x < 0) (h₂ : ¬ x > 0) : x = 0 := by
  omega

/-- A message that the checks let through meets no objection at all. -/
theorem objections_eq_none (h : prevalidateMessage M = .unspecified) :
    ∀ o ∈ objections M, o = none :=
  none_of_foldl_getD unspecified_notMem_objections h

/-- The calling address of a `CONNECT` that the checks let through. -/
theorem callingAddress_checked (h : prevalidateMessage M = .unspecified) (hid : M.id = .connect) :
    (1 ≤ M.callingAddress.length ∧ M.callingAddress.length ≤ NAME_LEN) ∧
      safeascii M.callingAddress.memory NAME_LEN = true := by
  have hnone := objections_eq_none h (objectCallingAddress M) (by simp [objections])
  unfold objectCallingAddress at hnone
  rw [if_pos (.inr (.inr hid))] at hnone
  split_ifs at hnone with hshort hlong hsafe
  -- The length is looked at up to one byte more than the limit.
  simp only [CString.nlength] at hshort hlong
  refine ⟨⟨?_, ?_⟩, by simpa using hsafe⟩ <;> omega

/-- **Prevalidation.** A message that the checks let through has its fields in
range. -/
theorem prevalidated_of_unspecified (h : prevalidateMessage M = .unspecified) :
    Prevalidated M := by
  have hnone := objections_eq_none h
  simp only [objections, List.forall_mem_cons] at hnone
  obtain ⟨-, hpr, hps, hdata, hcallData, -, hcall, -, hdir, -⟩ := hnone
  -- The check of a call covers three facilities, each twice.
  have hcall' : M.id = .callRequest ∨ M.id = .callAccepted →
      packetRngchk M.packet.toNat = 0 ∧ seqRngchk M.window.toNat = 0 ∧
        tputRngchk M.throughput.toNat = 0 := by
    intro hid
    unfold objectCall at hcall
    rw [if_pos hid] at hcall
    simp only [ite_some_eq_none] at hcall
    obtain ⟨-, -, -, h₄, h₅, h₆, h₇, h₈, h₉, -⟩ := hcall
    exact ⟨sign_eq_zero h₄ h₅, sign_eq_zero h₆ h₇, sign_eq_zero h₈ h₉⟩
  refine ⟨?_, ?_, ?_, ?_, ?_, fun hid => (hcall' hid).1, fun hid => (hcall' hid).2.1,
    fun hid => (hcall' hid).2.2, ?_⟩
  · intro hid
    unfold objectPr at hpr
    split_ifs at hpr with hc
    exact not_lt.1 fun hlt => hc ⟨hid, hlt⟩
  · intro hid
    unfold objectPs at hps
    split_ifs at hps with hc
    exact not_lt.1 fun hlt => hc ⟨hid, hlt⟩
  · intro hid
    unfold objectData at hdata
    rw [if_pos hid] at hdata
    split_ifs at hdata with h₁ h₂
    exact Nat.pos_of_ne_zero h₂
  · intro hid
    unfold objectData at hdata
    rw [if_pos hid] at hdata
    split_ifs at hdata with h₁ h₂
    exact not_lt.1 h₁
  · intro hid
    unfold objectCallData at hcallData
    split_ifs at hcallData with hc
    exact not_lt.1 fun hlt => hc ⟨hid, hlt⟩
  · intro hid
    unfold objectDirectionality at hdir
    split_ifs at hdir with hc
    rw [hid] at hc
    simpa using hc

end Prevalidate

end Broker
end Jozabad
