import Jozabad.Application10.Msg
import Jozabad.Lib.Wire

/-!
# The binary format (`msg.c`)

A message on the wire is an envelope (signature, body length, padding, checksum) around
a body: version, id, logical channel number, and the fields of its type. The encoder
has one switch for the body length and one for the fields. The decoder looks into a
buffer whether a whole envelope is there before it takes the fields out.

The checksum function `crc32` is a parameter. A `Reader` that runs out of bytes fails
where the `GET_` macros jump to `premature`, and `throw` stands for the jump to
`malformed`.
-/

namespace Jozabad
namespace Application10

/-! ### The envelope -/

def JZ_MSG_SIGNATURE : ℕ := 0x4356537e

def JZ_MSG_ENVELOPE_SIGNATURE_SIZE : ℕ := 4

def JZ_MSG_ENVELOPE_HEADER_SIZE : ℕ := JZ_MSG_ENVELOPE_SIGNATURE_SIZE + 4

def JZ_MSG_ENVELOPE_FOOTER_SIZE : ℕ := 4

def JZ_MSG_ENVELOPE_SIZE : ℕ := JZ_MSG_ENVELOPE_HEADER_SIZE + JZ_MSG_ENVELOPE_FOOTER_SIZE

def JZ_MSG_PAYLOAD_HEADER_SIZE : ℕ := 4

/-- The zero bytes that fill up a body to a multiple of four. -/
def JZ_MSG_PADDING_LENGTH (bodySize : ℕ) : ℕ :=
  if bodySize % 4 ≠ 0 then 4 - bodySize % 4 else 0

/-- The longest raw block that the decoder takes. -/
def RAW_MAX : ℕ := 8192

/-! ### The encoder -/

def putNumber1 (host : UInt8) : List UInt8 :=
  putNumber 1 host.toNat

def putNumber2 (host : UInt16) : List UInt8 :=
  putNumber 2 host.toNat

/-- A string with a one-byte length. -/
def putString (host : CString) : List UInt8 :=
  putNumber 1 host.length ++ host.bytes

/-- `NULL` is written as the empty string. -/
def putAddress : Option CString → List UInt8
  | some host => putString host
  | none => putNumber1 0

/-- A raw block with a two-byte length. -/
def putRaw (host : List UInt8) : List UInt8 :=
  putNumber 2 host.length ++ host

def rawSize (host : List UInt8) : ℕ :=
  2 + host.length

/-- The size of a string field. -/
def addressSize (host : Option CString) : ℕ :=
  1 + (host.map CString.length).getD 0

/-- The body length, by the switch of its own that the encoder has for it. -/
def frameSize (m : JzMsg) : Except Fault ℕ :=
  match m.id with
  | .data => return JZ_MSG_PAYLOAD_HEADER_SIZE + 1 + 2 + 2 + rawSize m.data
  | .rr => return JZ_MSG_PAYLOAD_HEADER_SIZE + 2
  | .rnr => return JZ_MSG_PAYLOAD_HEADER_SIZE + 2
  | .callRequest =>
    return JZ_MSG_PAYLOAD_HEADER_SIZE + addressSize m.callingAddress + addressSize m.calledAddress
      + 1 + 2 + 1 + rawSize m.data
  | .callAccepted =>
    return JZ_MSG_PAYLOAD_HEADER_SIZE + addressSize m.callingAddress + addressSize m.calledAddress
      + 1 + 2 + 1 + rawSize m.data
  | .clearRequest => return JZ_MSG_PAYLOAD_HEADER_SIZE + 1 + 1
  | .clearConfirmation => return JZ_MSG_PAYLOAD_HEADER_SIZE
  | .resetRequest => return JZ_MSG_PAYLOAD_HEADER_SIZE + 1 + 1
  | .resetConfirmation => return JZ_MSG_PAYLOAD_HEADER_SIZE
  | .connect => return JZ_MSG_PAYLOAD_HEADER_SIZE + addressSize m.callingAddress + 1
  | .connectIndication => return JZ_MSG_PAYLOAD_HEADER_SIZE
  | .disconnect => return JZ_MSG_PAYLOAD_HEADER_SIZE
  | .disconnectIndication => return JZ_MSG_PAYLOAD_HEADER_SIZE
  | .diagnostic => return JZ_MSG_PAYLOAD_HEADER_SIZE + 1 + 1 + 1 + 2
  | .directoryRequest => return JZ_MSG_PAYLOAD_HEADER_SIZE
  -- The switch has no case for it, and its default asserts.
  | .directory => throw .aborted
  | .enq => return JZ_MSG_PAYLOAD_HEADER_SIZE
  | .ack => return JZ_MSG_PAYLOAD_HEADER_SIZE
  | .restartRequest => return JZ_MSG_PAYLOAD_HEADER_SIZE + 1 + 1
  | .restartConfirmation => return JZ_MSG_PAYLOAD_HEADER_SIZE

/-- The fields of a message, by the second switch. -/
def putFields (m : JzMsg) : List UInt8 :=
  match m.id with
  | .data => putNumber1 m.q ++ (putNumber2 m.pr ++ (putNumber2 m.ps ++ putRaw m.data))
  | .rr => putNumber2 m.pr
  | .rnr => putNumber2 m.pr
  | .callRequest =>
    putAddress m.callingAddress ++ (putAddress m.calledAddress ++ (putNumber1 m.packet ++
      (putNumber2 m.window ++ (putNumber1 m.throughput ++ putRaw m.data))))
  | .callAccepted =>
    putAddress m.callingAddress ++ (putAddress m.calledAddress ++ (putNumber1 m.packet ++
      (putNumber2 m.window ++ (putNumber1 m.throughput ++ putRaw m.data))))
  | .clearRequest => putNumber1 m.cause ++ putNumber1 m.diagnostic
  | .clearConfirmation => []
  | .resetRequest => putNumber1 m.cause ++ putNumber1 m.diagnostic
  | .resetConfirmation => []
  | .connect => putAddress m.callingAddress ++ putNumber1 m.iodir
  | .connectIndication => []
  | .disconnect => []
  | .disconnectIndication => []
  | .diagnostic =>
    putNumber1 m.diagnostic ++ (putNumber1 m.diagnosticVersion ++
      (putNumber1 m.diagnosticId ++ putNumber2 m.diagnosticLcn))
  | .directoryRequest => []
  -- This is never reached, since the size comes first.
  | .directory => []
  | .enq => []
  | .ack => []
  | .restartRequest => putNumber1 m.cause ++ putNumber1 m.diagnostic
  | .restartConfirmation => []

/-- The body of a message. -/
def putBody (m : JzMsg) : List UInt8 :=
  putNumber1 m.version ++ (putNumber1 m.id.code ++ (putNumber2 m.lcn ++ putFields m))

/-- Encode a message. The checksum is that of the `frameSize` bytes behind the header of
the envelope. -/
def jzMsgToByteArray (crc32 : List UInt8 → UInt32) (self : JzMsg) : Except Fault (List UInt8) := do
  let frameSize ← frameSize self
  let padding := JZ_MSG_PADDING_LENGTH frameSize
  let buf := putNumber 4 JZ_MSG_SIGNATURE ++ (putNumber 4 frameSize ++
    (putBody self ++ List.replicate padding 0))
  -- The padding is left out of the checksum.
  let crc := crc32 (bytesAt buf JZ_MSG_ENVELOPE_HEADER_SIZE frameSize)
  return buf ++ putNumber 4 crc.toNat

/-! ### The decoder -/

def getNumber1 : Reader Diag UInt8 := do
  let host ← getNumber .packetTooShort 1
  return UInt8.ofNat host

def getNumber2 : Reader Diag UInt16 := do
  let host ← getNumber .packetTooShort 2
  return UInt16.ofNat host

/-- The bytes go into a C string, which ends at the first NUL among them. -/
def getString : Reader Diag (Option CString) := do
  let stringSize ← getNumber .packetTooShort 1
  let host ← getBytes .packetTooShort stringSize
  return some (CString.ofBytes host)

/-- A raw block that is too long is left in the buffer, and no reason is given. -/
def getRaw : Reader Diag (List UInt8) := do
  let stringSize ← getNumber .packetTooShort 2
  ExceptT.mk fun input =>
    if input.length < stringSize then (.error .packetTooShort, input)
    else if stringSize > RAW_MAX then (.error .ok, input)
    else (.ok (input.take stringSize), input.drop stringSize)

/-- The fields of a message of type `id`. -/
def getFields (version : UInt8) (id : MsgId) (lcn : UInt16) : Reader Diag JzMsg := do
  match id with
  | .data =>
    let q ← getNumber1
    let pr ← getNumber2
    let ps ← getNumber2
    let data ← getRaw
    return { version, id, lcn, q, pr, ps, data }
  | .rr =>
    let pr ← getNumber2
    return { version, id, lcn, pr }
  | .rnr =>
    let pr ← getNumber2
    return { version, id, lcn, pr }
  | .callRequest =>
    let callingAddress ← getString
    let calledAddress ← getString
    let packet ← getNumber1
    let window ← getNumber2
    let throughput ← getNumber1
    let data ← getRaw
    return { version, id, lcn, callingAddress, calledAddress, packet, window, throughput, data }
  | .callAccepted =>
    let callingAddress ← getString
    let calledAddress ← getString
    let packet ← getNumber1
    let window ← getNumber2
    let throughput ← getNumber1
    let data ← getRaw
    return { version, id, lcn, callingAddress, calledAddress, packet, window, throughput, data }
  | .clearRequest =>
    let cause ← getNumber1
    let diagnostic ← getNumber1
    return { version, id, lcn, cause, diagnostic }
  | .clearConfirmation => return { version, id, lcn }
  | .resetRequest =>
    let cause ← getNumber1
    let diagnostic ← getNumber1
    return { version, id, lcn, cause, diagnostic }
  | .resetConfirmation => return { version, id, lcn }
  | .connect =>
    let callingAddress ← getString
    let iodir ← getNumber1
    return { version, id, lcn, callingAddress, iodir }
  | .connectIndication => return { version, id, lcn }
  | .disconnect => return { version, id, lcn }
  | .disconnectIndication => return { version, id, lcn }
  | .diagnostic =>
    let diagnostic ← getNumber1
    let diagnosticVersion ← getNumber1
    let diagnosticId ← getNumber1
    let diagnosticLcn ← getNumber2
    return { version, id, lcn, diagnostic, diagnosticVersion, diagnosticId, diagnosticLcn }
  | .directoryRequest => return { version, id, lcn }
  | .directory => return { version, id, lcn }
  | .enq => return { version, id, lcn }
  | .ack => return { version, id, lcn }
  | .restartRequest =>
    let cause ← getNumber1
    let diagnostic ← getNumber1
    return { version, id, lcn, cause, diagnostic }
  | .restartConfirmation => return { version, id, lcn }

/-- The padding is taken byte by byte. -/
def getPadding : ℕ → Reader Diag Unit
  | 0 => return ()
  | padding + 1 => do
    let _ ← getNumber1
    getPadding padding

/-- Everything behind the logical channel number. -/
def getTail (version id : UInt8) (lcn : UInt16) (padding : ℕ) : Reader Diag JzMsg := do
  if version ≠ 1 then
    throw .unknownVersion
  match MsgId.ofCode id.toNat with
  | none => throw .unknownMessageType
  | some id =>
    let self ← getFields version id lcn
    -- The checksum is skipped, since the caller has compared it.
    getPadding padding
    let _ ← getNumber .packetTooShort 4
    return self

/-- What the decoder makes of an envelope: the header, which is always there, the
message or the reason why it is invalid, and the number of bytes that it took. -/
structure Unpacked where
  version : UInt8
  id : UInt8
  lcn : UInt16
  self : Except Diag JzMsg
  packedSize : ℕ

/-- Take the rest of an envelope, of `ceiling` bytes in all. Bytes that are left over make
the message invalid. -/
def unpack (version id : UInt8) (lcn : UInt16) (padding ceiling : ℕ) (tail : List UInt8) :
    Unpacked :=
  let (self, left) := (getTail version id lcn padding).on tail
  let packedSize := ceiling - left.length
  match self with
  | .ok self =>
    -- A whole message, but bytes of the envelope may be left.
    { version, id, lcn, packedSize
      self := if packedSize < ceiling then .error .packetTooLong else .ok self }
  | .error invalidity => { version, id, lcn, packedSize, self := .error invalidity }

/-- Decode the envelope at the front of a buffer. Behind the end of the buffer there is
nothing to be read. -/
def jzMsgNewFromData (buf : List UInt8) : Except Fault Unpacked := do
  assertThat (JZ_MSG_ENVELOPE_SIZE < buf.length)
  assertThat (numberAt buf 0 4 = JZ_MSG_SIGNATURE)
  let frameLength := numberAt buf 4 4
  let padding := JZ_MSG_PADDING_LENGTH frameLength
  let ceiling := JZ_MSG_ENVELOPE_SIZE + frameLength + padding
  -- The source does not compare the two, and reads on behind the buffer.
  if buf.length < ceiling then
    throw .wildRead
  let version := UInt8.ofNat (numberAt buf 8 1)
  let id := UInt8.ofNat (numberAt buf 9 1)
  let lcn := UInt16.ofNat (numberAt buf 10 2)
  return unpack version id lcn padding ceiling (bytesAt buf 12 (ceiling - 12))

/-! ### Looking into a buffer -/

def jzBufferBeginsWithSignature (buf : List UInt8) : Bool :=
  ¬ buf.length < JZ_MSG_ENVELOPE_SIGNATURE_SIZE ∧ numberAt buf 0 4 = JZ_MSG_SIGNATURE

def jzBufferMsgBodyLength (buf : List UInt8) : Except Fault ℕ := do
  assertThat (buf.length ≥ JZ_MSG_ENVELOPE_HEADER_SIZE)
  return numberAt buf 4 4

def jzBufferMsgLcn (buf : List UInt8) : Except Fault ℕ := do
  assertThat (buf.length ≥ JZ_MSG_ENVELOPE_HEADER_SIZE + JZ_MSG_PAYLOAD_HEADER_SIZE)
  return numberAt buf 10 2

/-- The size of the envelope is computed with 32 bits. -/
def jzBufferContainsAMessage (buf : List UInt8) : Except Fault Bool := do
  if buf.length < JZ_MSG_ENVELOPE_SIZE then
    return false
  if ¬ jzBufferBeginsWithSignature buf then
    return false
  let bodyLength ← jzBufferMsgBodyLength buf
  return ¬ buf.length <
    (JZ_MSG_ENVELOPE_SIZE + bodyLength + JZ_MSG_PADDING_LENGTH bodyLength) % 2 ^ 32

def jzBufferMsgBinarySize (buf : List UInt8) : Except Fault ℕ := do
  assertThat (buf.length ≥ JZ_MSG_ENVELOPE_SIZE)
  assertThat (jzBufferBeginsWithSignature buf)
  let bodyLength ← jzBufferMsgBodyLength buf
  assertThat (bodyLength ≤ JZ_MSG_MAX_PAYLOAD_LENGTH)
  return JZ_MSG_ENVELOPE_SIZE + bodyLength + JZ_MSG_PADDING_LENGTH bodyLength

def jzBufferMsgEnvelopeIsValid (crc32 : List UInt8 → UInt32) (buf : List UInt8) :
    Except Fault Bool := do
  if buf.length < JZ_MSG_ENVELOPE_SIZE then
    return false
  if ¬ jzBufferBeginsWithSignature buf then
    return false
  let bodyLength ← jzBufferMsgBodyLength buf
  -- The sizes below are small enough not to overflow.
  if bodyLength > JZ_MSG_MAX_PAYLOAD_LENGTH then
    return false
  let padding := JZ_MSG_PADDING_LENGTH bodyLength
  if buf.length < JZ_MSG_ENVELOPE_HEADER_SIZE + bodyLength + padding + 4 then
    throw .wildRead
  let crcMeasured := crc32 (bytesAt buf JZ_MSG_ENVELOPE_HEADER_SIZE bodyLength)
  let crc := numberAt buf (JZ_MSG_ENVELOPE_HEADER_SIZE + bodyLength + padding) 4
  return crc = crcMeasured.toNat

/-! ### Parsing -/

/-- What is found at the front of a buffer. -/
structure Parsed where
  /-- The number of bytes that were parsed, or zero if there is not enough yet. -/
  siz : ℕ := 0
  /-- The message, or the diagnostic that stands for a bad one. -/
  msg : Option JzMsg := none
  /-- A bad message was skipped. -/
  isError : Bool := false
  /-- The buffer is hopelessly corrupt. -/
  isFatal : Bool := false
  deriving DecidableEq

/-- Given a buffer of received bytes, find out what is at its front. The diagnostic for a
bad message is made from the header that its structure held. -/
def jzBufferParseIntoMessage (crc32 : List UInt8 → UInt32) (buf : List UInt8) :
    Except Fault Parsed := do
  assertThat (buf.length > 0)
  if buf.length < JZ_MSG_ENVELOPE_SIZE then
    return {}
  else if ¬ jzBufferBeginsWithSignature buf then
    -- There is no way to find the next message.
    return { isFatal := true }
  else if ¬ (← jzBufferContainsAMessage buf) then
    return {}
  -- From here on a whole envelope is there, and it is taken off in any case.
  else if ¬ (← jzBufferMsgEnvelopeIsValid crc32 buf) then
    return { siz := ← jzBufferMsgBinarySize buf
             msg := some (jzMsgNewDiagnostic Diag.invalidEnvelope.code 0 0 0), isError := true }
  else if (← jzBufferMsgBodyLength buf) < JZ_MSG_PAYLOAD_HEADER_SIZE then
    return { siz := ← jzBufferMsgBinarySize buf
             msg := some (jzMsgNewDiagnostic Diag.packetTooShort.code 0 0 0), isError := true }
  else if (← jzBufferMsgLcn buf) > JZ_MSG_MAX_LCN then
    return { siz := ← jzBufferMsgBinarySize buf
             msg := some (jzMsgNewDiagnostic Diag.packetOnUnassignedLogicalChannel.code 0 0 0)
             isError := true }
  else
    let unpacked ← jzMsgNewFromData buf
    match unpacked.self with
    | .ok self => return { siz := unpacked.packedSize, msg := some self }
    | .error invalidity =>
      return { siz := unpacked.packedSize
               msg := some (jzMsgNewDiagnostic invalidity.code unpacked.version unpacked.id
                 unpacked.lcn)
               isError := true }

end Application10
end Jozabad
