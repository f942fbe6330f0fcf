import Jozabad.Broker.Msg
import Jozabad.Lib.Wire

/-!
# The messages on the wire (`joza_msg.c`)

A message is one frame, and for three types a second one with the user data. The first
frame is a signature, the message type and the fields of that type. A directory is a hash
table on the wire: its size in one byte, and then a string `key=value` for each entry, in
whatever order the hash table is traversed.

The receiver puts what it reads into a hash table again. An entry that is there already is
not replaced.
-/

namespace Jozabad
namespace Broker

/-- The first two bytes of a message. -/
def SIGNATURE : ℕ := 0xAAA1

/-- The longest string that has a one-byte length. -/
def STRING_MAX : ℕ := 255

/-- The name of the protocol. -/
def PROTOCOL : CString := .ofBytes [0x7E, 0x53, 0x56, 0x43]

def JOZA_MSG_VERSION : UInt8 := 1

/-- The message type of a number. -/
def MsgId.ofCode : ℕ → Option MsgId
  | 0 => some .data
  | 1 => some .rr
  | 2 => some .rnr
  | 3 => some .callRequest
  | 4 => some .callAccepted
  | 5 => some .clearRequest
  | 6 => some .clearConfirmation
  | 7 => some .resetRequest
  | 8 => some .resetConfirmation
  | 9 => some .connect
  | 10 => some .connectIndication
  | 11 => some .disconnect
  | 12 => some .disconnectIndication
  | 13 => some .diagnostic
  | 14 => some .directoryRequest
  | 15 => some .directory
  | 16 => some .enq
  | 17 => some .ack
  | _ => none

@[simp] theorem MsgId.ofCode_code (id : MsgId) : MsgId.ofCode id.code = some id := by
  cases id <;> rfl

/-! ### Text -/

/-- The bytes of a text. -/
def textBytes (s : String) : List UInt8 :=
  s.toList.map fun c => UInt8.ofNat c.toNat

/-- The text of some bytes. -/
def ofTextBytes (bs : List UInt8) : String :=
  .ofList (bs.map fun b => Char.ofNat b.toNat)

/-- A text of ASCII characters is got back from its bytes. -/
theorem ofTextBytes_textBytes {s : String} (h : ∀ c ∈ s.toList, c.toNat < 256) :
    ofTextBytes (textBytes s) = s := by
  have hchar : ∀ c ∈ s.toList, Char.ofNat (UInt8.ofNat c.toNat).toNat = id c := by
    intro c hc
    rw [UInt8.toNat_ofNat', Nat.mod_eq_of_lt (h c hc), Char.ofNat_toNat, id]
  have hlist : (textBytes s).map (fun b => Char.ofNat b.toNat) = s.toList := by
    rw [textBytes, List.map_map]
    exact (List.map_congr_left hchar).trans (List.map_id _)
  rw [ofTextBytes, hlist, String.ofList_toList]

/-! ### The encoder -/

def putNumber1 (host : UInt8) : List UInt8 :=
  putNumber 1 host.toNat

def putNumber2 (host : UInt16) : List UInt8 :=
  putNumber 2 host.toNat

/-- A string with a one-byte length. -/
def putString (host : CString) : List UInt8 :=
  putNumber 1 host.length ++ host.bytes

/-- Serialize a `key=value` pair, cut to the longest string. -/
def sWorkersWrite (entry : CString × String) : List UInt8 :=
  putString (.ofBytes ((entry.1.bytes ++ 61 :: textBytes entry.2).take (STRING_MAX - 1)))

/-- The fields of a message. The entries of `workers` stand in the order in which the hash
table is traversed. -/
def putFields (self : JozaMsg) : List UInt8 :=
  match self.id with
  | .data => putNumber1 self.q ++ (putNumber2 self.pr ++ putNumber2 self.ps)
  | .rr => putNumber2 self.pr
  | .rnr => putNumber2 self.pr
  | .callRequest | .callAccepted =>
    putString self.callingAddress ++ (putString self.calledAddress ++ (putNumber1 self.packet ++
      (putNumber2 self.window ++ putNumber1 self.throughput)))
  | .clearRequest => putNumber1 self.cause ++ putNumber1 self.diagnostic
  | .clearConfirmation => []
  | .resetRequest => putNumber1 self.cause ++ putNumber1 self.diagnostic
  | .resetConfirmation => []
  | .connect =>
    putString PROTOCOL ++ (putNumber1 JOZA_MSG_VERSION ++ (putString self.callingAddress ++
      (putString self.hostName ++ putNumber1 self.directionality)))
  | .connectIndication => []
  | .disconnect => []
  | .disconnectIndication => []
  | .diagnostic => putNumber1 self.cause ++ putNumber1 self.diagnostic
  | .directoryRequest => []
  | .directory => putNumber 1 self.workers.length ++ self.workers.flatMap sWorkersWrite
  | .enq => []
  | .ack => []

/-- The frames of a message, behind the one with the address. -/
def jozaMsgSend (self : JozaMsg) : List Frame :=
  (putNumber 2 SIGNATURE ++ (putNumber 1 self.id.code ++ putFields self)) ::
    match self.id with
    | .data | .callRequest | .callAccepted => [self.data]
    | _ => []

/-! ### The receiver -/

/-- Why a message is not received. -/
inductive RecvError where
  /-- The signature is wrong: the message is dropped, and the next one is awaited. -/
  | garbage
  | malformed
  /-- A pair without a `=` has no value that could be copied. -/
  | nullValue
  deriving DecidableEq, Repr

def getNumber1 : Reader RecvError UInt8 := do
  let host ← getNumber .malformed 1
  return UInt8.ofNat host

def getNumber2 : Reader RecvError UInt16 := do
  let host ← getNumber .malformed 2
  return UInt16.ofNat host

def getString : Reader RecvError CString := do
  let stringSize ← getNumber .malformed 1
  let host ← getBytes .malformed stringSize
  return CString.ofBytes host

/-- Insert an entry into a hash table, unless its key is there. -/
def zhashInsert (hash : List (CString × String)) (key : CString) (value : String) :
    List (CString × String) :=
  if hash.any fun d => d.1 = key then hash else hash ++ [(key, value)]

/-- Split a string at its first `=`. -/
def splitPair (string : CString) : Option (CString × String) :=
  match string.bytes.dropWhile (· ≠ 61) with
  | [] => none
  | _ :: value => some (.ofBytes (string.bytes.takeWhile (· ≠ 61)), ofTextBytes value)

/-- Take `hashSize` entries of a hash table. -/
def getWorkers : ℕ → List (CString × String) → Reader RecvError (List (CString × String))
  | 0, workers => return workers
  | hashSize + 1, workers => do
    let string ← getString
    match splitPair string with
    | none => throw .nullValue
    | some (key, value) => getWorkers hashSize (zhashInsert workers key value)

/-- The second frame, if it is there. -/
def rcvData : List Frame → Reader RecvError Frame
  | [] => throw .malformed
  | data :: _ => return data

/-- The fields of a message of type `id`. The frames behind the first one are `more`. -/
def getFields (address : Frame) (id : MsgId) (more : List Frame) : Reader RecvError JozaMsg := do
  match id with
  | .data =>
    let q ← getNumber1
    let pr ← getNumber2
    let ps ← getNumber2
    let data ← rcvData more
    return { address, id, q, pr, ps, data }
  | .rr =>
    let pr ← getNumber2
    return { address, id, pr }
  | .rnr =>
    let pr ← getNumber2
    return { address, id, pr }
  | .callRequest | .callAccepted =>
    let callingAddress ← getString
    let calledAddress ← getString
    let packet ← getNumber1
    let window ← getNumber2
    let throughput ← getNumber1
    let data ← rcvData more
    return { address, id, callingAddress, calledAddress, packet, window, throughput, data }
  | .clearRequest =>
    let cause ← getNumber1
    let diagnostic ← getNumber1
    return { address, id, cause, diagnostic }
  | .clearConfirmation => return { address, id }
  | .resetRequest =>
    let cause ← getNumber1
    let diagnostic ← getNumber1
    return { address, id, cause, diagnostic }
  | .resetConfirmation => return { address, id }
  | .connect =>
    let protocol ← getString
    if protocol ≠ PROTOCOL then
      throw .malformed
    let version ← getNumber1
    if version ≠ JOZA_MSG_VERSION then
      throw .malformed
    let callingAddress ← getString
    let hostName ← getString
    let directionality ← getNumber1
    return { address, id, callingAddress, hostName, directionality }
  | .connectIndication => return { address, id }
  | .disconnect => return { address, id }
  | .disconnectIndication => return { address, id }
  | .diagnostic =>
    let cause ← getNumber1
    let diagnostic ← getNumber1
    return { address, id, cause, diagnostic }
  | .directoryRequest => return { address, id }
  | .directory =>
    let hashSize ← getNumber .malformed 1
    let workers ← getWorkers hashSize []
    return { address, id, workers }
  | .enq => return { address, id }
  | .ack => return { address, id }

/-- Take a message from its first frame. -/
def getMsg (address : Frame) (more : List Frame) : Reader RecvError JozaMsg := do
  let signature ← getNumber .malformed 2
  if signature ≠ SIGNATURE then
    throw .garbage
  let id ← getNumber .malformed 1
  match MsgId.ofCode id with
  | none => throw .malformed
  | some id => getFields address id more

/-- Receive a message from its frames, behind the one with the address. -/
def jozaMsgRecv (address : Frame) : List Frame → Except RecvError JozaMsg
  | [] => .error .malformed
  | frame :: more => ((getMsg address more).on frame).1

end Broker
end Jozabad
