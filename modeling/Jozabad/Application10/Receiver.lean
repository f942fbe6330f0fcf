import Jozabad.Application10.Codec

/-!
# The input side of a client (`client.c`)

When there is input on the socket of a client, as much of it is read as the receive
buffer has room for, and then messages are parsed off the front of the buffer until there
is no whole one left. What remains is moved to the front.

The socket delivers the stream in chunks. A chunk that is larger than the room in the
buffer stays with the socket for further reads.
-/

namespace Jozabad
namespace Application10

/-- The size of the receive buffer. -/
def CLIENT_RECV_BUFFER_SIZE : ℕ := 1024

/-- The fields of a client that its input side changes. -/
structure JzClientInput where
  recvBuffer : List UInt8 := []
  /-- All messages that have been queued so far. -/
  incoming : List JzMsg := []
  /-- The diagnostics that have been sent for bad messages. -/
  replies : List JzMsg := []
  /-- The stream was found to be hopelessly corrupt. -/
  fatal : Bool := false
  deriving DecidableEq

/-- Read from the socket what the buffer has room for. The result begins with what stays
in the socket. -/
def jzClientReadIntoRecvBuffer (socket : List UInt8) (C : JzClientInput) :
    Except Fault (List UInt8 × JzClientInput) := do
  assertThat (C.recvBuffer.length < CLIENT_RECV_BUFFER_SIZE)
  let room := CLIENT_RECV_BUFFER_SIZE - C.recvBuffer.length
  return (socket.drop room, { C with recvBuffer := C.recvBuffer ++ socket.take room })

/-- Parse messages off the front of the buffer. The result is false when the parser is
hopelessly confused. -/
def jzClientParseRecvBufferIntoMessages (crc32 : List UInt8 → UInt32) :
    ℕ → JzClientInput → Except Fault (Bool × JzClientInput)
  | 0, C => if C.recvBuffer.isEmpty then return (true, C) else throw .diverged
  | fuel + 1, C => do
    if C.recvBuffer.isEmpty then
      return (true, C)
    let r ← jzBufferParseIntoMessage crc32 C.recvBuffer
    if r.isFatal then
      return (false, C)
    else if r.isError then
      jzClientParseRecvBufferIntoMessages crc32 fuel
        { C with replies := C.replies ++ r.msg.toList, recvBuffer := C.recvBuffer.drop r.siz }
    else if r.siz ≠ 0 then
      jzClientParseRecvBufferIntoMessages crc32 fuel
        { C with incoming := C.incoming ++ r.msg.toList, recvBuffer := C.recvBuffer.drop r.siz }
    else
      return (true, C)

/-- There is input available. A corrupt stream clears the buffer. -/
def jzClientInputAvailableCallback (crc32 : List UInt8 → UInt32) (socket : List UInt8)
    (C : JzClientInput) : Except Fault (List UInt8 × JzClientInput) := do
  let (socket, C) ← jzClientReadIntoRecvBuffer socket C
  let (valid, C) ← jzClientParseRecvBufferIntoMessages crc32 C.recvBuffer.length C
  if valid then
    return (socket, C)
  else
    return (socket, { C with recvBuffer := [], fatal := true })

/-- The callback is called as long as there is something in the socket. -/
def readSocket (crc32 : List UInt8 → UInt32) :
    ℕ → List UInt8 → JzClientInput → Except Fault JzClientInput
  | 0, socket, C => if socket.isEmpty then return C else throw .diverged
  | fuel + 1, socket, C => do
    if socket.isEmpty then
      return C
    let (socket, C) ← jzClientInputAvailableCallback crc32 socket C
    readSocket crc32 fuel socket C

/-- Receive a stream in chunks. -/
def receive (crc32 : List UInt8 → UInt32) : List (List UInt8) → JzClientInput →
    Except Fault JzClientInput
  | [], C => return C
  | chunk :: chunks, C => do
    let C ← readSocket crc32 chunk.length chunk C
    receive crc32 chunks C

end Application10
end Jozabad
