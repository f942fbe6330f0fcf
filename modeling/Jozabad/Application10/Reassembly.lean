import Jozabad.Application10.Parsing
import Jozabad.Application10.Receiver
import Jozabad.Lib.Framing

/-!
# Reassembly of the input stream

Messages are encoded one after the other, and the stream is cut into chunks. The receiver
of the chunks gets exactly these messages, in order and without a diagnostic, if and only
if each of them fits: its encoding into the receive buffer, and its logical channel number
into the range of the parser.

In one direction the receiver stays on track (`OnTrack`): its buffer and the bytes that
are still to arrive are the encodings of the messages that are still to be queued. In the
other direction, whatever is queued fits, since the parser found it in the buffer.
-/

namespace Jozabad
namespace Application10

open Framing

variable {crc32 : List UInt8 → UInt32}

/-! ### Encodings -/

/-- A message within the sizes that `msg.h` allows. -/
structure JzMsg.Built (m : JzMsg) : Prop where
  version : m.version = JZ_MSG_VERSION
  data : m.data.length ≤ JZ_MSG_MAX_DATA_SIZE
  calling : ∀ s, m.callingAddress = some s → s.length ≤ JZ_MSG_MAX_ADDRESS_LENGTH
  called : ∀ s, m.calledAddress = some s → s.length ≤ JZ_MSG_MAX_ADDRESS_LENGTH

/-- A message that a receiver can take. -/
structure JzMsg.Receivable (m : JzMsg) : Prop where
  /-- Its encoding fits into the receive buffer. -/
  size : envelopeSize (bodySize m) ≤ CLIENT_RECV_BUFFER_SIZE
  lcn : m.lcn.toNat ≤ JZ_MSG_MAX_LCN

/-- The encoding of a message of a type that the encoder supports. -/
def encoding (crc32 : List UInt8 → UInt32) (m : JzMsg) : List UInt8 :=
  envelope (crc32 (putBody m)) m (bodySize m)

/-- The types that the encoder supports. -/
def JzMsg.Encodable (m : JzMsg) : Prop :=
  frameSize m = .ok (bodySize m)

theorem jzMsgToByteArray_eq_encoding {m : JzMsg} (h : m.Encodable) :
    jzMsgToByteArray crc32 m = .ok (encoding crc32 m) :=
  jzMsgToByteArray_eq crc32 h

theorem encodable_of_ok {m : JzMsg} {bytes : List UInt8}
    (h : jzMsgToByteArray crc32 m = .ok bytes) : m.Encodable ∧ bytes = encoding crc32 m := by
  obtain ⟨n, hn, -⟩ := bind_eq_ok h
  have henc : m.Encodable := by rw [JzMsg.Encodable, bodySize_eq hn, hn]
  rw [jzMsgToByteArray_eq_encoding henc] at h
  exact ⟨henc, (Except.ok.inj h).symm⟩

theorem length_encoding {m : JzMsg} (h : m.Encodable) :
    (encoding crc32 m).length = envelopeSize (bodySize m) :=
  length_envelope (length_putBody h)

theorem encoding_ne_nil {m : JzMsg} (h : m.Encodable) : encoding crc32 m ≠ [] := by
  have hlen : 0 < (encoding crc32 m).length := by
    rw [length_encoding h]
    exact lt_of_lt_of_le (by decide : 0 < 12)
      (le_trans (Nat.le_add_right 12 _) (Nat.le_add_right _ _))
  exact List.ne_nil_of_length_pos hlen

/-- What fits into the receive buffer is not too long for the parser. -/
theorem bodySize_le {m : JzMsg} (h : envelopeSize (bodySize m) ≤ CLIENT_RECV_BUFFER_SIZE) :
    bodySize m ≤ JZ_MSG_MAX_PAYLOAD_LENGTH := by
  change 12 + bodySize m + _ ≤ 1024 at h
  change bodySize m ≤ 1032
  omega

/-- A whole message is parsed. -/
theorem parse_encoding {m : JzMsg} (henc : m.Encodable) (hm : m.Built) (hr : m.Receivable)
    (rest : List UInt8) : jzBufferParseIntoMessage crc32 (encoding crc32 m ++ rest) = .ok
      { siz := (encoding crc32 m).length, msg := some m.received } :=
  parse_envelope (length_putBody henc) (bodySize_le hr.size) rest rfl
    (.of_frameSize henc (bodySize_le hr.size)
      (fun s hs => le_trans (hm.calling s hs) (by decide))
      (fun s hs => le_trans (hm.called s hs) (by decide)))
    hm.version hr.lcn

/-- What is on the wire of a message has the size of the message. -/
theorem bodySize_received (m : JzMsg) : bodySize m.received = bodySize m := by
  have haddress (a : Option CString) : addressSize (some (a.getD .empty)) = addressSize a := by
    cases a <;> rfl
  unfold bodySize frameSize JzMsg.received
  cases m.id <;> simp only [haddress]

theorem lcn_received (m : JzMsg) : m.received.lcn = m.lcn := by
  unfold JzMsg.received
  cases m.id <;> rfl

/-! ### A receiver on track -/

/-- The messages `msgs` are being received, `todo` are still to be queued, and the bytes
`left` are still to arrive. -/
structure OnTrack (crc32 : List UInt8 → UInt32) (msgs todo : List JzMsg) (left : List UInt8)
    (C : JzClientInput) : Prop where
  queued : ∃ done, msgs = done ++ todo ∧ C.incoming = done.map JzMsg.received
  replies : C.replies = []
  fatal : C.fatal = false
  pending : Pending (encoding crc32) todo C.recvBuffer left

/-- All messages are ones that a receiver can take. -/
def AllReceivable (msgs : List JzMsg) : Prop :=
  ∀ m ∈ msgs, m.Encodable ∧ m.Built ∧ m.Receivable

section Track

variable {msgs todo : List JzMsg} {left : List UInt8} {C : JzClientInput}

theorem OnTrack.mem (h : OnTrack crc32 msgs todo left C) {m : JzMsg} (hm : m ∈ todo) :
    m ∈ msgs := by
  obtain ⟨done, hsplit, -⟩ := h.queued
  rw [hsplit]
  exact List.mem_append_right done hm

/-- Queueing the message at the front of the buffer. -/
theorem OnTrack.take {m : JzMsg} {buf : List UInt8} (h : OnTrack crc32 msgs (m :: todo) left C)
    (hp : Pending (encoding crc32) todo buf left) : OnTrack crc32 msgs todo left
      { C with incoming := C.incoming ++ [m.received], recvBuffer := buf } := by
  obtain ⟨done, hsplit, hincoming⟩ := h.queued
  refine ⟨⟨done ++ [m], ?_, ?_⟩, h.replies, h.fatal, hp⟩
  · rw [hsplit, List.append_assoc]
    rfl
  · rw [List.map_append, hincoming]
    rfl

/-- The parser waits. -/
theorem parseLoop_wait (hbuf : C.recvBuffer ≠ [])
    (hwait : jzBufferParseIntoMessage crc32 C.recvBuffer = .ok {}) (fuel : ℕ) :
    jzClientParseRecvBufferIntoMessages crc32 (fuel + 1) C = .ok (true, C) := by
  rw [jzClientParseRecvBufferIntoMessages, List.isEmpty_eq_false_iff.2 hbuf, hwait]
  rfl

/-- With no whole message in the buffer the parser has nothing to do. -/
theorem parseLoop_partial (hall : AllReceivable msgs) (h : OnTrack crc32 msgs todo left C)
    (hpart : Partial (encoding crc32) todo C.recvBuffer) (fuel : ℕ) :
    jzClientParseRecvBufferIntoMessages crc32 (fuel + 1) C = .ok (true, C) := by
  by_cases hbuf : C.recvBuffer = []
  · rw [jzClientParseRecvBufferIntoMessages, hbuf]
    rfl
  · obtain ⟨-, hnil⟩ | ⟨m, ms, rest, rfl, hm, hrest⟩ := hpart
    · exact absurd hnil hbuf
    · obtain ⟨henc, hbuilt, hr⟩ := hall m (h.mem List.mem_cons_self)
      have hsmall : bodySize m + 16 ≤ 2 ^ 32 :=
        le_trans (Nat.add_le_add_right (bodySize_le hr.size) 16) (by decide)
      exact parseLoop_wait hbuf
        (parse_incomplete crc32 (length_putBody henc) hsmall hm hbuf hrest) fuel

/-- **The parse loop keeps a receiver on track** and leaves no whole message. -/
theorem parseLoop_onTrack (hall : AllReceivable msgs) {fuel : ℕ}
    (hfuel : C.recvBuffer.length ≤ fuel) (h : OnTrack crc32 msgs todo left C) :
    ∃ todo' C', jzClientParseRecvBufferIntoMessages crc32 fuel C = .ok (true, C') ∧
      OnTrack crc32 msgs todo' left C' ∧ Partial (encoding crc32) todo' C'.recvBuffer := by
  induction fuel generalizing C todo with
  | zero =>
    -- Without fuel there are no bytes left, so no whole message is at the front.
    have hbuf : C.recvBuffer = [] := List.eq_nil_of_length_eq_zero (Nat.le_zero.1 hfuel)
    refine ⟨todo, C, ?_, h, ?_⟩
    · rw [jzClientParseRecvBufferIntoMessages, hbuf]
      rfl
    · obtain hpart | ⟨m, ms, buf', rfl, hframe, -⟩ := h.pending.front
      · exact hpart
      · rw [hbuf] at hframe
        have henc := (hall m (h.mem List.mem_cons_self)).1
        exact absurd (List.append_eq_nil_iff.1 hframe.symm).1 (encoding_ne_nil henc)
  | succ fuel ih =>
    obtain hpart | ⟨m, ms, buf', rfl, hframe, hp⟩ := h.pending.front
    · exact ⟨todo, C, parseLoop_partial hall h hpart fuel, h, hpart⟩
    · obtain ⟨henc, hbuilt, hr⟩ := hall m (h.mem List.mem_cons_self)
      have hlen : 0 < (encoding crc32 m).length :=
        List.length_pos_of_ne_nil (encoding_ne_nil henc)
      have hfuel' : buf'.length ≤ fuel := by
        rw [hframe, List.length_append] at hfuel
        omega
      -- The message at the front is taken off, and the rest is shorter.
      obtain ⟨todo', C', hrun, htrack, hpart⟩ := ih hfuel' (h.take hp)
      refine ⟨todo', C', ?_, htrack, hpart⟩
      have hbuf : C.recvBuffer ≠ [] := by
        rw [hframe]
        exact List.append_ne_nil_of_left_ne_nil (encoding_ne_nil henc) buf'
      rw [jzClientParseRecvBufferIntoMessages, List.isEmpty_eq_false_iff.2 hbuf, hframe,
        parse_encoding henc hbuilt hr]
      change (if (encoding crc32 m).length ≠ 0 then jzClientParseRecvBufferIntoMessages crc32 fuel
        { C with incoming := C.incoming ++ [m.received], recvBuffer := List.drop _ _ }
          else Except.ok (true, C)) = _
      rw [if_pos hlen.ne', List.drop_left]
      exact hrun

/-- **One read and the parsing after it.** Something is taken out of the socket, since a
part of a message leaves room in the buffer. -/
theorem callback_onTrack (hall : AllReceivable msgs) {socket : List UInt8} (hne : socket ≠ [])
    (h : OnTrack crc32 msgs todo (socket ++ left) C)
    (hpart : Partial (encoding crc32) todo C.recvBuffer) :
    ∃ todo' socket' C', jzClientInputAvailableCallback crc32 socket C = .ok (socket', C') ∧
      socket'.length < socket.length ∧ OnTrack crc32 msgs todo' (socket' ++ left) C' ∧
      Partial (encoding crc32) todo' C'.recvBuffer := by
  -- What is in the buffer is a part of one message, which fits.
  have hroom : C.recvBuffer.length < CLIENT_RECV_BUFFER_SIZE := by
    refine hpart.length_lt (by decide) fun m hm => ?_
    obtain ⟨henc, -, hr⟩ := hall m (h.mem hm)
    rw [length_encoding henc]
    exact hr.size
  let room := CLIENT_RECV_BUFFER_SIZE - C.recvBuffer.length
  let C₁ : JzClientInput := { C with recvBuffer := C.recvBuffer ++ socket.take room }
  have hread : jzClientReadIntoRecvBuffer socket C = .ok (socket.drop room, C₁) := by
    rw [jzClientReadIntoRecvBuffer, decide_eq_true hroom]
    rfl
  -- Reading moves bytes from the socket to the buffer.
  have hsplit : socket ++ left = socket.take room ++ (socket.drop room ++ left) := by
    rw [← List.append_assoc, List.take_append_drop]
  have htrack : OnTrack crc32 msgs todo (socket.drop room ++ left) C₁ :=
    ⟨h.queued, h.replies, h.fatal, (hsplit ▸ h.pending).read⟩
  obtain ⟨todo', C', hrun, htrack', hpart'⟩ := parseLoop_onTrack hall le_rfl htrack
  refine ⟨todo', socket.drop room, C', ?_, ?_, htrack', hpart'⟩
  · rw [jzClientInputAvailableCallback, hread]
    change (jzClientParseRecvBufferIntoMessages crc32 C₁.recvBuffer.length C₁ >>= _) = _
    rw [hrun]
    rfl
  · have hpos := List.length_pos_of_ne_nil hne
    rw [List.length_drop]
    omega

/-- The chunk is read. -/
theorem readSocket_onTrack (hall : AllReceivable msgs) {fuel : ℕ} {socket : List UInt8}
    (hfuel : socket.length ≤ fuel) (h : OnTrack crc32 msgs todo (socket ++ left) C)
    (hpart : Partial (encoding crc32) todo C.recvBuffer) :
    ∃ todo' C', readSocket crc32 fuel socket C = .ok C' ∧ OnTrack crc32 msgs todo' left C' ∧
      Partial (encoding crc32) todo' C'.recvBuffer := by
  induction fuel generalizing socket todo C with
  | zero =>
    obtain rfl : socket = [] := List.eq_nil_of_length_eq_zero (Nat.le_zero.1 hfuel)
    exact ⟨todo, C, rfl, h, hpart⟩
  | succ fuel ih =>
    by_cases hne : socket = []
    · subst hne
      exact ⟨todo, C, rfl, h, hpart⟩
    · obtain ⟨todo₁, socket₁, C₁, hrun, hlt, htrack, hpart₁⟩ :=
        callback_onTrack hall hne h hpart
      obtain ⟨todo', C', hrun', htrack', hpart'⟩ := ih (by omega) htrack hpart₁
      refine ⟨todo', C', ?_, htrack', hpart'⟩
      rw [readSocket, List.isEmpty_eq_false_iff.2 hne, hrun]
      exact hrun'

/-- All chunks are read. -/
theorem receive_onTrack (hall : AllReceivable msgs) {chunks : List (List UInt8)}
    (h : OnTrack crc32 msgs todo chunks.flatten C)
    (hpart : Partial (encoding crc32) todo C.recvBuffer) :
    ∃ todo' C', receive crc32 chunks C = .ok C' ∧ OnTrack crc32 msgs todo' [] C' ∧
      Partial (encoding crc32) todo' C'.recvBuffer := by
  induction chunks generalizing todo C with
  | nil => exact ⟨todo, C, rfl, h, hpart⟩
  | cons chunk chunks ih =>
    obtain ⟨todo₁, C₁, hrun, htrack, hpart₁⟩ := readSocket_onTrack hall le_rfl h hpart
    obtain ⟨todo', C', hrun', htrack', hpart'⟩ := ih htrack hpart₁
    refine ⟨todo', C', ?_, htrack', hpart'⟩
    rw [receive, hrun]
    exact hrun'

end Track

/-- A new client is on track. -/
theorem onTrack_init {msgs : List JzMsg} {left : List UInt8}
    (hleft : left = msgs.flatMap (encoding crc32)) : OnTrack crc32 msgs msgs left {} where
  queued := ⟨[], rfl, rfl⟩
  replies := rfl
  fatal := rfl
  pending := hleft

/-- Before anything has arrived there is no whole message. -/
theorem partial_init {msgs : List JzMsg} (henc : ∀ m ∈ msgs, m.Encodable) :
    Partial (encoding crc32) msgs [] := by
  cases msgs with
  | nil => exact .inl ⟨rfl, rfl⟩
  | cons m ms =>
    exact .inr ⟨m, ms, encoding crc32 m, rfl, rfl, encoding_ne_nil (henc m List.mem_cons_self)⟩

/-- **Messages that a receiver can take all arrive**, however their stream is cut. -/
theorem receive_all {msgs : List JzMsg} (hall : AllReceivable msgs)
    {chunks : List (List UInt8)} (hcut : chunks.flatten = msgs.flatMap (encoding crc32)) :
    receive crc32 chunks {} = .ok { incoming := msgs.map JzMsg.received } := by
  obtain ⟨todo, C, hrun, htrack, hpart⟩ := receive_onTrack hall (onTrack_init hcut)
    (partial_init fun m hm => (hall m hm).1)
  obtain ⟨rfl, hbuf⟩ := htrack.pending.finished hpart
  obtain ⟨done, rfl, hincoming⟩ := htrack.queued
  have hC : C = { incoming := (done ++ []).map JzMsg.received } := by
    cases C
    simp only [List.append_nil, JzClientInput.mk.injEq]
    exact ⟨hbuf, hincoming, htrack.replies, htrack.fatal⟩
  rw [hrun, hC]

/-! ### Whatever is queued fits -/

/-- Queued messages have passed through the receive buffer. -/
def QueuedFit (C : JzClientInput) : Prop :=
  ∀ m ∈ C.incoming, m.Receivable

theorem parseLoop_queuedFit {fuel : ℕ} {C C' : JzClientInput} {valid : Bool}
    (h : jzClientParseRecvBufferIntoMessages crc32 fuel C = .ok (valid, C'))
    (hlen : C.recvBuffer.length ≤ CLIENT_RECV_BUFFER_SIZE) (hfit : QueuedFit C) :
    QueuedFit C' ∧ C'.recvBuffer.length ≤ CLIENT_RECV_BUFFER_SIZE := by
  induction fuel generalizing C with
  | zero =>
    unfold jzClientParseRecvBufferIntoMessages at h
    split at h
    · cases h
      exact ⟨hfit, hlen⟩
    · cases h
  | succ fuel ih =>
    have hdrop (k : ℕ) : (C.recvBuffer.drop k).length ≤ CLIENT_RECV_BUFFER_SIZE := by
      rw [List.length_drop]
      exact le_trans (Nat.sub_le _ _) hlen
    unfold jzClientParseRecvBufferIntoMessages at h
    split at h
    · cases h
      exact ⟨hfit, hlen⟩
    obtain ⟨r, hparse, h⟩ := bind_eq_ok h
    split at h
    · cases h
      exact ⟨hfit, hlen⟩
    split at h
    · -- A diagnostic is sent, nothing is queued.
      exact ih h (hdrop _) hfit
    case isFalse herror =>
    split at h
    · -- A message is queued, and the parser has accepted it.
      refine ih h (hdrop _) fun m hm => ?_
      obtain hm | hm := List.mem_append.1 hm
      · exact hfit m hm
      · obtain ⟨hlcn, hsize⟩ := parse_accepts hparse (Option.mem_toList.1 hm)
          (Bool.eq_false_iff.2 herror)
        exact ⟨le_trans hsize hlen, hlcn⟩
    · cases h
      exact ⟨hfit, hlen⟩

theorem callback_queuedFit {socket socket' : List UInt8} {C C' : JzClientInput}
    (h : jzClientInputAvailableCallback crc32 socket C = .ok (socket', C'))
    (hfit : QueuedFit C) : QueuedFit C' := by
  obtain ⟨⟨left, C₁⟩, hread, h⟩ := bind_eq_ok h
  obtain ⟨⟨valid, C₂⟩, hparse, h⟩ := bind_eq_ok h
  obtain ⟨_, hroom, hread⟩ := bind_eq_ok hread
  cases hread
  -- The read stops where the buffer is full.
  have hlen : (C.recvBuffer ++ socket.take (CLIENT_RECV_BUFFER_SIZE - C.recvBuffer.length)).length
      ≤ CLIENT_RECV_BUFFER_SIZE := by
    have hlt := of_decide_eq_true (eq_true_of_assertThat hroom)
    rw [List.length_append, List.length_take]
    omega
  have hfit₂ := (parseLoop_queuedFit hparse hlen hfit).1
  cases valid with
  | true =>
    cases h
    exact hfit₂
  | false =>
    cases h
    exact hfit₂

theorem readSocket_queuedFit {fuel : ℕ} {socket : List UInt8} {C C' : JzClientInput}
    (h : readSocket crc32 fuel socket C = .ok C') (hfit : QueuedFit C) : QueuedFit C' := by
  induction fuel generalizing socket C with
  | zero =>
    unfold readSocket at h
    split at h
    · cases h
      exact hfit
    · cases h
  | succ fuel ih =>
    unfold readSocket at h
    split at h
    · cases h
      exact hfit
    obtain ⟨⟨socket₁, C₁⟩, hrun, h⟩ := bind_eq_ok h
    exact ih h (callback_queuedFit hrun hfit)

theorem receive_queuedFit {chunks : List (List UInt8)} {C C' : JzClientInput}
    (h : receive crc32 chunks C = .ok C') (hfit : QueuedFit C) : QueuedFit C' := by
  induction chunks generalizing C with
  | nil =>
    cases h
    exact hfit
  | cons chunk chunks ih =>
    obtain ⟨C₁, hrun, h⟩ := bind_eq_ok h
    exact ih h (readSocket_queuedFit hrun hfit)

/-- **Messages that all arrive are ones that a receiver can take.** -/
theorem receivable_of_receive {msgs : List JzMsg} {chunks : List (List UInt8)}
    (h : receive crc32 chunks {} = .ok { incoming := msgs.map JzMsg.received }) {m : JzMsg}
    (hm : m ∈ msgs) : m.Receivable := by
  have hfit : QueuedFit { incoming := msgs.map JzMsg.received } :=
    receive_queuedFit h fun m hm => absurd hm List.not_mem_nil
  obtain ⟨hsize, hlcn⟩ := hfit m.received (List.mem_map_of_mem hm)
  rw [bodySize_received] at hsize
  rw [lcn_received] at hlcn
  exact ⟨hsize, hlcn⟩

/-! ### Reassembly -/

/-- The encodings of messages, one after the other. -/
theorem flatten_encodings {msgs : List JzMsg} {encodings : List (List UInt8)}
    (h : msgs.mapM (jzMsgToByteArray crc32) = .ok encodings) :
    (∀ m ∈ msgs, m.Encodable) ∧ encodings.flatten = msgs.flatMap (encoding crc32) := by
  induction msgs generalizing encodings with
  | nil =>
    cases h
    exact ⟨fun m hm => absurd hm List.not_mem_nil, rfl⟩
  | cons m msgs ih =>
    rw [List.mapM_cons] at h
    obtain ⟨bytes, hbytes, h⟩ := bind_eq_ok h
    obtain ⟨rest, hrest, h⟩ := bind_eq_ok h
    cases h
    obtain ⟨henc, rfl⟩ := encodable_of_ok hbytes
    obtain ⟨hencs, hflat⟩ := ih hrest
    refine ⟨List.forall_mem_cons.2 ⟨henc, hencs⟩, ?_⟩
    rw [List.flatten_cons, hflat, List.flatMap_cons]

theorem mapM_encodings {msgs : List JzMsg} (h : ∀ m ∈ msgs, m.Encodable) :
    msgs.mapM (jzMsgToByteArray crc32) = .ok (msgs.map (encoding crc32)) := by
  induction msgs with
  | nil => rfl
  | cons m msgs ih =>
    obtain ⟨hm, hms⟩ := List.forall_mem_cons.1 h
    rw [List.mapM_cons, jzMsgToByteArray_eq_encoding hm, ih hms]
    rfl

/-- A read into a full buffer fails. -/
theorem callback_full {socket : List UInt8} {C : JzClientInput}
    (hfull : CLIENT_RECV_BUFFER_SIZE ≤ C.recvBuffer.length) :
    jzClientInputAvailableCallback crc32 socket C = .error .assertFailed := by
  rw [jzClientInputAvailableCallback, jzClientReadIntoRecvBuffer,
    decide_eq_false (not_lt.2 hfull)]
  rfl

/-- A message that is larger than the receive buffer fills it and is never whole. The next
read finds no room. -/
theorem receive_overflow {m : JzMsg} (henc : m.Encodable)
    (hlong : CLIENT_RECV_BUFFER_SIZE < envelopeSize (bodySize m))
    (hsmall : bodySize m + 16 ≤ 2 ^ 32) :
    receive crc32 [encoding crc32 m] {} = .error .assertFailed := by
  have hlen : (encoding crc32 m).length = envelopeSize (bodySize m) := length_encoding henc
  obtain ⟨buf, socket, hsplit, hbuflen, hsocket⟩ : ∃ buf socket, encoding crc32 m = buf ++ socket ∧
      buf.length = CLIENT_RECV_BUFFER_SIZE ∧ socket ≠ [] := by
    refine ⟨_, _, (List.take_append_drop CLIENT_RECV_BUFFER_SIZE _).symm, ?_, ?_⟩
    · rw [List.length_take, hlen, min_eq_left hlong.le]
    · refine List.ne_nil_of_length_pos ?_
      rw [List.length_drop, hlen]
      exact Nat.sub_pos_of_lt hlong
  have hbuf : buf ≠ [] := List.ne_nil_of_length_pos (by rw [hbuflen]; decide)
  -- After the first read the buffer is full, and the parser waits.
  have hwait : jzBufferParseIntoMessage crc32 buf = .ok {} :=
    parse_incomplete crc32 (length_putBody henc) hsmall hsplit hbuf hsocket
  have hfirst : jzClientInputAvailableCallback crc32 (encoding crc32 m) {} =
      .ok (socket, { recvBuffer := buf }) := by
    have hread : jzClientReadIntoRecvBuffer (encoding crc32 m) {} =
        .ok (socket, { recvBuffer := buf }) := by
      change Except.ok (List.drop CLIENT_RECV_BUFFER_SIZE (encoding crc32 m),
        { recvBuffer := List.take CLIENT_RECV_BUFFER_SIZE (encoding crc32 m) : JzClientInput }) = _
      rw [hsplit, List.drop_left' hbuflen, List.take_left' hbuflen]
    obtain ⟨fuel, hfuel⟩ := Nat.exists_eq_succ_of_ne_zero (List.length_pos_of_ne_nil hbuf).ne'
    rw [jzClientInputAvailableCallback, hread]
    change (jzClientParseRecvBufferIntoMessages crc32 buf.length { recvBuffer := buf } >>= _) = _
    rw [hfuel, parseLoop_wait hbuf hwait]
    rfl
  -- The second read finds no room.
  have hsecond : jzClientInputAvailableCallback crc32 socket { recvBuffer := buf } =
      .error .assertFailed := callback_full hbuflen.ge
  obtain ⟨fuel, hfuel⟩ : ∃ fuel, (encoding crc32 m).length = fuel + 2 := by
    refine ⟨(encoding crc32 m).length - 2, ?_⟩
    change 1024 < envelopeSize (bodySize m) at hlong
    omega
  have hne : encoding crc32 m ≠ [] := encoding_ne_nil henc
  rw [receive, hfuel, readSocket, List.isEmpty_eq_false_iff.2 hne, hfirst]
  change (readSocket crc32 (fuel + 1) socket { recvBuffer := buf } >>= _) = _
  rw [readSocket, List.isEmpty_eq_false_iff.2 hsocket, hsecond]
  rfl

/-- **Stream reassembly.** Messages within the sizes of `msg.h` are encoded one after the
other, and the stream is cut into chunks in any way. The receiver queues exactly these
messages, in order, with no diagnostic, no fatal error and no failed assertion, if and
only if every message fits into the receive buffer and has a channel number in range. -/
theorem stream_reassembly (crc32 : List UInt8 → UInt32) {msgs : List JzMsg}
    {encodings chunks : List (List UInt8)} (hbuilt : ∀ m ∈ msgs, m.Built)
    (henc : msgs.mapM (jzMsgToByteArray crc32) = .ok encodings)
    (hcut : chunks.flatten = encodings.flatten) :
    receive crc32 chunks {} = .ok { incoming := msgs.map JzMsg.received } ↔
      ∀ m ∈ msgs, m.Receivable := by
  obtain ⟨hencs, hflat⟩ := flatten_encodings henc
  constructor
  · intro h m hm
    exact receivable_of_receive h hm
  · intro hr
    exact receive_all (fun m hm => ⟨hencs m hm, hbuilt m hm, hr m hm⟩) (hcut.trans hflat)

/-- A `CONNECT` of an address with one letter. -/
def connectA : JzMsg :=
  jzMsgNewConnect (some (.ofBytes [0x41])) 3

/-- Two messages, however they arrive. -/
theorem stream_reassembly_two : ∃ encodings,
    [connectA, jzMsgNewData 1 0 0 0 [0x68, 0x69]].mapM (jzMsgToByteArray digitalCrc32) =
      .ok encodings ∧ ∀ chunks, chunks.flatten = encodings.flatten →
        receive digitalCrc32 chunks {} =
          .ok { incoming := [connectA, jzMsgNewData 1 0 0 0 [0x68, 0x69]] } := by
  have henc : ∀ m ∈ [connectA, jzMsgNewData 1 0 0 0 [0x68, 0x69]], m.Encodable :=
    List.forall_mem_cons.2 ⟨rfl, List.forall_mem_singleton.2 rfl⟩
  have hbuilt : ∀ m ∈ [connectA, jzMsgNewData 1 0 0 0 [0x68, 0x69]], m.Built := by
    refine List.forall_mem_cons.2 ⟨⟨rfl, by decide, ?_, (by rintro _ ⟨⟩)⟩,
      List.forall_mem_singleton.2 ⟨rfl, by decide, (by rintro _ ⟨⟩), (by rintro _ ⟨⟩)⟩⟩
    rintro s ⟨⟩
    decide
  refine ⟨_, mapM_encodings henc, fun chunks hcut => ?_⟩
  exact (stream_reassembly digitalCrc32 hbuilt (mapM_encodings henc) hcut).2
    (List.forall_mem_cons.2 ⟨⟨by decide, by decide⟩,
      List.forall_mem_singleton.2 ⟨by decide, by decide⟩⟩)

/-- A `DATA` message with the longest payload never arrives. -/
theorem stream_not_reassembled :
    (jzMsgNewData 1 0 0 0 (List.replicate JZ_MSG_MAX_DATA_SIZE 0)).Built ∧
      ∃ bytes, jzMsgToByteArray digitalCrc32
          (jzMsgNewData 1 0 0 0 (List.replicate JZ_MSG_MAX_DATA_SIZE 0)) = .ok bytes ∧
        receive digitalCrc32 [bytes] {} = .error .assertFailed := by
  refine ⟨⟨rfl, ?_, (by rintro _ ⟨⟩), (by rintro _ ⟨⟩)⟩, _, jzMsgToByteArray_eq_encoding rfl, ?_⟩
  · rw [jzMsgNewData, List.length_replicate]
  · refine receive_overflow rfl ?_ ?_
    · decide +kernel
    · decide +kernel

end Application10
end Jozabad
