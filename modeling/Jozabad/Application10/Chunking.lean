import Jozabad.Application10.Reassembly
import Jozabad.Lib.Incremental

/-!
# How a stream is cut does not matter (`client.c`)

The parser does not change its mind, so the loop around it is a receiver in the sense of
`Incremental`: the messages that are queued and the diagnostics that are sent depend on the
stream alone, up to a fatal error or a failed assertion.

A read begins with the text that stands for the client in log messages, which has the name
of the directionality in it. A client without one stops the program there, and this is the
only way in which two splittings can differ. The one that stops first has put out a part of
what the other puts out.
-/

namespace Jozabad
namespace Application10

open Incremental

variable {crc32 : List UInt8 → UInt32} {buf : List UInt8}

/-! ### Reading a stream -/

/-- What the parse loop puts out: a message on the queue of the client, or a diagnostic
that is sent to the client. -/
inductive Output where
  | queued (msg : Option JzMsg)
  | replied (diagnostic : Option JzMsg)
  deriving DecidableEq

/-- Why a stream is not read any further. -/
inductive Stop where
  | fatal
  | failed (f : Fault)
  deriving DecidableEq

/-- One round of `jzClientParseRecvBufferIntoMessages`. -/
def parseRound (crc32 : List UInt8 → UInt32) (buf : List UInt8) : Found Output Stop :=
  match jzBufferParseIntoMessage crc32 buf with
  | .error f => .halt (.failed f)
  | .ok r =>
    if r.isFatal then .halt .fatal
    else if r.isError then .item (.replied r.msg) r.siz
    else if r.siz ≠ 0 then .item (.queued r.msg) r.siz
    else .more

/-- Bytes that arrive, and the directionality that the client has when they are read. -/
structure Read where
  iodir : UInt8
  bytes : List UInt8
  deriving DecidableEq

/-- The directionality has a name. -/
def Read.Named (r : Read) : Prop :=
  iodirValidate r.iodir.toNat = true

instance (r : Read) : Decidable r.Named :=
  inferInstanceAs (Decidable (_ = true))

/-- `jz_client_diagnostic_string` comes before the read. -/
def Read.chunk (r : Read) : Chunk UInt8 Stop :=
  { refused := if r.Named then none else some (.failed .assertFailed), bytes := r.bytes }

/-- What a client puts out, and what stays in the receive buffer or stops the client. -/
def received (crc32 : List UInt8 → UInt32) (reads : List Read) :
    Incremental.Outcome UInt8 Output Stop :=
  feed (parseRound crc32) CLIENT_RECV_BUFFER_SIZE (.failed .assertFailed)
    (reads.map Read.chunk) []

/-! ### The parser is stable -/

/-- What the parser returned for a message or a diagnostic. -/
def Parsed.output (r : Parsed) : Output :=
  if r.isError then .replied r.msg else .queued r.msg

/-- **The rounds**, by what the parser finds. -/
theorem parseRound_cases (crc32 : List UInt8 → UInt32) (hne : buf ≠ []) :
    (jzBufferParseIntoMessage crc32 buf = .ok {} ∧ parseRound crc32 buf = .more) ∨
    (jzBufferParseIntoMessage crc32 buf = .ok { isFatal := true } ∧
      parseRound crc32 buf = .halt .fatal) ∨
    (∃ f, jzBufferParseIntoMessage crc32 buf = .error f ∧
      parseRound crc32 buf = .halt (.failed f)) ∨
    ∃ r, jzBufferParseIntoMessage crc32 buf = .ok r ∧ r.isFatal = false ∧ 0 < r.siz ∧
      r.siz ≤ buf.length ∧ parseRound crc32 buf = .item r.output r.siz := by
  unfold parseRound
  cases hparse : jzBufferParseIntoMessage crc32 buf with
  | error f => exact .inr (.inr (.inl ⟨f, rfl, rfl⟩))
  | ok r =>
    obtain ⟨hle, rfl | rfl | ⟨hpos, hfatal⟩⟩ := parse_bounds hne hparse
    · exact .inl ⟨rfl, rfl⟩
    · exact .inr (.inl ⟨rfl, rfl⟩)
    · refine .inr (.inr (.inr ⟨r, rfl, hfatal, hpos, hle, ?_⟩))
      change (if r.isFatal = true then _ else if r.isError = true then _ else
        if r.siz ≠ 0 then _ else _) = Found.item (if r.isError = true then _ else _) r.siz
      rw [hfatal, if_neg Bool.false_ne_true]
      cases r.isError with
      | true => rfl
      | false => exact if_pos hpos.ne'

/-- **The parse loop is the receiver of a stable parser.** -/
theorem parseRound_stable (crc32 : List UInt8 → UInt32) : Stable (parseRound crc32) where
  bounds := by
    intro buf b n hne h
    obtain ⟨-, hr⟩ | ⟨-, hr⟩ | ⟨f, -, hr⟩ | ⟨r, -, -, hpos, hle, hr⟩ := parseRound_cases crc32 hne
    · cases hr.symm.trans h
    · cases hr.symm.trans h
    · cases hr.symm.trans h
    · cases hr.symm.trans h
      exact ⟨hpos, hle⟩
  append := by
    intro buf hne hmore rest
    have hparse : jzBufferParseIntoMessage crc32 buf ≠ .ok {} := by
      intro h
      exact hmore (by rw [parseRound, h]; rfl)
    rw [parseRound, parse_append hne hparse, parseRound]

theorem recvBuffer_pos : 0 < CLIENT_RECV_BUFFER_SIZE := by decide

/-! ### The loop of the source -/

/-- The stream of one client, without chunks. -/
def decoded (crc32 : List UInt8 → UInt32) (stream : List UInt8) :
    Incremental.Outcome UInt8 Output Stop :=
  decode (parseRound crc32) CLIENT_RECV_BUFFER_SIZE (.failed .assertFailed) stream

/-- What is put out for a message goes to one of two places. -/
def Output.toIncoming : Output → List JzMsg
  | .queued msg => msg.toList
  | .replied _ => []

def Output.toReplies : Output → List JzMsg
  | .queued _ => []
  | .replied diagnostic => diagnostic.toList

/-- A client that has put out `o.log` and goes on with what is left in the buffer. A fatal
error clears the buffer. -/
def JzClientInput.after (C : JzClientInput) (o : Incremental.Outcome UInt8 Output Stop) :
    Except Fault JzClientInput :=
  let C := { C with
    incoming := C.incoming ++ o.log.flatMap Output.toIncoming
    replies := C.replies ++ o.log.flatMap Output.toReplies }
  match o.result with
  | .ok buf => .ok { C with recvBuffer := buf }
  | .error .fatal => .ok { C with recvBuffer := [], fatal := true }
  | .error (.failed f) => .error f

/-- What the callback does after the parse loop. -/
def closeFatal : Bool × JzClientInput → JzClientInput
  | (true, C) => C
  | (false, C) => { C with recvBuffer := [], fatal := true }

/-- What is put out in two parts. -/
theorem JzClientInput.after_after {C C' : JzClientInput} {log : List Output}
    {o : Incremental.Outcome UInt8 Output Stop}
    (hincoming : C'.incoming = C.incoming ++ log.flatMap Output.toIncoming)
    (hreplies : C'.replies = C.replies ++ log.flatMap Output.toReplies)
    (hfatal : C'.fatal = C.fatal) : C'.after o = C.after (o.after log) := by
  unfold JzClientInput.after Incremental.Outcome.after
  simp only [hincoming, hreplies, hfatal, List.flatMap_append, List.append_assoc]

/-- Nothing is put out while the parser waits. -/
theorem JzClientInput.after_nil (C : JzClientInput) : C.after ⟨[], .ok C.recvBuffer⟩ = .ok C := by
  simp only [JzClientInput.after, List.flatMap_nil, List.append_nil]

/-- The loop ends on an empty buffer. -/
theorem parseLoop_nil {C : JzClientInput} (hbuf : C.recvBuffer = []) (fuel : ℕ) :
    closeFatal <$> jzClientParseRecvBufferIntoMessages crc32 fuel C =
      C.after (decoded crc32 C.recvBuffer) := by
  have hdecoded : decoded crc32 C.recvBuffer = ⟨[], .ok C.recvBuffer⟩ := by
    rw [hbuf]
    rfl
  rw [hdecoded, C.after_nil]
  cases fuel <;> rw [jzClientParseRecvBufferIntoMessages, hbuf] <;> rfl

/-- A message goes to the queue and a diagnostic to the client. The next round begins behind
what was taken. -/
theorem parseLoop_item {C C' : JzClientInput} {r : Parsed} (hbuf : C.recvBuffer ≠ [])
    (hparse : jzBufferParseIntoMessage crc32 C.recvBuffer = .ok r) (hfatal : r.isFatal = false)
    (hpos : 0 < r.siz)
    (hC' : C' = { C with
      incoming := C.incoming ++ r.output.toIncoming
      replies := C.replies ++ r.output.toReplies
      recvBuffer := C.recvBuffer.drop r.siz }) (fuel : ℕ) :
    jzClientParseRecvBufferIntoMessages crc32 (fuel + 1) C =
      jzClientParseRecvBufferIntoMessages crc32 fuel C' := by
  rw [jzClientParseRecvBufferIntoMessages, List.isEmpty_eq_false_iff.2 hbuf, hparse, hC']
  change (if r.isFatal = true then _ else if r.isError = true then _ else
    if r.siz ≠ 0 then _ else _) = _
  rw [hfatal, if_neg Bool.false_ne_true]
  unfold Parsed.output
  cases r.isError with
  | true =>
    rw [if_pos rfl, if_pos rfl]
    simp only [Output.toIncoming, Output.toReplies, List.append_nil]
  | false =>
    rw [if_neg Bool.false_ne_true, if_pos hpos.ne', if_neg Bool.false_ne_true]
    simp only [Output.toIncoming, Output.toReplies, List.append_nil]

/-- **The loop of the source computes the outcome.** -/
theorem parseLoop_eq {fuel : ℕ} {C : JzClientInput} (hfuel : C.recvBuffer.length ≤ fuel)
    (hlen : C.recvBuffer.length ≤ CLIENT_RECV_BUFFER_SIZE) :
    closeFatal <$> jzClientParseRecvBufferIntoMessages crc32 fuel C =
      C.after (decoded crc32 C.recvBuffer) := by
  induction fuel generalizing C with
  | zero => exact parseLoop_nil (List.eq_nil_of_length_eq_zero (Nat.le_zero.1 hfuel)) 0
  | succ fuel ih =>
    by_cases hbuf : C.recvBuffer = []
    · exact parseLoop_nil hbuf _
    · have htake : C.recvBuffer.take CLIENT_RECV_BUFFER_SIZE = C.recvBuffer :=
        List.take_of_length_le hlen
      obtain ⟨hparse, hround⟩ | ⟨hparse, hround⟩ | ⟨f, hparse, hround⟩ |
        ⟨r, hparse, hfatal, hpos, hle, hround⟩ := parseRound_cases crc32 hbuf
      · -- The loop is left.
        have hdecoded : decoded crc32 C.recvBuffer = ⟨[], .ok C.recvBuffer⟩ := by
          rw [decoded, decode_more hbuf (by rw [htake, hround]), if_pos hlen]
        rw [hdecoded, C.after_nil, jzClientParseRecvBufferIntoMessages,
          List.isEmpty_eq_false_iff.2 hbuf, hparse]
        rfl
      · have hdecoded : decoded crc32 C.recvBuffer = ⟨[], .error .fatal⟩ :=
          decode_halt hbuf (by rw [htake, hround])
        rw [hdecoded, jzClientParseRecvBufferIntoMessages, List.isEmpty_eq_false_iff.2 hbuf,
          hparse]
        simp only [JzClientInput.after, List.flatMap_nil, List.append_nil]
        rfl
      · have hdecoded : decoded crc32 C.recvBuffer = ⟨[], .error (.failed f)⟩ :=
          decode_halt hbuf (by rw [htake, hround])
        rw [hdecoded, jzClientParseRecvBufferIntoMessages, List.isEmpty_eq_false_iff.2 hbuf,
          hparse]
        rfl
      · -- Something is taken, and the rest is shorter.
        have hdecoded : decoded crc32 C.recvBuffer =
            (decoded crc32 (C.recvBuffer.drop r.siz)).after [r.output] :=
          decode_item (parseRound_stable crc32) recvBuffer_pos hbuf (by rw [htake, hround])
        have hdrop : (C.recvBuffer.drop r.siz).length = C.recvBuffer.length - r.siz :=
          List.length_drop
        have hfuel' : (C.recvBuffer.drop r.siz).length ≤ fuel := by omega
        have hlen' : (C.recvBuffer.drop r.siz).length ≤ CLIENT_RECV_BUFFER_SIZE := by omega
        rw [parseLoop_item hbuf hparse hfatal hpos rfl, ih hfuel' hlen', hdecoded]
        refine JzClientInput.after_after ?_ ?_ rfl
        · rw [List.flatMap_singleton]
        · rw [List.flatMap_singleton]

/-- **The callback of the source**, for what it reads. -/
theorem callback_eq {C : JzClientInput} (hroom : C.recvBuffer.length < CLIENT_RECV_BUFFER_SIZE)
    (socket : List UInt8) :
    let room := CLIENT_RECV_BUFFER_SIZE - C.recvBuffer.length
    jzClientInputAvailableCallback crc32 socket C =
      (socket.drop room, ·) <$> C.after (decoded crc32 (C.recvBuffer ++ socket.take room)) := by
  intro room
  let C₁ : JzClientInput := { C with recvBuffer := C.recvBuffer ++ socket.take room }
  have hread : jzClientReadIntoRecvBuffer socket C = .ok (socket.drop room, C₁) := by
    rw [jzClientReadIntoRecvBuffer, decide_eq_true hroom]
    rfl
  have hlen : C₁.recvBuffer.length ≤ CLIENT_RECV_BUFFER_SIZE := by
    change (C.recvBuffer ++ socket.take room).length ≤ _
    rw [List.length_append, List.length_take]
    omega
  have hloop : closeFatal <$> jzClientParseRecvBufferIntoMessages crc32 C₁.recvBuffer.length C₁ =
      C₁.after (decoded crc32 C₁.recvBuffer) := parseLoop_eq le_rfl hlen
  have hafter : C₁.after (decoded crc32 C₁.recvBuffer) = C.after (decoded crc32 C₁.recvBuffer) :=
    rfl
  rw [jzClientInputAvailableCallback, hread]
  change (jzClientParseRecvBufferIntoMessages crc32 C₁.recvBuffer.length C₁ >>= _) =
    _ <$> C.after (decoded crc32 C₁.recvBuffer)
  rw [← hafter, ← hloop]
  cases jzClientParseRecvBufferIntoMessages crc32 C₁.recvBuffer.length C₁ with
  | error f => rfl
  | ok r =>
    obtain ⟨valid, C'⟩ := r
    cases valid <;> rfl

section Reads

variable {C : JzClientInput} {reads : List Read}

/-- Going on in the same way after what has been put out. -/
theorem JzClientInput.after_andThen {o : Incremental.Outcome UInt8 Output Stop}
    {f : List UInt8 → Incremental.Outcome UInt8 Output Stop}
    {g : JzClientInput → Except Fault JzClientInput}
    (hg : ∀ C' : JzClientInput, o.result = .ok C'.recvBuffer →
      (f C'.recvBuffer).result ≠ .error .fatal → g C' = C'.after (f C'.recvBuffer))
    (hfatal : (o.andThen f).result ≠ .error .fatal) :
    C.after o >>= g = C.after (o.andThen f) := by
  unfold Incremental.Outcome.andThen at hfatal ⊢
  cases hres : o.result with
  | ok buf =>
    rw [hres] at hfatal
    let C' : JzClientInput := { C with
      incoming := C.incoming ++ o.log.flatMap Output.toIncoming
      replies := C.replies ++ o.log.flatMap Output.toReplies
      recvBuffer := buf }
    have hafter : C.after o = .ok C' := by
      unfold JzClientInput.after
      rw [hres]
    rw [hafter]
    exact (hg C' hres hfatal).trans (JzClientInput.after_after rfl rfl rfl)
  | error t =>
    rw [hres] at hfatal
    cases t with
    | fatal => exact absurd hres hfatal
    | failed f =>
      unfold JzClientInput.after
      rw [hres]
      rfl

/-- The reads from one chunk. -/
theorem readSocket_eq {fuel : ℕ} {socket : List UInt8} (hfuel : socket.length ≤ fuel)
    (hlen : C.recvBuffer.length ≤ CLIENT_RECV_BUFFER_SIZE)
    (hfatal : (feedChunk (parseRound crc32) CLIENT_RECV_BUFFER_SIZE (.failed .assertFailed)
      fuel socket C.recvBuffer).result ≠ .error .fatal) :
    readSocket crc32 fuel socket C = C.after (feedChunk (parseRound crc32) CLIENT_RECV_BUFFER_SIZE
      (.failed .assertFailed) fuel socket C.recvBuffer) := by
  induction fuel generalizing socket C with
  | zero =>
    obtain rfl := List.eq_nil_of_length_eq_zero (Nat.le_zero.1 hfuel)
    exact C.after_nil.symm
  | succ fuel ih =>
    by_cases hsocket : socket = []
    · subst hsocket
      exact C.after_nil.symm
    · rw [feedChunk, List.isEmpty_eq_false_iff.2 hsocket, if_neg Bool.false_ne_true] at hfatal ⊢
      rw [readSocket, List.isEmpty_eq_false_iff.2 hsocket, if_neg Bool.false_ne_true]
      by_cases hfull : CLIENT_RECV_BUFFER_SIZE ≤ C.recvBuffer.length
      · rw [callback_full hfull, if_pos hfull]
        rfl
      · rw [if_neg hfull] at hfatal ⊢
        rw [callback_eq (not_le.1 hfull), ← JzClientInput.after_andThen (g := fun C' =>
          readSocket crc32 fuel (socket.drop (CLIENT_RECV_BUFFER_SIZE - C.recvBuffer.length)) C')
          ?_ hfatal]
        · unfold decoded
          cases C.after _ <;> rfl
        · intro C' hok hfatal'
          refine ih ?_ ?_ hfatal'
          · have := List.length_pos_of_ne_nil hsocket
            rw [List.length_drop]
            omega
          · exact (resting_of_decode (parseRound_stable crc32) recvBuffer_pos hok).length_le

/-- **`receive` computes the outcome**, up to a fatal error. After one it would go on with
the bytes that arrive then. -/
theorem receive_eq (hbuf : Resting (parseRound crc32) CLIENT_RECV_BUFFER_SIZE C.recvBuffer)
    (hnamed : ∀ r ∈ reads, r.Named)
    (hfatal : (feed (parseRound crc32) CLIENT_RECV_BUFFER_SIZE (.failed .assertFailed)
      (reads.map Read.chunk) C.recvBuffer).result ≠ .error .fatal) :
    receive crc32 (reads.map Read.bytes) C = C.after (feed (parseRound crc32)
      CLIENT_RECV_BUFFER_SIZE (.failed .assertFailed) (reads.map Read.chunk) C.recvBuffer) := by
  induction reads generalizing C with
  | nil => exact C.after_nil.symm
  | cons r reads ih =>
    obtain ⟨hr, hnamed⟩ := List.forall_mem_cons.1 hnamed
    have hrefused : r.chunk.refused = none := if_pos hr
    rw [List.map_cons, receive]
    by_cases hbytes : r.bytes = []
    · have hempty : r.chunk.bytes.isEmpty = true := List.isEmpty_iff.2 hbytes
      rw [List.map_cons, feed, if_pos hempty] at hfatal
      rw [List.map_cons, feed, if_pos hempty, hbytes]
      exact ih hbuf hnamed hfatal
    · have hempty : ¬ r.chunk.bytes.isEmpty = true := fun h => hbytes (List.isEmpty_iff.1 h)
      rw [List.map_cons, feed, if_neg hempty, hrefused] at hfatal
      rw [List.map_cons, feed, if_neg hempty, hrefused]
      have hchunk := Incremental.Outcome.result_ne_of_andThen hfatal
      have hsocket := readSocket_eq le_rfl hbuf.length_le hchunk
      change readSocket crc32 r.chunk.bytes.length r.chunk.bytes C >>= _ = _
      rw [hsocket]
      refine JzClientInput.after_andThen (fun C' hok hfatal' => ?_) hfatal
      rw [feedChunk_eq_decode (parseRound_stable crc32) recvBuffer_pos le_rfl hbuf] at hok
      exact ih (resting_of_decode (parseRound_stable crc32) recvBuffer_pos hok) hnamed hfatal'

end Reads

/-! ### Chunking -/

/-- The bytes of the reads. -/
def streamOf (reads : List Read) : List UInt8 :=
  reads.flatMap Read.bytes

theorem stream_chunks (reads : List Read) : stream (reads.map Read.chunk) = streamOf reads := by
  rw [stream, List.flatMap_map]
  rfl

/-- With a name for every read, the outcome is that of the stream. -/
theorem received_eq_decoded {reads : List Read} (hnamed : ∀ r ∈ reads, r.Named) :
    received crc32 reads = decoded crc32 (streamOf reads) := by
  rw [received, feed_eq_decode (parseRound_stable crc32) recvBuffer_pos ?_ resting_nil,
    stream_chunks, List.nil_append, decoded]
  intro chunk hchunk
  obtain ⟨r, hr, rfl⟩ := List.mem_map.1 hchunk
  exact if_pos (hnamed r hr)

/-- What is put out is a part of what the whole stream would make the client put out. -/
theorem received_log_initial {reads : List Read} {whole : List UInt8}
    (h : streamOf reads <+: whole) :
    (received crc32 reads).log <+: (decoded crc32 whole).log := by
  obtain ⟨rest, rfl⟩ := h
  have hreads : (received crc32 reads).log <+: (decoded crc32 (streamOf reads)).log := by
    have hfeed : (received crc32 reads).log <+:
        (decoded crc32 ([] ++ stream (reads.map Read.chunk))).log :=
      feed_log_prefix (parseRound_stable crc32) recvBuffer_pos resting_nil
    rwa [stream_chunks, List.nil_append] at hfeed
  refine hreads.trans ?_
  unfold decoded
  rw [decode_append (parseRound_stable crc32) recvBuffer_pos]
  exact Incremental.Outcome.log_prefix_self

end Application10
end Jozabad
