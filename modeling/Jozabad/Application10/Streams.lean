import Jozabad.Application10.Output

/-!
# Bytes in, bytes out

The clients of the server write bytes to their sockets, whatever these are, and the server reads
them in pieces, between other events. What it sends to a client are messages that the client
can receive: the bytes of all of them, one after the other and cut in any way, are turned back
into exactly these messages (`clients_receive`). Nothing is left over, and there is nothing to
complain about.

The reason is in what the parser makes of the bytes (`regular_of_parse`, `sendable_of_parse`).
Each message on the queue of a client is regular, and each diagnostic for a bad one can be sent.
-/

namespace Jozabad
namespace Application10

open Reader

/-! ### What the parser takes -/

section Parser

variable {crc32 : List UInt8 → UInt32} {buf : List UInt8} {r : Parsed} {m : JzMsg}

/-- One byte tells the length of a string. -/
theorem returns_getString_short : getString.Returns fun s => ∃ a, s = some a ∧ a.length ≤ 255 := by
  refine (returns_getNumber _ 1).bind_of fun n hn => (returns_getBytes _ n).bind_of fun bs hlen =>
    Returns.pure ⟨_, rfl, ?_⟩
  have hle : (CString.ofBytes bs).length ≤ bs.length := (List.takeWhile_prefix _).length_le
  omega

/-- The version is right, and the encoding keeps all fields. -/
theorem returns_getFields_whole (id : MsgId) (lcn : UInt16) :
    (getFields 1 id lcn).Returns fun m => m.Spelled ∧ m.received = m := by
  have hpure {m : JzMsg} (hversion : m.version = JZ_MSG_VERSION)
      (hcalling : m.callingAddress = none) (hcalled : m.calledAddress = none)
      (hwhole : m.received = m) :
      Returns (pure m : Reader Diag JzMsg) fun m => m.Spelled ∧ m.received = m := by
    refine Returns.pure ⟨⟨hversion, fun s hs => ?_, fun s hs => ?_⟩, hwhole⟩
    · cases hcalling.symm.trans hs
    · cases hcalled.symm.trans hs
  cases id with
  | connect =>
    refine returns_getString_short.bind_of fun _ ha => Returns.bind fun iodir => ?_
    obtain ⟨a, rfl, hlen⟩ := ha
    exact Returns.pure ⟨⟨rfl, fun s hs => Option.some.inj hs ▸ hlen, nofun⟩, rfl⟩
  | callRequest | callAccepted =>
    refine returns_getString_short.bind_of fun _ ha => returns_getString_short.bind_of fun _ hb =>
      Returns.bind fun packet => Returns.bind fun window => Returns.bind fun throughput =>
        Returns.bind fun data => ?_
    obtain ⟨a, rfl, hlen⟩ := ha
    obtain ⟨b, rfl, hlen'⟩ := hb
    exact Returns.pure ⟨⟨rfl, fun s hs => Option.some.inj hs ▸ hlen,
      fun s hs => Option.some.inj hs ▸ hlen'⟩, rfl⟩
  | data | rr | rnr | clearRequest | clearConfirmation | resetRequest | resetConfirmation
    | connectIndication | disconnect | disconnectIndication | diagnostic | directoryRequest
    | directory | enq | ack | restartRequest | restartConfirmation =>
    repeat' first | exact hpure rfl rfl rfl rfl | refine Returns.bind fun _ => ?_

/-- **A valid message** out of the receive buffer is regular. -/
theorem regular_of_parse (hparse : jzBufferParseIntoMessage crc32 buf = .ok r)
    (hmsg : r.msg = some m) (herror : r.isError = false)
    (hlen : buf.length ≤ CLIENT_RECV_BUFFER_SIZE) : m.Regular := by
  obtain ⟨hlcn, hsize⟩ := parse_accepts hparse hmsg herror
  obtain ⟨-, u, hu, hself⟩ := parse_unpacks hparse hmsg herror
  obtain ⟨hspelled, hwhole⟩ := property_of_newFromData returns_getFields_whole hu hself
  exact ⟨hspelled, ⟨le_trans hsize hlen, hlcn⟩, hwhole⟩

/-- An envelope that is no valid message is reported with a diagnostic. -/
theorem openEnvelope_error (h : (openEnvelope crc32 buf).isError = true) :
    ∃ diagnostic version id lcn, (openEnvelope crc32 buf).msg =
      some (jzMsgNewDiagnostic diagnostic version id lcn) := by
  dsimp only [openEnvelope] at h ⊢
  by_cases hcrc : ¬ CrcMatches crc32 buf
  · rw [if_pos hcrc]
    exact ⟨_, _, _, _, rfl⟩
  rw [if_neg hcrc] at h ⊢
  by_cases hshort : numberAt buf 4 4 < JZ_MSG_PAYLOAD_HEADER_SIZE
  · rw [if_pos hshort]
    exact ⟨_, _, _, _, rfl⟩
  rw [if_neg hshort] at h ⊢
  by_cases hlcn : numberAt buf 10 2 > JZ_MSG_MAX_LCN
  · rw [if_pos hlcn]
    exact ⟨_, _, _, _, rfl⟩
  rw [if_neg hlcn, Unpacked.parsed] at h ⊢
  cases hself : (unpackFront buf).self with
  | error invalidity => exact ⟨_, _, _, _, rfl⟩
  | ok self =>
    rw [hself] at h
    cases h

/-- **A bad message** is answered with a diagnostic. -/
theorem sendable_of_parse (hparse : jzBufferParseIntoMessage crc32 buf = .ok r)
    (hmsg : r.msg = some m) (herror : r.isError = true) : m.Sendable := by
  have hne : buf ≠ [] := by
    rintro rfl
    cases hparse
  by_cases hheader : 12 ≤ buf.length
  · cases hsig : jzBufferBeginsWithSignature buf with
    | false =>
      cases (parse_unsigned hheader hsig).symm.trans hparse
      cases herror
    | true =>
      by_cases hpart : buf.length < envelopeSize (numberAt buf 4 4) % 2 ^ 32
      · cases (parse_cut hheader hsig hpart).symm.trans hparse
        cases herror
      · have hwhole : Whole buf := ⟨hheader, hsig, not_lt.1 hpart⟩
        by_cases hmax : numberAt buf 4 4 ≤ JZ_MSG_MAX_PAYLOAD_LENGTH
        · cases (parse_whole hwhole hmax).symm.trans hparse
          obtain ⟨diagnostic, version, id, lcn, hdiagnostic⟩ := openEnvelope_error herror
          obtain rfl := Option.some.inj (hdiagnostic.symm.trans hmsg)
          exact sendable_diagnostic
        · cases (parse_oversize hwhole hmax).symm.trans hparse
  · cases (parse_short hne hheader).symm.trans hparse
    cases herror

end Parser

/-! ### The input of a client -/

/-- What is on the queue meets `P`, and the diagnostics meet `Q`. -/
structure JzClientInput.Holds (P Q : JzMsg → Prop) (C : JzClientInput) : Prop where
  incoming : ∀ m ∈ C.incoming, P m
  replies : ∀ m ∈ C.replies, Q m

/-- What the parser makes of a buffer meets `P` if it is valid, and `Q` if it is bad. -/
structure ParserYields (crc32 : List UInt8 → UInt32) (P Q : JzMsg → Prop) : Prop where
  valid : ∀ {buf r m}, jzBufferParseIntoMessage crc32 buf = .ok r → r.msg = some m →
    r.isError = false → buf.length ≤ CLIENT_RECV_BUFFER_SIZE → P m
  bad : ∀ {buf r m}, jzBufferParseIntoMessage crc32 buf = .ok r → r.msg = some m →
    r.isError = true → Q m

section Input

variable {crc32 : List UInt8 → UInt32} {P Q : JzMsg → Prop} {fuel : ℕ} {C C' : JzClientInput}
  {valid : Bool} {socket socket' : List UInt8}

/-- What is in the receive buffer does not matter. -/
theorem JzClientInput.Holds.buffer (hC : C.Holds P Q) (recvBuffer : List UInt8) :
    ({ C with recvBuffer } : JzClientInput).Holds P Q :=
  ⟨hC.incoming, hC.replies⟩

theorem parseLoop_holds (hyields : ParserYields crc32 P Q) (hC : C.Holds P Q)
    (hlen : C.recvBuffer.length ≤ CLIENT_RECV_BUFFER_SIZE)
    (h : jzClientParseRecvBufferIntoMessages crc32 fuel C = .ok (valid, C')) : C'.Holds P Q := by
  induction fuel generalizing C with
  | zero =>
    unfold jzClientParseRecvBufferIntoMessages at h
    split at h
    · cases h
      exact hC
    · cases h
  | succ fuel ih =>
    have hdrop (k : ℕ) : (C.recvBuffer.drop k).length ≤ CLIENT_RECV_BUFFER_SIZE := by
      rw [List.length_drop]
      exact le_trans (Nat.sub_le _ _) hlen
    unfold jzClientParseRecvBufferIntoMessages at h
    split at h
    · cases h
      exact hC
    obtain ⟨r, hparse, h⟩ := bind_eq_ok h
    split at h
    · cases h
      exact hC
    split at h
    · -- A diagnostic.
      rename_i herror
      refine ih ?_ ?_ h
      · exact ⟨hC.incoming, List.forall_mem_append.2 ⟨hC.replies, fun m hm =>
          hyields.bad hparse (Option.mem_toList.1 hm) herror⟩⟩
      · exact hdrop _
    case isFalse herror =>
    split at h
    · -- A message is queued.
      refine ih ?_ ?_ h
      · exact ⟨List.forall_mem_append.2 ⟨hC.incoming, fun m hm =>
          hyields.valid hparse (Option.mem_toList.1 hm) (Bool.eq_false_iff.2 herror) hlen⟩,
          hC.replies⟩
      · exact hdrop _
    · cases h
      exact hC

/-- **A read.** Whatever the bytes are, this is what comes out of the receive buffer. -/
theorem callback_holds (hyields : ParserYields crc32 P Q) (hC : C.Holds P Q)
    (h : jzClientInputAvailableCallback crc32 socket C = .ok (socket', C')) : C'.Holds P Q := by
  obtain ⟨⟨left, C₁⟩, hread, h⟩ := bind_eq_ok h
  obtain ⟨⟨valid, C₂⟩, hparse, h⟩ := bind_eq_ok h
  obtain ⟨_, hroom, hread⟩ := bind_eq_ok hread
  cases hread
  have hlt := of_decide_eq_true (eq_true_of_assertThat hroom)
  have hlen : (C.recvBuffer ++ socket.take (CLIENT_RECV_BUFFER_SIZE - C.recvBuffer.length)).length
      ≤ CLIENT_RECV_BUFFER_SIZE := by
    rw [List.length_append, List.length_take]
    omega
  have hholds : C₂.Holds P Q := parseLoop_holds hyields (hC.buffer _) hlen hparse
  cases valid with
  | true =>
    cases h
    exact hholds
  | false =>
    cases h
    exact ⟨hholds.incoming, hholds.replies⟩

theorem parserYields_regular : ParserYields crc32 JzMsg.Regular JzMsg.Sendable where
  valid hparse hmsg herror hlen := regular_of_parse hparse hmsg herror hlen
  bad hparse hmsg herror := sendable_of_parse hparse hmsg herror

end Input

/-! ### The host -/

/-- The server is sound, and what is on the queues is regular. -/
structure Host.Sound (h : Host) : Prop where
  server : h.server.Sound
  queues : ∀ i, ∀ m ∈ (h.input i).incoming, m.Regular

section Host

variable {crc32 : List UInt8 → UInt32} {h h' : Host} {σ σ' : Server} {clock : ℕ → ℕ} {i : ℕ}
  {socket rest : List UInt8} {e : HostEvent}

theorem Server.Sound.sendReplies {replies : List JzMsg} (hσ : σ.Sound)
    (hreplies : ∀ m ∈ replies, m.Sendable)
    (hrun : Application10.sendReplies i replies σ = .ok σ') : σ'.Sound := by
  induction replies generalizing σ with
  | nil =>
    cases hrun
    exact hσ
  | cons m replies ih =>
    obtain ⟨σ₁, h₁, hrun⟩ := bind_eq_ok hrun
    rw [List.forall_mem_cons] at hreplies
    exact ih (hσ.sendMsg hreplies.1 h₁) hreplies.2 hrun

theorem Server.Sound.processMessages {incoming : List (ℕ × JzMsg)} (hσ : σ.Sound)
    (hincoming : ∀ r ∈ incoming, r.2.Regular)
    (hrun : jzClientProcessMessages i incoming σ = .ok σ') : σ'.Sound := by
  induction incoming generalizing σ with
  | nil =>
    cases hrun
    exact hσ
  | cons r incoming ih =>
    obtain ⟨σ₁, h₁, hrun⟩ := bind_eq_ok hrun
    rw [List.forall_mem_cons] at hincoming
    exact ih (hσ.clientProcessMessage hincoming.1 h₁) hincoming.2 hrun

/-- The input of one client is replaced. -/
theorem Host.Sound.set {I : JzClientInput} (hh : h.Sound) (hσ : σ.Sound)
    (hI : ∀ m ∈ I.incoming, m.Regular) : (h.set σ i I).Sound := by
  refine ⟨hσ, fun j => ?_⟩
  by_cases hj : j = i
  · subst hj
    rw [Host.set_input]
    exact hI
  · have hother : (h.set σ i I).input j = h.input j := Function.update_of_ne hj _ _
    rw [hother]
    exact hh.queues j

theorem Host.Sound.inputAvailable (hh : h.Sound)
    (hrun : h.inputAvailable crc32 clock i socket = .ok (rest, h')) : h'.Sound := by
  obtain ⟨J, σ, σ', hcallback, hreplies, hphase⟩ := inputAvailable_eq_ok hrun
  have hkept : (h.input i).kept.Holds JzMsg.Regular JzMsg.Sendable :=
    ⟨hh.queues i, List.forall_mem_nil _⟩
  have hJ : J.Holds JzMsg.Regular JzMsg.Sendable :=
    callback_holds parserYields_regular hkept hcallback
  have hσ := hh.server.sendReplies hJ.replies hreplies
  obtain ⟨-, hpunished, rfl⟩ | ⟨-, hprocessed, rfl⟩ := hphase
  · exact hh.set (hσ.punishmentRestart hpunished) hJ.incoming
  · refine hh.set (hσ.processMessages (fun r hr => ?_) hprocessed) (List.forall_mem_nil _)
    rw [List.mem_mapIdx] at hr
    obtain ⟨k, hk, rfl⟩ := hr
    exact hJ.incoming _ (List.getElem_mem hk)

/-- **A step of the host.** -/
theorem Host.Sound.step (hh : h.Sound) (hstep : (hostSystem crc32).Step h e h') : h'.Sound := by
  cases e with
  | read clock i socket =>
    obtain ⟨-, rest, hrun⟩ := hstep
    have hcleared : ({ h with server := { h.server with sent := [] } } : Host).Sound :=
      ⟨hh.server.cleared, hh.queues⟩
    exact hcleared.inputAvailable hrun
  | other e =>
    obtain ⟨hno, σ', ⟨henabled, hhandle⟩, rfl⟩ := hstep
    have henabled₀ : e.Enabled { h.server with sent := [] } := by
      cases e with
      | connect | message | badMessage | corrupt | hangup | tick | rehash => exact henabled
    exact ⟨hh.server.cleared.event henabled₀ hno hhandle, hh.queues⟩

theorem Host.sound_of_reachable (hreach : (hostSystem crc32).Reachable h) : h.Sound := by
  refine hreach.invariant Host.Sound ?_ fun _ _ _ _ hh hstep => hh.step hstep
  rintro h rfl
  exact ⟨.start, fun _ => List.forall_mem_nil _⟩

end Host

/-! ### What the clients receive -/

/-- The host, with what it sends at each step. -/
def transcriptSystem (crc32 : List UInt8 → UInt32) : Lts Host (HostEvent × List Sent) where
  Init h := h = {}
  Step h t h' := (hostSystem crc32).Step h t.1 h' ∧ t.2 = h'.server.sent

/-- The messages to the client `i`, in order. -/
def sentTo (i : ℕ) (ts : List (HostEvent × List Sent)) : List JzMsg :=
  ts.flatMap fun t => (t.2.filter fun s => s.client = i).map Sent.msg

section

variable {h h' : Host} {ts : List (HostEvent × List Sent)} {i : ℕ}

theorem sendable_of_run {crc32 : List UInt8 → UInt32} (hh : h.Sound)
    (hrun : (transcriptSystem crc32).Run h ts h') : ∀ m ∈ sentTo i ts, m.Sendable := by
  induction hrun with
  | nil => exact List.forall_mem_nil _
  | cons hstep _ ih =>
    obtain ⟨hstep, hsent⟩ := hstep
    have hh' := hh.step hstep
    rw [sentTo, List.flatMap_cons]
    refine List.forall_mem_append.2 ⟨fun m hm => ?_, ih hh'⟩
    obtain ⟨s, hs, rfl⟩ := List.mem_map.1 hm
    exact hh'.server.sent s (hsent ▸ List.mem_of_mem_filter hs)

/-- Messages that can be sent are decoded one after the other. -/
theorem decoded_sendable {msgs : List JzMsg} (hmsgs : ∀ m ∈ msgs, m.Sendable) :
    decoded digitalCrc32 (msgs.flatMap (encoding digitalCrc32)) =
      ⟨msgs.map fun m => .queued (some m), .ok []⟩ := by
  have hnoticed : AllNoticed (msgs.map Arrival.intact) := by
    intro a ha
    obtain ⟨m, hm, rfl⟩ := List.mem_map.1 ha
    have hsendable := hmsgs m hm
    exact ⟨hsendable.encodable, hsendable.spelled, hsendable.receivable, trivial⟩
  have hdecoded := decoded_arrivals hnoticed
  rw [List.flatMap_map, List.map_map] at hdecoded
  refine hdecoded.trans (congrArg (Incremental.Outcome.mk · _) (List.map_congr_left fun m hm => ?_))
  exact congrArg (fun m => Output.queued (some m)) (hmsgs m hm).whole

/-- **Clients receive what the server sends.** Whatever bytes the clients have written, all that
the server sends to a client can be encoded, and however the bytes are cut, they are turned back
into exactly these messages. -/
theorem clients_receive (hreach : (hostSystem digitalCrc32).Reachable h)
    (hrun : (transcriptSystem digitalCrc32).Run h ts h') (i : ℕ) :
    ∃ encodings, (sentTo i ts).mapM (jzMsgToByteArray digitalCrc32) = .ok encodings ∧
      ∀ chunks, chunks.flatten = encodings.flatten →
        receive digitalCrc32 chunks {} = .ok { incoming := sentTo i ts } := by
  have hsendable : ∀ m ∈ sentTo i ts, m.Sendable :=
    sendable_of_run (Host.sound_of_reachable hreach) hrun
  refine ⟨_, mapM_encodings fun m hm => (hsendable m hm).encodable, fun chunks hcut => ?_⟩
  have hdecoded := decoded_sendable hsendable
  rw [List.flatMap_def, ← hcut] at hdecoded
  have hreplies : (sentTo i ts).flatMap (fun _ => ([] : List JzMsg)) = [] :=
    List.flatMap_eq_nil_iff.2 fun _ _ => rfl
  rw [receive_of_decoded hdecoded]
  simp only [List.flatMap_map, Output.toIncoming, Output.toReplies, Option.toList_some,
    List.flatMap_singleton', hreplies]

end

/-- The only client sends a `CONNECT`. -/
def connectRead : HostEvent :=
  .read (fun _ => 0) 0 (encoding digitalCrc32 connectA)

theorem callback_connect :
    jzClientInputAvailableCallback digitalCrc32 (encoding digitalCrc32 connectA)
      (oneClient.input 0).kept = .ok ([], { incoming := [connectA] }) :=
  corruptRead_connect.callback_first

theorem step_connectRead : ∃ h, (hostSystem digitalCrc32).Step oneClient connectRead h ∧
    h.server.sent = [⟨0, none, jzMsgNewConnectIndication⟩] := by
  have hread : oneClient.inputAvailable digitalCrc32 (fun _ => 0) 0
      (encoding digitalCrc32 connectA) = .ok ([], _) :=
    bind_of_eq_ok rfl (bind_of_eq_ok rfl (bind_of_eq_ok callback_connect rfl))
  exact ⟨_, ⟨⟨_, rfl, rfl⟩, [], hread⟩, rfl⟩

/-- The client gets the indication, in any pieces. -/
theorem clients_receive_connect : ∃ h' ts, (transcriptSystem digitalCrc32).Run oneClient ts h' ∧
    sentTo 0 ts = [jzMsgNewConnectIndication] ∧
    ∃ encodings, (sentTo 0 ts).mapM (jzMsgToByteArray digitalCrc32) = .ok encodings ∧
      ∀ chunks, chunks.flatten = encodings.flatten →
        receive digitalCrc32 chunks {} = .ok { incoming := sentTo 0 ts } := by
  obtain ⟨h', hstep, hsent⟩ := step_connectRead
  have hrun : (transcriptSystem digitalCrc32).Run oneClient
      [(connectRead, [⟨0, none, jzMsgNewConnectIndication⟩])] h' :=
    .single ⟨hstep, hsent.symm⟩
  exact ⟨h', _, hrun, rfl, clients_receive (oneClient_reachable digitalCrc32) hrun 0⟩

end Application10
end Jozabad
