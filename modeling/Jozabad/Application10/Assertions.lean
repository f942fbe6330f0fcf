import Jozabad.Application10.Completion
import Jozabad.Application10.Registration
import Jozabad.Lib.Avoids

/-!
# Messages that stop the server

The handlers assert what they expect of the fields of a message, of the state of the channel
and of its peer. A message of a client for one of its channels fails an assertion in the
circumstances that `Stalls` lists.

* A call is accepted with a facility that is out of range, or the channel has one that is.
* A call is accepted, or called back, on a channel that has lost its peer.
* `DATA` comes to a channel in data transfer that never got a packet size.
* The channel accepts `DATA` or an acknowledgement, and its peer compares the numbers with
  counters of its own that do not mirror those of the channel.

Nothing else can go wrong, as long as no client has registered with a directionality that has
no name (`Event.Unnames`). The log text of every message to or from such a client fails. The
handlers are gone through with the rules of `Avoids`, each of them once.

* `protocol_asserts_iff`: the messages that fail an assertion are those that stall.
* `protocol_asserts`: a message that the parser delivers, and that fails an assertion.
-/

namespace Jozabad
namespace Application10

/-- Every client has a directionality with a name. -/
def Server.AllNamed (σ : Server) : Prop :=
  ∀ (i : ℕ) (C : JzClient), σ.clients[i]? = some C → iodirValidate C.iodir.toNat = true

/-- Both values of a facility are in range. -/
def Comparable (rngchk : ℕ → ℤ) (request current : ℕ) : Prop :=
  rngchk request = 0 ∧ rngchk current = 0

/-- The value asked for lies between the current one and the default. -/
def Between (pivot request current : ℕ) : Prop :=
  request ∈ Set.uIcc current pivot

/-- **A message is an accepted acknowledgement**: the channel notes it instead of resetting the
call. -/
structure ValidReceipt (X : JzChannel) (msg : JzMsg) : Prop where
  id : msg.id = .rr ∨ msg.id = .rnr
  pr : seqInRange msg.pr.toNat X.clientPr.toNat X.peerPs.toNat = true

/-- **A message to the channel `X` stalls the server.** -/
inductive Stalls (heap : Table ℕ JzChannel) (X : JzChannel) (msg : JzMsg) : Prop
  /-- The window of the answer is out of range, or that of the call. -/
  | window (hid : msg.id = .callAccepted) (hs : X.state = .p3ServerWaiting)
      (hrange : ¬ Comparable seqRngchk msg.window.toNat X.window.toNat)
  /-- The window fits, and then a throughput is out of range. -/
  | throughput (hid : msg.id = .callAccepted) (hs : X.state = .p3ServerWaiting)
      (hwindow : Between WINDOW_NEGOTIATE msg.window.toNat X.window.toNat)
      (hrange : ¬ Comparable tputRngchk msg.throughput.toNat X.throughput.toNat)
  /-- The window and the throughput fit, and then a packet size is out of range. -/
  | packet (hid : msg.id = .callAccepted) (hs : X.state = .p3ServerWaiting)
      (hwindow : Between WINDOW_NEGOTIATE msg.window.toNat X.window.toNat)
      (htput : Between t_negotiate msg.throughput.toNat X.throughput.toNat)
      (hrange : ¬ Comparable packetRngchk msg.packet.toNat X.packet.toNat)
  /-- The call would be accepted, but there is nobody who has called. -/
  | alone (hid : msg.id = .callAccepted) (hs : X.state = .p3ServerWaiting)
      (hwindow : Between WINDOW_NEGOTIATE msg.window.toNat X.window.toNat)
      (htput : Between t_negotiate msg.throughput.toNat X.throughput.toNat)
      (hpacket : Between p_negotiate msg.packet.toNat X.packet.toNat) (hpeer : X.peer = none)
  /-- The client calls back, and there is nobody who has called. -/
  | collision (hid : msg.id = .callRequest) (hs : X.state = .p3ServerWaiting)
      (hpeer : X.peer = none)
  /-- The channel has no packet size. -/
  | unsized (hid : msg.id = .data) (hs : X.state = .d1FlowControlReady)
      (hrange : packetRngchk X.packet.toNat ≠ 0)
  /-- The peer does not take the data. -/
  | data (haccept : AcceptsData X msg) (y : ℕ) (Y : JzChannel) (hpeer : X.peer = some y)
      (hY : heap.get? y = some Y) (hs : Y.state = .d1FlowControlReady)
      (htakes : ¬ TakesData Y msg)
  /-- The peer does not take the acknowledgement. -/
  | receipt (hvalid : ValidReceipt X msg) (hs : X.state = .d1FlowControlReady) (y : ℕ)
      (Y : JzChannel) (hpeer : X.peer = some y) (hY : heap.get? y = some Y)
      (hs' : Y.state = .d1FlowControlReady)
      (htakes : seqInRange msg.pr.toNat Y.peerPr.toNat Y.clientPs.toNat = false)

/-- A message of the client `i` stalls the server. -/
def Server.Chokes (σ : Server) (i : ℕ) (msg : JzMsg) : Prop :=
  σ.Delivers i msg ∧ ∃ x X, σ.Listed i msg.lcn x ∧ σ.heap.get? x = some X ∧ Stalls σ.heap X msg

section

variable {σ σ₁ σ' : Server} {now x y i j : ℕ} {lcn : UInt16} {X Y : JzChannel} {C : JzClient}
  {msg : JzMsg} {e : Event}

/-! ### Reads, writes and messages -/

theorem avoids_assertThat {b : Bool} (h : b = true) :
    Avoids .assertFailed (assertThat b) fun _ => True := by
  rw [h]
  exact .ok trivial

theorem avoids_channel :
    Avoids .assertFailed (σ.channel x) fun X => σ.heap.get? x = some X where
  ne h := by
    unfold Server.channel at h
    split at h
    · cases h
    · cases h
  post _ := channel_eq_ok

theorem avoids_client :
    Avoids .assertFailed (σ.client i) fun C => σ.clients[i]? = some C where
  ne h := by
    unfold Server.client at h
    split at h
    · cases h
    · cases h
  post _ := client_eq_ok

theorem avoids_findClient {address : Option CString} :
    Avoids .assertFailed (jzClientListFindClient address σ) fun _ => True := by
  unfold jzClientListFindClient
  split
  · exact .ok trivial
  · split
    · exact .error (by rintro ⟨⟩)
    · exact .ok trivial

theorem avoids_dump : Avoids .assertFailed (jzChannelDump x σ) fun _ => True := by
  refine avoids_channel.bind fun X _ => avoids_client.bind fun _ _ => ?_
  split
  · exact avoids_channel.bind fun Y _ => avoids_client.bind fun _ _ => .ok trivial
  · exact .ok trivial

theorem avoids_update {f : JzChannel → JzChannel} (hσ : σ.AllNamed) :
    Avoids .assertFailed (σ.update x f) Server.AllNamed :=
  avoids_channel.bind fun _ _ => .ok hσ

/-- A write to a client that does not give it a directionality without a name. -/
theorem Server.AllNamed.setClient {C' : JzClient} (hσ : σ.AllNamed)
    (hC : σ.clients[i]? = some C) (h : iodirValidate C'.iodir.toNat = true) :
    (σ.setClient i C').AllNamed := by
  intro k D hD
  change (σ.clients.set i C')[k]? = some D at hD
  rw [getElem?_set_client hC] at hD
  split at hD
  · rwa [Option.some.inj hD] at h
  · exact hσ k D hD

theorem avoids_updateClient {f : JzClient → JzClient} (hσ : σ.AllNamed)
    (hf : ∀ C, (f C).iodir = C.iodir) :
    Avoids .assertFailed (σ.updateClient i f) Server.AllNamed := by
  refine avoids_client.bind fun C hC => .ok (hσ.setClient hC ?_)
  rw [hf]
  exact hσ i C hC

theorem updateClient_allNamed {f : JzClient → JzClient} (hσ : σ.AllNamed)
    (h : σ.updateClient i f = .ok σ') (hf : ∀ C, (f C).iodir = C.iodir) : σ'.AllNamed :=
  (avoids_updateClient hσ hf).post σ' h

theorem avoids_diagnosticString (hσ : σ.AllNamed) (hC : σ.clients[i]? = some C) :
    Avoids .assertFailed (jzClientDiagnosticString C) fun _ => True :=
  avoids_assertThat (hσ i C hC)

theorem avoids_sendMsg {o : Option ℕ} (hσ : σ.AllNamed) :
    Avoids .assertFailed (jzClientSendMsg i o msg σ) Server.AllNamed :=
  avoids_client.bind fun _ hC => (avoids_diagnosticString hσ hC).bind fun _ _ => .ok hσ

theorem avoids_openChannel (hσ : σ.AllNamed) :
    Avoids .assertFailed (openChannel i lcn σ) Server.AllNamed :=
  avoids_client.bind fun C hC => .ok (hσ.setClient hC (hσ i C hC))

/-! ### Messages of the server -/

/-- What is asserted when the server passes on data or an acknowledgement. -/
def Passable (msg : JzMsg) : Prop :=
  msg.id ≠ .data ∧ msg.id ≠ .rr ∧ msg.id ≠ .rnr

theorem avoids_inState (h : X.state = .d1FlowControlReady → Passable msg) :
    Avoids .assertFailed (jzChannelProcessServerMessageInState now X msg) fun _ => True := by
  obtain ⟨Y', out, hstate⟩ := exists_inState h
  rw [hstate]
  exact .ok trivial

theorem avoids_processServerMessage (hσ : σ.AllNamed)
    (h : ∀ Y, σ.heap.get? y = some Y →
      Avoids .assertFailed (jzChannelProcessServerMessageInState now Y msg) fun _ => True) :
    Avoids .assertFailed (jzChannelProcessServerMessage now y msg σ) Server.AllNamed := by
  refine avoids_channel.bind fun Y hY => (h Y hY).bind fun r _ => ?_
  obtain ⟨Y', out⟩ := r
  have hset : (σ.setChannel y Y').AllNamed := hσ
  cases out with
  | none => exact (Avoids.ok hset).bind fun _ hσ => avoids_dump.bind fun _ _ => .ok hσ
  | some msg2 => exact (avoids_sendMsg hset).bind fun _ hσ => avoids_dump.bind fun _ _ => .ok hσ

/-- A message that is neither data nor an acknowledgement. -/
theorem avoids_tell (hσ : σ.AllNamed) (h : Passable msg) :
    Avoids .assertFailed (jzChannelProcessServerMessage now y msg σ) Server.AllNamed :=
  avoids_processServerMessage hσ fun _ _ => avoids_inState fun _ => h

theorem avoids_toPeer {f : JzChannel → JzMsg} (hσ : σ.AllNamed) (h : ∀ Y, Passable (f Y)) :
    Avoids .assertFailed (X.toPeer now f σ) Server.AllNamed := by
  unfold JzChannel.toPeer
  split
  · exact avoids_channel.bind fun Y _ => avoids_tell hσ (h Y)
  · exact .ok hσ

theorem avoids_updatePeer {f : JzChannel → JzChannel} (hσ : σ.AllNamed) :
    Avoids .assertFailed (X.updatePeer f σ) Server.AllNamed := by
  unfold JzChannel.updatePeer
  split
  · exact avoids_update hσ
  · exact .ok hσ

/-- The message is none of the three. -/
theorem passable_of_id {id : MsgId} (hid : msg.id = id)
    (h : (id != .data && id != .rr && id != .rnr) = true) : Passable msg := by
  simpa [Passable, hid, and_assoc] using h

theorem passable_clearRequest {lcn : UInt16} {cause diagnostic : UInt8} :
    Passable (jzMsgNewClearRequest lcn cause diagnostic) :=
  passable_of_id rfl rfl

theorem passable_resetRequest {lcn : UInt16} {cause diagnostic : UInt8} :
    Passable (jzMsgNewResetRequest lcn cause diagnostic) :=
  passable_of_id rfl rfl

/-! ### Punishments and restarts -/

theorem avoids_punishClear {cause : ClearCause} {diagnostic : Diag} (hσ : σ.AllNamed) :
    Avoids .assertFailed (jzChannelDoPunishmentClearRequest now x cause diagnostic σ)
      Server.AllNamed :=
  avoids_dump.bind fun _ _ => avoids_channel.bind fun _ _ =>
    (avoids_tell hσ passable_clearRequest).bind fun _ hσ =>
      (avoids_updatePeer hσ).bind fun _ hσ => avoids_toPeer hσ fun _ => passable_clearRequest

theorem avoids_punishReset {cause : ResetCause} {diagnostic : Diag} (hσ : σ.AllNamed) :
    Avoids .assertFailed (jzChannelDoPunishmentResetRequest now x cause diagnostic σ)
      Server.AllNamed :=
  avoids_dump.bind fun _ _ => avoids_channel.bind fun _ _ =>
    (avoids_tell hσ passable_resetRequest).bind fun _ hσ =>
      avoids_toPeer hσ fun _ => passable_resetRequest

theorem avoids_restartChannel {cause : ClearCause} {diagnostic : UInt8} (hσ : σ.AllNamed) :
    Avoids .assertFailed (restartChannel cause now x diagnostic σ) Server.AllNamed :=
  avoids_channel.bind fun _ _ => (avoids_update hσ).bind fun _ hσ =>
    (avoids_updatePeer hσ).bind fun _ hσ =>
      (avoids_toPeer hσ fun _ => passable_clearRequest).bind fun _ hσ => avoids_update hσ

theorem avoids_free (hσ : σ.AllNamed) :
    Avoids .assertFailed (jzChannelFree x σ) Server.AllNamed :=
  avoids_channel.bind fun _ _ => (avoids_updatePeer hσ).bind fun _ hσ => .ok hσ

theorem avoids_foreachRemove {cause : ClearCause} {diagnostic : UInt8}
    {entries : List ((_ : UInt16) × ℕ)} (hσ : σ.AllNamed) :
    Avoids .assertFailed
      (foreachRemove i (fun x => restartChannel cause now x diagnostic) entries σ)
      Server.AllNamed := by
  induction entries generalizing σ with
  | nil => exact .ok hσ
  | cons entry entries ih =>
    exact (avoids_restartChannel hσ).bind fun _ hσ =>
      Avoids.bind (avoids_updateClient hσ fun _ => rfl) fun _ hσ =>
        (avoids_free hσ).bind fun _ hσ => ih hσ

theorem avoids_punishmentRestart {cause : RestartCause} {diagnostic : Diag} (hσ : σ.AllNamed) :
    Avoids .assertFailed (jzClientDoPunishmentRestart now i cause diagnostic σ) Server.AllNamed :=
  (avoids_sendMsg hσ).bind fun _ hσ => avoids_client.bind fun _ _ =>
    (avoids_foreachRemove hσ).bind fun _ hσ => avoids_updateClient hσ fun _ => rfl

theorem avoids_doRestart {cause diagnostic : UInt8} (hσ : σ.AllNamed) :
    Avoids .assertFailed (jzClientDoRestart now i cause diagnostic σ) Server.AllNamed := by
  unfold jzClientDoRestart
  split
  · exact avoids_punishmentRestart hσ
  · exact Avoids.bind (avoids_updateClient hσ fun _ => rfl) fun _ hσ =>
      avoids_client.bind fun _ _ => (avoids_foreachRemove hσ).bind fun _ hσ =>
        (avoids_sendMsg hσ).bind fun _ hσ => avoids_updateClient hσ fun _ => rfl

theorem avoids_doHangup (hσ : σ.AllNamed) :
    Avoids .assertFailed (jzClientDoHangup now i σ) Server.AllNamed :=
  avoids_client.bind fun _ _ => (avoids_foreachRemove hσ).bind fun _ hσ =>
    avoids_updateClient hσ fun _ => rfl

/-! ### Calls -/

theorem avoids_negotiate {rngchk : ℕ → ℤ} {pivot request current : ℕ}
    (h : Comparable rngchk request current) :
    Avoids .assertFailed (negotiate rngchk pivot request current)
      fun b => b = true → Between pivot request current where
  ne herror := by
    obtain ⟨b, hb⟩ : ∃ b, negotiate rngchk pivot request current = .ok b := negotiate_ok h.1 h.2
    rw [hb] at herror
    cases herror
  post b hb := by
    rintro rfl
    exact negotiate_mem_uIcc hb

/-- The comparison of the facilities, in the order of the source. -/
theorem avoids_callAcceptedError (hid : msg.id = .callAccepted) (hs : X.state = .p3ServerWaiting)
    (hstall : ¬ Stalls σ.heap X msg) :
    Avoids .assertFailed (callAcceptedError X msg) fun err => err = none → X.peer ≠ none := by
  have hwindow : Comparable seqRngchk msg.window.toNat X.window.toNat := by
    by_contra hrange
    exact hstall (.window hid hs hrange)
  refine (avoids_negotiate hwindow).bind fun b hb => ?_
  split
  · exact .ok nofun
  rename_i hfit
  have hb := hb (not_not.1 hfit)
  have htput : Comparable tputRngchk msg.throughput.toNat X.throughput.toNat := by
    by_contra hrange
    exact hstall (.throughput hid hs hb hrange)
  refine (avoids_negotiate htput).bind fun b' hb' => ?_
  split
  · exact .ok nofun
  rename_i hfit'
  have hb' := hb' (not_not.1 hfit')
  have hpacket : Comparable packetRngchk msg.packet.toNat X.packet.toNat := by
    by_contra hrange
    exact hstall (.packet hid hs hb hb' hrange)
  refine (avoids_negotiate hpacket).bind fun b'' hb'' => ?_
  split
  · exact .ok nofun
  rename_i hfit''
  -- All three fit, so there is a peer.
  exact .ok fun _ hpeer => hstall (.alone hid hs hb hb' (hb'' (not_not.1 hfit'')) hpeer)

theorem avoids_callAccepted (hσ : σ.AllNamed) (hX : σ.heap.get? x = some X)
    (hid : msg.id = .callAccepted) (hs : X.state = .p3ServerWaiting)
    (hstall : ¬ Stalls σ.heap X msg) :
    Avoids .assertFailed (jzChannelDoClientCallAccepted now x msg σ) Server.AllNamed := by
  refine .bind_ok (channel_of_get hX) ((avoids_callAcceptedError hid hs hstall).bind
    fun err herr => ?_)
  cases err with
  | some diagnostic => exact avoids_punishClear hσ
  | none =>
    refine (avoids_update hσ).bind fun _ hσ => ?_
    refine (avoids_assertThat (Option.isSome_iff_ne_none.2 (herr rfl))).bind fun _ _ => ?_
    exact (avoids_toPeer hσ fun _ => passable_of_id rfl rfl).bind fun _ hσ => avoids_update hσ

theorem avoids_callCollision (hσ : σ.AllNamed) (hX : σ.heap.get? x = some X)
    (hpeer : X.peer ≠ none) :
    Avoids .assertFailed (jzChannelDoClientCallCollision now x msg σ) Server.AllNamed := by
  refine .bind_ok (channel_of_get hX) ((avoids_update hσ).bind fun _ hσ => ?_)
  refine (avoids_assertThat (Option.isSome_iff_ne_none.2 hpeer)).bind fun _ _ => ?_
  exact (avoids_toPeer hσ fun _ => passable_of_id rfl rfl).bind fun _ hσ => avoids_update hσ

theorem avoids_connect (hσ : σ.AllNamed) (hid : msg.id = .callRequest) :
    Avoids .assertFailed (jzChannelConnect now x y msg σ) Server.AllNamed := by
  have hpass : Passable msg := passable_of_id hid rfl
  exact (avoids_update hσ).bind fun _ hσ => (avoids_update hσ).bind fun _ hσ =>
    (avoids_update hσ).bind fun _ hσ => (avoids_tell hσ hpass).bind fun _ hσ => avoids_update hσ

theorem avoids_reserveLowChannel (hσ : σ.AllNamed) :
    Avoids .assertFailed (jzClientReserveLowChannel i σ) fun r => r.2.AllNamed := by
  refine avoids_client.bind fun C hC => ?_
  simp only
  split
  · rename_i hlt
    refine (avoids_openChannel hσ).bind fun σ₁ hσ₁ => ?_
    refine (avoids_diagnosticString hσ hC).bind fun _ _ => ?_
    have hfree : C.channels.get? (lowLcn C.channels JZ_MSG_MAX_LCN 1) = none :=
      (lowLcn_first C.channels).absent hlt
    exact (avoids_assertThat (Option.isNone_iff_eq_none.2 hfree)).bind fun _ _ => .ok hσ₁
  · exact .ok hσ

theorem avoids_callRequest (hσ : σ.AllNamed) (hid : msg.id = .callRequest) :
    Avoids .assertFailed (jzChannelDoClientCallRequest now x msg σ) Server.AllNamed := by
  refine avoids_channel.bind fun X _ => avoids_client.bind fun C _ => ?_
  split
  · exact avoids_punishClear hσ
  refine avoids_findClient.bind fun found _ => ?_
  cases found with
  | none => exact avoids_punishClear hσ
  | some peer =>
    refine avoids_client.bind fun P _ => ?_
    split
    · exact avoids_punishClear hσ
    refine (avoids_reserveLowChannel hσ).bind fun r hr => ?_
    obtain ⟨reserved, σ₁⟩ := r
    cases reserved with
    | none => exact avoids_punishClear hr
    | some y => exact avoids_connect hr hid

/-! ### Clears and resets -/

theorem avoids_clearRequest (hσ : σ.AllNamed) :
    Avoids .assertFailed (jzChannelDoClientClearRequest now x msg σ) Server.AllNamed :=
  avoids_channel.bind fun _ _ =>
    (avoids_toPeer hσ fun _ => passable_clearRequest).bind fun _ hσ => avoids_update hσ

theorem avoids_resetRequest (hσ : σ.AllNamed) :
    Avoids .assertFailed (jzChannelDoClientResetRequest now x msg σ) Server.AllNamed := by
  unfold jzChannelDoClientResetRequest
  split
  · exact avoids_punishReset hσ
  · exact avoids_channel.bind fun _ _ => (avoids_update hσ).bind fun _ hσ =>
      avoids_toPeer hσ fun _ => passable_resetRequest

theorem avoids_resetConfirmation (hσ : σ.AllNamed) :
    Avoids .assertFailed (jzChannelDoClientResetConfirmation now x σ) Server.AllNamed :=
  avoids_channel.bind fun _ _ => (avoids_update hσ).bind fun _ hσ =>
    avoids_toPeer hσ fun _ => passable_of_id rfl rfl

/-! ### Data and acknowledgements -/

/-- The peer is told something that it takes, after a write to the channel. -/
theorem avoids_pass {f : JzChannel → JzMsg} {X' : JzChannel} (hσ : σ.AllNamed)
    (hne : X.peer ≠ some x) (htakes : ∀ y Y, X.peer = some y → σ.heap.get? y = some Y →
      Avoids .assertFailed (jzChannelProcessServerMessageInState now Y (f Y)) fun _ => True) :
    Avoids .assertFailed (X.toPeer now f (σ.setChannel x X')) Server.AllNamed := by
  have hset : (σ.setChannel x X').AllNamed := hσ
  unfold JzChannel.toPeer
  split
  · rename_i y hpeer
    have hyx : y ≠ x := by
      rintro rfl
      exact hne hpeer
    refine avoids_channel.bind fun Y hY => avoids_processServerMessage hset fun Y₀ hY₀ => ?_
    obtain rfl : Y = Y₀ := Option.some.inj (hY.symm.trans hY₀)
    exact htakes y Y hpeer ((get_setChannel_of_ne hyx).symm.trans hY)
  · exact .ok hset

theorem avoids_data (hσ : σ.AllNamed) (hX : σ.heap.get? x = some X) (hne : X.peer ≠ some x)
    (hid : msg.id = .data) (hs : X.state = .d1FlowControlReady) (hstall : ¬ Stalls σ.heap X msg) :
    Avoids .assertFailed (jzChannelDoClientData now x msg σ) Server.AllNamed := by
  have hpacket : packetRngchk X.packet.toNat = 0 := by
    by_contra hrange
    exact hstall (.unsized hid hs hrange)
  have herror : Avoids .assertFailed (clientDataError X msg)
      fun err => clientDataError X msg = .ok err := ⟨clientDataError_ne hpacket _, fun _ h => h⟩
  refine .bind_ok (channel_of_get hX) (herror.bind fun err herr => ?_)
  cases err with
  | some diagnostic => exact avoids_punishReset hσ
  | none =>
    refine .bind_ok (update_of_get hX) (avoids_pass hσ hne fun y Y hpeer hY => ?_)
    by_cases hs' : Y.state = .d1FlowControlReady
    · have htakes : TakesData Y msg := by
        by_contra hnot
        exact hstall (.data ⟨hid, hs, herr⟩ y Y hpeer hY hs' hnot)
      have hlength := (clientDataError_eq_none herr).2.1
      refine ⟨fun herror => ?_, fun _ _ => trivial⟩
      have hboth := (inState_of_takes hs' htakes hlength).symm.trans herror
      cases hboth
    · exact avoids_inState fun h => absurd h hs'

/-- A channel in `D1` takes a receipt of either kind in one way. -/
theorem inState_receipt {new : UInt16 → UInt16 → JzMsg} (now : ℕ)
    (hnew : new = jzMsgNewRr ∨ new = jzMsgNewRnr) (hs : Y.state = .d1FlowControlReady)
    (lcn pr : UInt16) :
    jzChannelProcessServerMessageInState now Y (new lcn pr) = Y.takeReceipt new (new lcn pr) ∧
      (new lcn pr).pr = pr := by
  unfold jzChannelProcessServerMessageInState
  rw [hs]
  obtain rfl | rfl := hnew
  · exact ⟨rfl, rfl⟩
  · exact ⟨rfl, rfl⟩

theorem avoids_receipt {new : UInt16 → UInt16 → JzMsg} (hσ : σ.AllNamed)
    (hX : σ.heap.get? x = some X) (hne : X.peer ≠ some x)
    (hnew : new = jzMsgNewRr ∨ new = jzMsgNewRnr) (hid : msg.id = .rr ∨ msg.id = .rnr)
    (hs : X.state = .d1FlowControlReady) (hstall : ¬ Stalls σ.heap X msg) :
    Avoids .assertFailed (clientReceipt new now x msg σ) Server.AllNamed := by
  refine .bind_ok (channel_of_get hX) ?_
  split
  · exact avoids_punishReset hσ
  rename_i hvalid
  have hreceipt : ValidReceipt X msg := ⟨hid, by simpa using hvalid⟩
  refine .bind_ok (update_of_get hX) (avoids_pass hσ hne fun y Y hpeer hY => ?_)
  by_cases hs' : Y.state = .d1FlowControlReady
  · obtain ⟨htakes, hpr⟩ := inState_receipt now hnew hs' msg.lcn msg.pr
    rw [htakes]
    refine (avoids_assertThat ?_).bind fun _ _ => .ok trivial
    rw [hpr]
    by_contra hnot
    exact hstall (.receipt hreceipt hs y Y hpeer hY hs' (Bool.eq_false_iff.2 hnot))
  · exact avoids_inState fun h => absurd h hs'

/-! ### Messages to a channel -/

theorem avoids_processMessageInState (hσ : σ.AllNamed) (hX : σ.heap.get? x = some X)
    (hne : X.peer ≠ some x) (hstall : ¬ Stalls σ.heap X msg) :
    Avoids .assertFailed (jzChannelProcessMessageInState now x msg σ) Server.AllNamed := by
  refine .bind_ok (channel_of_get hX) ?_
  -- In each state its own messages, and the others are punished or ignored.
  cases hs : X.state with
  | p1Ready =>
    simp only
    split
    · exact avoids_clearRequest hσ
    · exact avoids_callRequest hσ ‹_›
    · exact avoids_punishClear hσ
  | p3ServerWaiting =>
    simp only
    refine Avoids.bind (P := Server.AllNamed) ?_ fun _ hσ => avoids_update hσ
    split
    · exact avoids_clearRequest hσ
    · exact avoids_callCollision hσ hX fun hpeer => hstall (.collision ‹_› hs hpeer)
    · exact avoids_callAccepted hσ hX ‹_› hs hstall
    · exact avoids_punishClear hσ
  | d1FlowControlReady =>
    simp only
    split
    · exact avoids_clearRequest hσ
    · exact avoids_resetRequest hσ
    · exact avoids_data hσ hX hne ‹_› hs hstall
    · exact avoids_receipt hσ hX hne (.inl rfl) (.inl ‹_›) hs hstall
    · exact avoids_receipt hσ hX hne (.inr rfl) (.inr ‹_›) hs hstall
    · exact avoids_punishReset hσ
  | d2ClientResetRequest =>
    simp only
    split
    · exact avoids_clearRequest hσ
    · exact .ok hσ
    · exact avoids_punishReset hσ
  | d3ServerResetIndication =>
    simp only
    refine Avoids.bind (P := Server.AllNamed) ?_ fun _ hσ => avoids_update hσ
    split
    · exact avoids_clearRequest hσ
    · exact avoids_resetConfirmation hσ
    · exact avoids_resetConfirmation hσ
    · exact .ok hσ
  | p2ClientWaiting | p5CallCollision =>
    simp only
    split
    · exact avoids_clearRequest hσ
    · exact avoids_punishClear hσ
  | p6ClientClearRequest =>
    simp only
    split
    · exact .ok hσ
    · exact avoids_punishClear hσ
  | p7ServerClearIndication =>
    simp only
    refine Avoids.bind (P := Server.AllNamed) ?_ fun _ hσ => avoids_update hσ
    split
    · exact avoids_update hσ
    · exact avoids_update hσ
    · exact .ok hσ

theorem avoids_processMessage (hσ : σ.AllNamed) (hX : σ.heap.get? x = some X)
    (hne : X.peer ≠ some x) (hstall : ¬ Stalls σ.heap X msg) :
    Avoids .assertFailed (jzChannelProcessMessage now x msg σ) Server.AllNamed :=
  (avoids_processMessageInState hσ hX hne hstall).bind fun _ hσ =>
    avoids_dump.bind fun _ _ => .ok hσ

/-- Nothing stalls a channel that has just been opened. -/
theorem not_stalls_new : ¬ Stalls σ.heap (jzChannelNew i lcn) msg := by
  rintro (⟨-, ⟨⟩⟩ | ⟨-, ⟨⟩⟩ | ⟨-, ⟨⟩⟩ | ⟨-, ⟨⟩⟩ | ⟨-, ⟨⟩⟩ | ⟨-, ⟨⟩⟩ | ⟨⟨-, ⟨⟩, -⟩⟩ | ⟨-, ⟨⟩⟩)

/-- The channel of a number is found, or it is opened. -/
theorem avoids_findOrOpen (hσ : σ.AllNamed) (hregistered : σ.Registered) :
    Avoids .assertFailed (findOrOpenChannel i lcn σ) fun r => r.2.AllNamed ∧
      ∃ X, r.2.heap.get? r.1 = some X ∧ X.peer ≠ some r.1 ∧
        ((r.2 = σ ∧ σ.Listed i lcn r.1) ∨ X = jzChannelNew i lcn) where
  ne := by
    have hsafe : Avoids .assertFailed (findOrOpenChannel i lcn σ) fun _ => True := by
      refine avoids_client.bind fun C hC => ?_
      split
      · exact .ok trivial
      · exact (avoids_openChannel hσ).bind fun _ _ =>
          (avoids_diagnosticString hσ hC).bind fun _ _ => .ok trivial
    exact hsafe.ne
  post r hr := by
    obtain ⟨x, σ₁⟩ := r
    obtain ⟨rfl, hlisted⟩ | ⟨rfl, hopen⟩ := findOrOpen_cases hr
    · obtain ⟨X, hX, -⟩ := hregistered.get_of_listed hlisted
      exact ⟨hσ, X, hX, hregistered.peer_ne hX, .inl ⟨rfl, hlisted⟩⟩
    · obtain ⟨C, hC, -, hclients⟩ := hopen.clients
      refine ⟨fun j D hD => ?_, _, hopen.get_new, nofun, .inr rfl⟩
      rw [hclients, getElem?_set_client hC] at hD
      split at hD
      · obtain rfl := Option.some.inj hD
        exact hσ i C hC
      · exact hσ j D hD

/-! ### Messages of a client -/

/-- A `CONNECT` that is accepted brings the directionality along. -/
theorem avoids_inC1Uninitialized (hσ : σ.AllNamed) (hvalid : jzMsgValidate msg = .ok)
    (hclient : ∃ C, σ.clients[i]? = some C ∧ C.state = .c1Uninitialized) :
    Avoids .assertFailed (jzClientProcessMessageInC1UninitializedState i msg σ)
      fun σ' => (σ.Accepts i msg → iodirValidate msg.iodir.toNat = true) → σ'.AllNamed := by
  unfold jzClientProcessMessageInC1UninitializedState
  split
  · have hfind : Avoids .assertFailed (jzClientListFindClient msg.callingAddress σ)
        fun r => jzClientListFindClient msg.callingAddress σ = .ok r :=
      ⟨avoids_findClient.ne, fun _ h => h⟩
    refine hfind.bind fun found hfound => ?_
    cases found with
    | some j => exact (avoids_sendMsg hσ).mono fun _ h _ => h
    | none =>
      refine (avoids_sendMsg hσ).bind fun σ₁ hσ₁ => avoids_client.bind fun C hC => ?_
      exact .ok fun hname => hσ₁.setClient hC (hname ⟨hclient, ‹_›, hvalid, hfound⟩)
  · exact .ok fun _ => hσ

theorem avoids_inC2ClientRestartRequest (hσ : σ.AllNamed) :
    Avoids .assertFailed (jzClientProcessMessageInC2ClientRestartRequestState now i msg σ)
      Server.AllNamed := by
  unfold jzClientProcessMessageInC2ClientRestartRequestState
  split
  · exact .ok hσ
  split
  · exact avoids_punishmentRestart hσ
  · exact avoids_sendMsg hσ

theorem avoids_inC3ServerRestartRequest (hσ : σ.AllNamed) :
    Avoids .assertFailed (jzClientProcessMessageInC3ServerRestartRequestState i msg σ)
      Server.AllNamed := by
  have hreset {τ : Server} (hτ : τ.AllNamed) :
      Avoids .assertFailed (τ.updateClient i fun C =>
        if C.state ≠ .c3ServerRestartRequest ∧ C.timerType = .restartIndication then
          jzClientTimerReset C
        else C) Server.AllNamed := by
    refine avoids_updateClient hτ fun C => ?_
    split
    · rfl
    · rfl
  unfold jzClientProcessMessageInC3ServerRestartRequestState
  simp only
  split
  · exact Avoids.bind (avoids_updateClient hσ fun _ => rfl) fun _ hσ => hreset hσ
  split
  · exact (Avoids.ok hσ).bind fun _ hσ => hreset hσ
  · exact (avoids_sendMsg hσ).bind fun _ hσ => hreset hσ

theorem avoids_inC4Initialized (hσ : σ.AllNamed) (hregistered : σ.Registered)
    (hstall : jzMsgIsForChannel msg = true → ∀ x X, σ.Listed i msg.lcn x →
      σ.heap.get? x = some X → ¬ Stalls σ.heap X msg) :
    Avoids .assertFailed (jzClientProcessMessageInC4InitializedState now i msg σ)
      Server.AllNamed := by
  unfold jzClientProcessMessageInC4InitializedState
  split
  · exact avoids_doRestart hσ
  split
  · exact avoids_punishmentRestart hσ
  split
  · rename_i hfor
    refine (avoids_findOrOpen hσ hregistered).bind fun r hr => ?_
    obtain ⟨x, σ₁⟩ := r
    obtain ⟨hσ₁, X, hX, hne, ⟨rfl, hlisted⟩ | rfl⟩ := hr
    · exact avoids_processMessage hσ₁ hX hne (hstall hfor x X hlisted hX)
    · exact avoids_processMessage hσ₁ hX hne not_stalls_new
  · exact avoids_sendMsg hσ

/-- **A message that does not stall the server** fails no assertion. Unless it registers the
client without a name for its directionality, all clients have names afterwards. -/
theorem avoids_clientProcessMessage (hσ : σ.AllNamed) (hregistered : σ.Registered)
    (hchoke : ¬ σ.Chokes i msg) :
    Avoids .assertFailed (jzClientProcessMessage now i msg σ)
      fun σ' => (σ.Accepts i msg → iodirValidate msg.iodir.toNat = true) → σ'.AllNamed := by
  refine avoids_client.bind fun C hC => (avoids_diagnosticString hσ hC).bind fun _ _ => ?_
  split
  · rename_i hvalid
    cases hs : C.state with
    | c1Uninitialized => exact avoids_inC1Uninitialized hσ hvalid ⟨C, hC, hs⟩
    | c2ClientRestartRequest => exact (avoids_inC2ClientRestartRequest hσ).mono fun _ h _ => h
    | c3ServerRestartRequest => exact (avoids_inC3ServerRestartRequest hσ).mono fun _ h _ => h
    | c4Initialized =>
      refine (avoids_inC4Initialized hσ hregistered fun hfor x X hlisted hX hstall => ?_).mono
        fun _ h _ => h
      exact hchoke ⟨⟨⟨C, hC, hs⟩, hvalid, hfor⟩, x, X, hlisted, hX, hstall⟩
  · exact .ok fun _ => hσ

/-! ### Messages that stall the server -/

/-- A value between the current one and the default is accepted, if it does not fail. -/
theorem negotiate_between {rngchk : ℕ → ℤ} {pivot request current : ℕ}
    (h : Between pivot request current) :
    negotiate rngchk pivot request current = .error .assertFailed ∨
      negotiate rngchk pivot request current = .ok true := by
  by_cases hrange : Comparable rngchk request current
  · exact .inr (negotiate_of_mem_uIcc hrange.1 hrange.2 h)
  · exact .inl (negotiate_eq_error hrange)

/-- The comparison fails, or it finds nothing wrong. -/
theorem callAcceptedError_of_stalls (h : Stalls σ.heap X msg) (hid : msg.id = .callAccepted) :
    callAcceptedError X msg = .error .assertFailed ∨
      (callAcceptedError X msg = .ok none ∧ X.peer = none) := by
  unfold callAcceptedError
  -- A facility that fits leads on to the next one.
  have hnext {rngchk : ℕ → ℤ} {pivot request current : ℕ} {diagnostic : Diag}
      {rest : Except Fault (Option Diag)} (hfits : Between pivot request current)
      (hrest : rest = .error .assertFailed ∨ (rest = .ok none ∧ X.peer = none)) :
      (negotiate rngchk pivot request current >>= fun b =>
        if ¬ b = true then .ok (some diagnostic) else rest) = .error .assertFailed ∨
      ((negotiate rngchk pivot request current >>= fun b =>
        if ¬ b = true then .ok (some diagnostic) else rest) = .ok none ∧ X.peer = none) := by
    obtain herror | htrue : negotiate rngchk pivot request current = .error .assertFailed ∨
        negotiate rngchk pivot request current = .ok true := negotiate_between hfits
    · exact .inl (bind_of_eq_error herror)
    · rw [htrue]
      exact hrest
  cases h with
  | window _ _ hrange => exact .inl (bind_of_eq_error (negotiate_eq_error hrange))
  | throughput _ _ hwindow hrange =>
    exact hnext hwindow (.inl (bind_of_eq_error (negotiate_eq_error hrange)))
  | packet _ _ hwindow htput hrange =>
    exact hnext hwindow (hnext htput (.inl (bind_of_eq_error (negotiate_eq_error hrange))))
  | alone _ _ hwindow htput hpacket hpeer =>
    exact hnext hwindow (hnext htput (hnext hpacket (.inr ⟨rfl, hpeer⟩)))
  | collision hid' | unsized hid' =>
    rw [hid] at hid'
    cases hid'
  | data haccept =>
    rw [haccept.1] at hid
    cases hid
  | receipt hvalid =>
    obtain hid' | hid' := hvalid.id <;> rw [hid'] at hid <;> cases hid

theorem callAccepted_of_stalls (hX : σ.heap.get? x = some X) (h : Stalls σ.heap X msg)
    (hid : msg.id = .callAccepted) :
    jzChannelDoClientCallAccepted now x msg σ = .error .assertFailed := by
  refine bind_of_eq_ok (channel_of_get hX) ?_
  obtain herror | ⟨hnone, hpeer⟩ := callAcceptedError_of_stalls h hid
  · exact bind_of_eq_error herror
  · refine bind_of_eq_ok hnone (bind_of_eq_ok (update_of_get hX) (bind_of_eq_error ?_))
    rw [hpeer]
    rfl

/-- The peer fails on data that it does not take. -/
theorem doServerData_of_not_takes (htakes : ¬ TakesData Y msg) (hlength : msg.data.length ≠ 0) :
    jzChannelDoServerData Y (dataFor msg Y) = .error .assertFailed := by
  by_cases hrange : packetRngchk Y.packet.toNat = 0
  · refine bind_of_eq_ok (packetBytes_ok hrange) ?_
    by_cases hle : msg.data.length ≤ packetRate.getD Y.packet.toNat 0
    · have hwindow : seqInRange msg.ps.toNat Y.peerPr.toNat
          (windowEnd Y.peerPr.toNat Y.window.toNat) = false := by
        rw [← Bool.not_eq_true]
        exact fun hwindow => htakes ⟨⟨_, packetBytes_ok hrange, hle⟩, hwindow⟩
      refine bind_of_eq_ok (a := ()) ?_ (bind_of_eq_ok (a := ()) ?_ (bind_of_eq_error ?_))
      · rw [decide_eq_true (show (dataFor msg Y).data.length ≤ _ from hle), assertThat_true]
      · rw [decide_eq_true (show (dataFor msg Y).data.length ≠ 0 from hlength), assertThat_true]
      · rw [show seqInRange (dataFor msg Y).ps.toNat _ _ = false from hwindow, assertThat_false]
    · refine bind_of_eq_error ?_
      rw [decide_eq_false (show ¬ (dataFor msg Y).data.length ≤ _ from hle), assertThat_false]
  · refine bind_of_eq_error (bind_of_eq_error ?_)
    rw [beq_false_of_ne hrange, assertThat_false]

/-- What is passed on to the peer fails there. -/
theorem pass_error {f : JzChannel → JzMsg} {X' : JzChannel} (hne : X.peer ≠ some x)
    (hpeer : X.peer = some y) (hY : σ.heap.get? y = some Y)
    (h : jzChannelProcessServerMessageInState now Y (f Y) = .error .assertFailed) :
    X.toPeer now f (σ.setChannel x X') = .error .assertFailed := by
  have hyx : y ≠ x := by
    rintro rfl
    exact hne hpeer
  have hY₁ : (σ.setChannel x X').heap.get? y = some Y := (get_setChannel_of_ne hyx).trans hY
  simp only [JzChannel.toPeer, hpeer]
  exact bind_of_eq_ok (channel_of_get hY₁)
    (bind_of_eq_ok (channel_of_get hY₁) (bind_of_eq_error h))

theorem data_of_stalls (hX : σ.heap.get? x = some X) (hne : X.peer ≠ some x)
    (haccept : AcceptsData X msg) (hpeer : X.peer = some y) (hY : σ.heap.get? y = some Y)
    (hs : Y.state = .d1FlowControlReady) (htakes : ¬ TakesData Y msg) :
    jzChannelDoClientData now x msg σ = .error .assertFailed := by
  refine bind_of_eq_ok (channel_of_get hX) (bind_of_eq_ok haccept.2.2
    (bind_of_eq_ok (update_of_get hX) (pass_error hne hpeer hY ?_)))
  unfold jzChannelProcessServerMessageInState
  rw [hs]
  exact doServerData_of_not_takes htakes (clientDataError_eq_none haccept.2.2).2.1

theorem receipt_of_stalls {new : UInt16 → UInt16 → JzMsg} (hX : σ.heap.get? x = some X)
    (hne : X.peer ≠ some x) (hnew : new = jzMsgNewRr ∨ new = jzMsgNewRnr)
    (hvalid : ValidReceipt X msg) (hpeer : X.peer = some y) (hY : σ.heap.get? y = some Y)
    (hs : Y.state = .d1FlowControlReady)
    (htakes : seqInRange msg.pr.toNat Y.peerPr.toNat Y.clientPs.toNat = false) :
    clientReceipt new now x msg σ = .error .assertFailed := by
  refine bind_of_eq_ok (channel_of_get hX) ?_
  rw [if_neg (not_not.2 hvalid.pr)]
  refine bind_of_eq_ok (update_of_get hX) (pass_error hne hpeer hY ?_)
  obtain ⟨hreceipt, hpr⟩ := inState_receipt now hnew hs msg.lcn msg.pr
  rw [hreceipt]
  refine bind_of_eq_error ?_
  rw [hpr, htakes, assertThat_false]

/-- **A message that stalls the server** fails an assertion. -/
theorem processMessage_of_stalls (hX : σ.heap.get? x = some X) (hne : X.peer ≠ some x)
    (h : Stalls σ.heap X msg) : jzChannelProcessMessage now x msg σ = .error .assertFailed := by
  refine bind_of_eq_error (bind_of_eq_ok (channel_of_get hX) ?_)
  have hcall (hid : msg.id = .callAccepted) :
      jzChannelDoClientCallAccepted now x msg σ = .error .assertFailed :=
    callAccepted_of_stalls hX h hid
  cases h with
  | window hid hs | throughput hid hs | packet hid hs | alone hid hs =>
    simp only [hs, hid]
    exact bind_of_eq_error (hcall hid)
  | collision hid hs hpeer =>
    simp only [hs, hid]
    refine bind_of_eq_error (bind_of_eq_ok (channel_of_get hX)
      (bind_of_eq_ok (update_of_get hX) (bind_of_eq_error ?_)))
    rw [hpeer]
    rfl
  | unsized hid hs hrange =>
    simp only [hs, hid]
    refine bind_of_eq_ok (channel_of_get hX)
      (bind_of_eq_error (bind_of_eq_error (bind_of_eq_error ?_)))
    rw [beq_false_of_ne hrange, assertThat_false]
  | data haccept y Y hpeer hY hs' htakes =>
    simp only [haccept.1, haccept.2.1]
    exact data_of_stalls hX hne haccept hpeer hY hs' htakes
  | receipt hvalid hs y Y hpeer hY hs' htakes =>
    obtain hid | hid := hvalid.id
    · simp only [hs, hid]
      exact receipt_of_stalls hX hne (.inl rfl) hvalid hpeer hY hs' htakes
    · simp only [hs, hid]
      exact receipt_of_stalls hX hne (.inr rfl) hvalid hpeer hY hs' htakes

theorem clientProcessMessage_of_chokes (hσ : σ.AllNamed) (hregistered : σ.Registered)
    (h : σ.Chokes i msg) : jzClientProcessMessage now i msg σ = .error .assertFailed := by
  obtain ⟨hdelivers, x, X, hlisted, hX, hstall⟩ := h
  have hnamed : σ.Named i := by
    obtain ⟨C, hC, -⟩ := hdelivers.1
    exact ⟨C, hC, hσ i C hC⟩
  rw [clientProcessMessage_of_listed hnamed hdelivers hlisted]
  exact processMessage_of_stalls hX (hregistered.peer_ne hX) hstall

/-! ### Runs -/

/-- **A step registers a client whose directionality has no name.** -/
def Event.Unnames (σ : Server) : Event → Prop
  | .message _ i msg => σ.Accepts i msg ∧ iodirValidate msg.iodir.toNat = false
  | _ => False

theorem allNamed_of_clients (hσ : σ.AllNamed) (h : σ'.clients = σ.clients) : σ'.AllNamed := by
  unfold Server.AllNamed
  rw [h]
  exact hσ

theorem clientCheckTimers_allNamed {clock : ℕ → ℕ} (hσ : σ.AllNamed)
    (h : jzClientCheckTimers clock i σ = .ok σ') : σ'.AllNamed := by
  obtain ⟨C, -, h⟩ := bind_eq_ok h
  obtain ⟨σ₁, h₁, h⟩ := bind_eq_ok h
  have hσ₁ := allNamed_of_clients hσ (checkChannelTimers_clients h₁)
  obtain ⟨C₁, -, h⟩ := bind_eq_ok h
  split at h
  · cases h
    exact hσ₁
  obtain ⟨σ₂, h₂, h⟩ := bind_eq_ok h
  have hσ₂ := updateClient_allNamed hσ₁ h₂ fun _ => rfl
  obtain ⟨C₂, -, h⟩ := bind_eq_ok h
  split at h
  · exact (avoids_punishmentRestart hσ₂).post σ' h
  · obtain ⟨σ₃, h₃, h⟩ := bind_eq_ok h
    have hσ₃ := updateClient_allNamed hσ₂ h₃ fun _ => rfl
    exact (avoids_sendMsg hσ₃).post σ' h
  · cases h

theorem step_allNamed (hσ : σ.AllNamed) (hregistered : σ.Registered) (hok : ¬ e.Unnames σ)
    (henabled : e.Enabled σ) (h : σ.handle e = .ok σ') : σ'.AllNamed := by
  cases e with
  | connect =>
    cases h
    intro j C hC
    change (σ.clients ++ [({} : JzClient)])[j]? = some C at hC
    obtain hC | hC := List.mem_append.1 (List.mem_of_getElem? hC)
    · obtain ⟨k, hk⟩ := List.getElem?_of_mem hC
      exact hσ k C hk
    · rw [List.mem_singleton.1 hC]
      rfl
  | message now i msg =>
    -- The step has been made, so the message has not stalled the server.
    have hchoke : ¬ σ.Chokes i msg := by
      intro hchoke
      have herror : jzClientProcessMessage now i msg σ = .error .assertFailed :=
        clientProcessMessage_of_chokes hσ hregistered hchoke
      cases herror.symm.trans h
    refine (avoids_clientProcessMessage hσ hregistered hchoke).post σ' h fun haccepts => ?_
    by_contra hname
    exact hok ⟨haccepts, Bool.eq_false_iff.2 hname⟩
  | badMessage i diagnostic => exact (avoids_sendMsg hσ).post σ' h
  | corrupt now i => exact (avoids_punishmentRestart hσ).post σ' h
  | hangup now i =>
    obtain ⟨C, -, h⟩ := bind_eq_ok h
    obtain ⟨_, -, h⟩ := bind_eq_ok h
    obtain ⟨σ₁, h₁, h⟩ := bind_eq_ok h
    exact updateClient_allNamed ((avoids_doHangup hσ).post σ₁ h₁) h fun _ => rfl
  | tick clock i => exact clientCheckTimers_allNamed hσ h
  | rehash i channels => exact updateClient_allNamed hσ h fun _ => rfl

/-- **In every run** that registers no client without a name for its directionality. -/
theorem allNamed_of_reachable
    (h : (serverSystem.restrict fun σ e => ¬ e.Unnames σ).Reachable σ) : σ.AllNamed := by
  refine h.invariant Server.AllNamed ?_ ?_
  · rintro σ rfl i C hC
    cases hC
  · rintro σ e σ' hreach hσ ⟨hok, henabled, hhandle⟩
    have hregistered := registered_of_reachable hreach.of_restrict
    refine step_allNamed (σ := { σ with sent := [] }) hσ hregistered.cleared ?_ ?_ hhandle
    · cases e with
      | message now i msg =>
        rintro ⟨⟨hclient, hconnect, hvalid, hfree⟩, hname⟩
        exact hok ⟨⟨hclient, hconnect, hvalid, hfree⟩, hname⟩
      | connect | badMessage | corrupt | hangup | tick | rehash => exact id
    · cases e with
      | connect | message | badMessage | corrupt | hangup | tick | rehash => exact henabled

/-! ### The theorem -/

/-- **Assertions.** In every run in which no client registers with a directionality that has
no name, a message of a client fails an assertion if and only if it stalls the server. -/
theorem protocol_asserts_iff
    (h : (serverSystem.restrict fun σ e => ¬ e.Unnames σ).Reachable σ) :
    ({ σ with sent := [] } : Server).handle (.message now i msg) = .error .assertFailed ↔
      σ.Chokes i msg := by
  have hnamed := allNamed_of_reachable h
  have hσ : ({ σ with sent := [] } : Server).AllNamed := hnamed
  have hregistered := (registered_of_reachable h.of_restrict).cleared
  constructor
  · intro herror
    by_contra hchoke
    exact (avoids_clientProcessMessage hσ hregistered hchoke).ne herror
  · exact fun hchoke => clientProcessMessage_of_chokes hσ hregistered hchoke

/-- The message of the event, if it is a `CONNECT`, has a name for the directionality. -/
def Event.named : Event → Bool
  | .message _ _ msg => msg.id ≠ .connect ∨ iodirValidate msg.iodir.toNat = true
  | _ => true

theorem Event.not_unnames (he : e.named = true) : ¬ e.Unnames σ := by
  intro hunnames
  cases e with
  | message now i msg =>
    obtain ⟨haccepts, hname⟩ := hunnames
    obtain hid | hvalid := of_decide_eq_true he
    · exact hid haccepts.connect
    · rw [hvalid] at hname
      cases hname
  | connect | badMessage | corrupt | hangup | tick | rehash => exact hunnames

/-- `B` accepts the call with a window that is out of range. -/
def wideAccept : JzMsg :=
  jzMsgNewCallAccepted 1 (some (.ofBytes [65])) (some (.ofBytes [66])) 6 200 10 []

/-- The call of `A` is accepted with a window that is out of range. -/
theorem protocol_asserts_wide : ∃ σ, ({} : Server).play callEvents = some σ ∧
    ({ σ with sent := [] } : Server).handle (.message 0 1 wideAccept) =
      .error .assertFailed := by
  have hplay : ({} : Server).play callEvents = some _ := rfl
  have hreach : (serverSystem.restrict fun σ e => ¬ e.Unnames σ).Reachable _ :=
    (Lts.Reachable.init rfl).run ((run_of_play hplay).restrict fun e he τ =>
      Event.not_unnames ((show ∀ e ∈ callEvents, e.named = true by decide) e he))
  refine ⟨_, hplay, (protocol_asserts_iff hreach).2 ⟨⟨⟨_, rfl, rfl⟩, rfl, rfl⟩, 1, _, ⟨_, rfl, rfl⟩,
    rfl, .window rfl rfl ?_⟩⟩
  rintro ⟨hrange, -⟩
  revert hrange
  decide

theorem callEvents_parsed : ∀ e ∈ callEvents, e.Parsed := by
  have hcall : ParserDelivers (jzMsgNewCallRequest 1 (some (.ofBytes [65]))
      (some (.ofBytes [66])) 6 2 10 []) := .of_fits (by decide) (by decide) rfl (by decide) rfl
  have hother : ParserDelivers (jzMsgNewConnect (some (.ofBytes [66])) 0) :=
    .of_fits (by decide) (by decide) rfl (by decide) rfl
  simp only [callEvents, List.forall_mem_cons]
  exact ⟨trivial, trivial, connect_delivered, hother, hcall,
    fun _ h => absurd h List.not_mem_nil⟩

theorem wideAccept_delivered : ParserDelivers wideAccept :=
  .of_fits (by decide) (by decide) rfl (by decide) rfl

/-- **A message of the parser stops the server.** -/
theorem protocol_asserts : ¬ ∀ σ i msg, parsedSystem.Reachable σ → σ.HasSource i →
    ParserDelivers msg → ∀ now,
      ({ σ with sent := [] } : Server).handle (.message now i msg) ≠ .error .assertFailed := by
  intro hclaim
  have hplay : ({} : Server).play callEvents = some _ := rfl
  have hrun : parsedSystem.Run {} callEvents _ :=
    (run_of_play hplay).restrict fun e he _ => callEvents_parsed e he
  exact hclaim _ 1 wideAccept ((Lts.Reachable.init rfl).run hrun) ⟨_, rfl, rfl⟩
    wideAccept_delivered 0 rfl

end

end Application10
end Jozabad
