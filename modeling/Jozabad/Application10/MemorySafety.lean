import Jozabad.Application10.Assertions
import Jozabad.Application10.Input
import Jozabad.Application10.PeerSymmetry

/-!
# No pointer is followed that leads nowhere

The handlers keep pointers to channels across writes, messages and loops. As long as no client
has cleared a joined call, a pointer to a channel leads to a channel that is there: whenever
a handler follows one, and not only between events. So an event fails an assertion, or
it is handled.

`Intact σ₀ σ` says that in the middle of a handler, which began in `σ₀`, the clients and the
channels of `σ₀` are still there, and all pointers lead to such. Each handler keeps this
(`safe_processMessage`), except where it opens a channel or frees one. Between these the
pointers are mutual again, so that nothing points at what is freed.

* `memory_safe`: what the server does with an event.
-/

namespace Jozabad
namespace Application10

open Partners

/-- There is a client `i`. -/
def Server.HasClient (σ : Server) (i : ℕ) : Prop :=
  ∃ C, σ.clients[i]? = some C

/-- There is a channel at `x`. -/
def Server.HasChannel (σ : Server) (x : ℕ) : Prop :=
  ∃ X, σ.heap.get? x = some X

/-- The pointers of the channel `X` lead somewhere. -/
def Server.Anchors (σ : Server) (X : JzChannel) : Prop :=
  σ.HasClient X.parent ∧ σ.Linked X

/-- **Nothing is lost**: what was there in `σ₀` still is, and all pointers lead to such. -/
structure Intact (σ₀ σ : Server) : Prop where
  clients : ∀ i, σ₀.HasClient i → σ.HasClient i
  channels : ∀ x, σ₀.HasChannel x → σ.HasChannel x
  anchors : ∀ x X, σ.heap.get? x = some X → σ₀.Anchors X

/-- The channels are in order, and all pointers are mutual. -/
structure Server.Secure (σ : Server) : Prop where
  inOrder : σ.InOrder
  peers : σ.PeersMutual

section

variable {σ₀ σ σ₁ σ' : Server} {now x y i : ℕ} {lcn : UInt16} {X X' : JzChannel} {C : JzClient}
  {msg : JzMsg} {e : Event}

/-! ### What is there -/

theorem Server.Anchors.keeps (h : σ.Anchors X) (hkeeps : X.Keeps X') : σ.Anchors X' := by
  have hparent : X'.parent = X.parent := congrArg Prod.fst hkeeps.owner
  exact ⟨hparent ▸ h.1, h.2.keeps hkeeps⟩

/-- A channel that loses its peer. -/
theorem Server.Anchors.single (h : σ.Anchors X) (hparent : X'.parent = X.parent)
    (hpeer : X'.peer = none) : σ.Anchors X' :=
  ⟨hparent ▸ h.1, linked_of_none hpeer⟩

theorem hasClient_setClient {C' : JzClient} (h : σ.HasClient i) :
    (σ.setClient y C').HasClient i := by
  obtain ⟨C, hC⟩ := h
  have hlt := (List.getElem?_eq_some_iff.1 hC).1
  have hlt' : i < (σ.clients.set y C').length := by rwa [List.length_set]
  exact ⟨(σ.clients.set y C')[i], List.getElem?_eq_getElem hlt'⟩

theorem hasChannel_setChannel : (σ.setChannel x X).HasChannel y ↔ σ.HasChannel y :=
  exists_get_setChannel

namespace Intact

theorem setChannel (h : Intact σ₀ σ) (hX : σ₀.Anchors X) : Intact σ₀ (σ.setChannel x X) where
  clients := h.clients
  channels y hy := hasChannel_setChannel.2 (h.channels y hy)
  anchors y Y hY := by
    by_cases hyx : y = x
    · subst hyx
      obtain ⟨Z, hZ⟩ := hasChannel_setChannel.1 ⟨Y, hY⟩
      obtain rfl := Option.some.inj ((get_setChannel_self hZ).symm.trans hY)
      exact hX
    · exact h.anchors y Y ((get_setChannel_of_ne hyx).symm.trans hY)

theorem setClient {C' : JzClient} (h : Intact σ₀ σ) : Intact σ₀ (σ.setClient i C') where
  clients j hj := hasClient_setClient (h.clients j hj)
  channels := h.channels
  anchors := h.anchors

theorem send {sent : List Sent} (h : Intact σ₀ σ) : Intact σ₀ { σ with sent } :=
  ⟨h.clients, h.channels, h.anchors⟩

/-- A handler may begin here. -/
theorem refl (h : Intact σ₀ σ) : Intact σ σ := by
  refine ⟨fun _ => id, fun _ => id, fun x X hX => ?_⟩
  obtain ⟨hparent, hlinked⟩ := h.anchors x X hX
  exact ⟨h.clients _ hparent, fun y hy => h.channels y (hlinked y hy)⟩

end Intact

/-- Where pointers are mutual, they lead somewhere. -/
theorem Server.Secure.intact (hσ : σ.Secure) : Intact σ σ where
  clients _ := id
  channels _ := id
  anchors x X hX := by
    refine ⟨hσ.inOrder.registered.homed x X hX, fun y hy => ?_⟩
    obtain ⟨Y, hY, -⟩ := hσ.peers x y (.intro hX hy)
    exact ⟨Y, hY⟩

/-! ### Reads, writes and messages -/

theorem safe_assertThat {b : Bool} : FailsOnly .assertFailed (assertThat b) fun _ => True := by
  cases b with
  | true => exact .ok trivial
  | false => exact .error

theorem safe_channel (h : Intact σ₀ σ) (hx : σ₀.HasChannel x) :
    FailsOnly .assertFailed (σ.channel x) σ₀.Anchors := by
  obtain ⟨X, hX⟩ := h.channels x hx
  rw [channel_of_get hX]
  exact .ok (h.anchors x X hX)

theorem safe_client (h : Intact σ₀ σ) (hi : σ₀.HasClient i) :
    FailsOnly .assertFailed (σ.client i) fun C => σ.clients[i]? = some C := by
  obtain ⟨C, hC⟩ := h.clients i hi
  rw [client_of_get hC]
  exact .ok hC

theorem safe_diagnosticString :
    FailsOnly .assertFailed (jzClientDiagnosticString C) fun _ => True :=
  safe_assertThat

theorem safe_update {f : JzChannel → JzChannel} (h : Intact σ₀ σ) (hx : σ₀.HasChannel x)
    (hf : ∀ X, σ₀.Anchors X → σ₀.Anchors (f X)) :
    FailsOnly .assertFailed (σ.update x f) (Intact σ₀) :=
  (safe_channel h hx).bind fun X hX => .ok (h.setChannel (hf X hX))

theorem safe_updateClient {f : JzClient → JzClient} (h : Intact σ₀ σ) (hi : σ₀.HasClient i) :
    FailsOnly .assertFailed (σ.updateClient i f) (Intact σ₀) :=
  (safe_client h hi).bind fun _ _ => .ok h.setClient

theorem safe_sendMsg {o : Option ℕ} (h : Intact σ₀ σ) (hi : σ₀.HasClient i) :
    FailsOnly .assertFailed (jzClientSendMsg i o msg σ) (Intact σ₀) :=
  (safe_client h hi).bind fun _ _ => safe_diagnosticString.bind fun _ _ => .ok h.send

theorem safe_dump (h : Intact σ₀ σ) (hx : σ₀.HasChannel x) :
    FailsOnly .assertFailed (jzChannelDump x σ) fun _ => True := by
  refine (safe_channel h hx).bind fun X hX => (safe_client h hX.1).bind fun _ _ => ?_
  split
  · rename_i y hpeer
    exact (safe_channel h (hX.2 y hpeer)).bind fun Y hY =>
      (safe_client h hY.1).bind fun _ _ => .ok trivial
  · exact .ok trivial

/-! ### Messages of the server -/

theorem safe_packetBytes {p : ℕ} : FailsOnly .assertFailed (packetBytes p) fun _ => True :=
  safe_assertThat.bind fun _ _ => .ok trivial

theorem safe_takeReceipt {new : UInt16 → UInt16 → JzMsg} :
    FailsOnly .assertFailed (X.takeReceipt new msg) fun _ => True :=
  safe_assertThat.bind fun _ _ => .ok trivial

theorem safe_doServerData :
    FailsOnly .assertFailed (jzChannelDoServerData X msg) fun _ => True :=
  safe_packetBytes.bind fun _ _ => safe_assertThat.bind fun _ _ => safe_assertThat.bind fun _ _ =>
    safe_assertThat.bind fun _ _ => .ok trivial

theorem safe_inState (hX : σ.Anchors X) :
    FailsOnly .assertFailed (jzChannelProcessServerMessageInState now X msg)
      fun r => σ.Anchors r.1 where
  eq := by
    have hsafe : FailsOnly .assertFailed (jzChannelProcessServerMessageInState now X msg)
        fun _ => True := by
      unfold jzChannelProcessServerMessageInState
      split
      case h_9 => exact safe_doServerData
      case h_10 | h_11 => exact safe_takeReceipt
      all_goals exact .ok trivial
    exact hsafe.eq
  post r hr := hX.keeps (inState_effect hr).keeps

theorem safe_processServerMessage (h : Intact σ₀ σ) (hx : σ₀.HasChannel x) :
    FailsOnly .assertFailed (jzChannelProcessServerMessage now x msg σ) (Intact σ₀) := by
  refine (safe_channel h hx).bind fun X hX => (safe_inState hX).bind fun r hr => ?_
  obtain ⟨X', out⟩ := r
  have hset : Intact σ₀ (σ.setChannel x X') := h.setChannel hr
  cases out with
  | none => exact (FailsOnly.ok hset).bind fun _ h => (safe_dump h hx).bind fun _ _ => .ok h
  | some msg2 =>
    exact (safe_sendMsg hset hX.1).bind fun _ h => (safe_dump h hx).bind fun _ _ => .ok h

theorem safe_toPeer {f : JzChannel → JzMsg} (h : Intact σ₀ σ) (hX : σ₀.Anchors X) :
    FailsOnly .assertFailed (X.toPeer now f σ) (Intact σ₀) := by
  unfold JzChannel.toPeer
  split
  · rename_i y hpeer
    have hy : σ₀.HasChannel y := hX.2 y hpeer
    exact (safe_channel h hy).bind fun Y _ => safe_processServerMessage h hy
  · exact .ok h

theorem safe_updatePeer {f : JzChannel → JzChannel} (h : Intact σ₀ σ) (hX : σ₀.Anchors X)
    (hf : ∀ Y, σ₀.Anchors Y → σ₀.Anchors (f Y)) :
    FailsOnly .assertFailed (X.updatePeer f σ) (Intact σ₀) := by
  unfold JzChannel.updatePeer
  split
  · rename_i y hpeer
    exact safe_update h (hX.2 y hpeer) hf
  · exact .ok h

/-! ### Punishments and restarts -/

theorem safe_punishClear {cause : ClearCause} {diagnostic : Diag} (h : Intact σ₀ σ)
    (hx : σ₀.HasChannel x) :
    FailsOnly .assertFailed (jzChannelDoPunishmentClearRequest now x cause diagnostic σ)
      (Intact σ₀) :=
  (safe_dump h hx).bind fun _ _ => (safe_channel h hx).bind fun _ hX =>
    (safe_processServerMessage h hx).bind fun _ h =>
      FailsOnly.bind (safe_updatePeer h hX fun _ hY => hY.single rfl rfl) fun _ h =>
        safe_toPeer h hX

theorem safe_punishReset {cause : ResetCause} {diagnostic : Diag} (h : Intact σ₀ σ)
    (hx : σ₀.HasChannel x) :
    FailsOnly .assertFailed (jzChannelDoPunishmentResetRequest now x cause diagnostic σ)
      (Intact σ₀) :=
  (safe_dump h hx).bind fun _ _ => (safe_channel h hx).bind fun _ hX =>
    (safe_processServerMessage h hx).bind fun _ h => safe_toPeer h hX

theorem safe_restartChannel {cause : ClearCause} {diagnostic : UInt8} (h : Intact σ₀ σ)
    (hx : σ₀.HasChannel x) :
    FailsOnly .assertFailed (restartChannel cause now x diagnostic σ) (Intact σ₀) :=
  (safe_channel h hx).bind fun _ hX =>
    FailsOnly.bind (safe_update h hx fun _ hX => hX.single rfl rfl) fun _ h =>
      FailsOnly.bind (safe_updatePeer h hX fun _ hY => hY.single rfl rfl) fun _ h =>
        (safe_toPeer h hX).bind fun _ h => safe_update h hx fun _ hX => hX

/-! ### Calls -/

theorem safe_negotiate {rngchk : ℕ → ℤ} {pivot request current : ℕ} :
    FailsOnly .assertFailed (negotiate rngchk pivot request current) fun _ => True := by
  refine safe_assertThat.bind fun _ _ => safe_assertThat.bind fun _ _ => ?_
  split
  · exact .ok trivial
  split
  · exact .ok trivial
  · exact .ok trivial

theorem safe_callAcceptedError :
    FailsOnly .assertFailed (callAcceptedError X msg) fun _ => True := by
  refine safe_negotiate.bind fun _ _ => ?_
  split
  · exact .ok trivial
  refine safe_negotiate.bind fun _ _ => ?_
  split
  · exact .ok trivial
  refine safe_negotiate.bind fun _ _ => ?_
  split
  · exact .ok trivial
  · exact .ok trivial

theorem safe_callAccepted (h : Intact σ₀ σ) (hx : σ₀.HasChannel x) :
    FailsOnly .assertFailed (jzChannelDoClientCallAccepted now x msg σ) (Intact σ₀) := by
  refine (safe_channel h hx).bind fun X hX => safe_callAcceptedError.bind fun err _ => ?_
  cases err with
  | some diagnostic => exact safe_punishClear h hx
  | none =>
    exact FailsOnly.bind (safe_update h hx fun _ hX => hX) fun _ h =>
      safe_assertThat.bind fun _ _ => (safe_toPeer h hX).bind fun _ h =>
        safe_update h hx fun _ hX => hX

theorem safe_callCollision (h : Intact σ₀ σ) (hx : σ₀.HasChannel x) :
    FailsOnly .assertFailed (jzChannelDoClientCallCollision now x msg σ) (Intact σ₀) :=
  (safe_channel h hx).bind fun _ hX => FailsOnly.bind (safe_update h hx fun _ hX => hX) fun _ h =>
    safe_assertThat.bind fun _ _ => (safe_toPeer h hX).bind fun _ h =>
      safe_update h hx fun _ hX => hX

/-- The two channels are there already. -/
theorem safe_connect (h : Intact σ₀ σ) (hx : σ₀.HasChannel x) (hy : σ₀.HasChannel y) :
    FailsOnly .assertFailed (jzChannelConnect now x y msg σ) (Intact σ₀) := by
  have hpoint {z : ℕ} (hz : σ₀.HasChannel z) (Z : JzChannel) (hZ : σ₀.Anchors Z) :
      σ₀.Anchors { Z with peer := some z } := by
    refine ⟨hZ.1, fun w hw => ?_⟩
    obtain rfl := Option.some.inj hw
    exact hz
  exact FailsOnly.bind (safe_update h hx (hpoint hy)) fun _ h =>
    FailsOnly.bind (safe_update h hy (hpoint hx)) fun _ h =>
      FailsOnly.bind (safe_update h hx fun _ hX => hX) fun _ h =>
        (safe_processServerMessage h hy).bind fun _ h => safe_update h hx fun _ hX => hX

/-- The new channel is there as well. -/
theorem safe_openChannel (h : Intact σ₀ σ) (hi : σ₀.HasClient i) :
    FailsOnly .assertFailed (openChannel i lcn σ)
      fun σ' => Intact σ₀ σ' ∧ σ'.HasChannel σ.next := by
  refine (safe_client h hi).bind fun C hC => .ok ⟨⟨fun j hj => ?_, fun z hz => ?_, ?_⟩, ?_⟩
  · exact hasClient_setClient (h.clients j hj)
  · obtain ⟨Z, hZ⟩ := h.channels z hz
    by_cases hnext : z = σ.next
    · subst hnext
      exact ⟨_, Table.get?_set_self⟩
    · exact ⟨Z, (Table.get?_set_of_ne hnext).trans hZ⟩
  · intro z Z hZ
    by_cases hnext : z = σ.next
    · subst hnext
      obtain rfl := Option.some.inj (Table.get?_set_self.symm.trans hZ)
      exact ⟨hi, linked_of_none rfl⟩
    · exact h.anchors z Z ((Table.get?_set_of_ne hnext).symm.trans hZ)
  · exact ⟨_, Table.get?_set_self⟩

theorem safe_reserveLowChannel (h : Intact σ₀ σ) (hi : σ₀.HasClient i) :
    FailsOnly .assertFailed (jzClientReserveLowChannel i σ)
      fun r => Intact σ₀ r.2 ∧ ∀ y, r.1 = some y → r.2.HasChannel y := by
  refine (safe_client h hi).bind fun C _ => ?_
  simp only
  split
  · refine (safe_openChannel h hi).bind fun σ₁ h₁ => safe_diagnosticString.bind fun _ _ =>
      safe_assertThat.bind fun _ _ => .ok ⟨h₁.1, fun y hy => ?_⟩
    obtain rfl := Option.some.inj hy
    exact h₁.2
  · refine .ok ⟨h, fun y hy => ?_⟩
    cases hy

/-- A client is looked for under an address. -/
theorem safe_findClient {address : Option CString} (haddress : ∃ a, address = some a) :
    FailsOnly .assertFailed (jzClientListFindClient address σ)
      fun r => ∀ j, r = some j → σ.HasClient j := by
  obtain ⟨a, rfl⟩ := haddress
  refine .ok fun j hj => ?_
  obtain ⟨hlt, -⟩ := List.findIdx?_eq_some_iff_getElem.1 hj
  exact ⟨_, List.getElem?_eq_getElem hlt⟩

/-- What a handler may do that opens a channel. -/
def Server.Holds (x : ℕ) (σ : Server) : Prop :=
  Intact σ σ ∧ σ.HasChannel x

theorem Intact.holds (h : Intact σ₀ σ) (hx : σ₀.HasChannel x) : σ.Holds x :=
  ⟨h.refl, h.channels x hx⟩

theorem safe_callRequest (h : Intact σ₀ σ) (hx : σ₀.HasChannel x)
    (haddress : ∃ a, msg.calledAddress = some a) :
    FailsOnly .assertFailed (jzChannelDoClientCallRequest now x msg σ) (Server.Holds x) := by
  have hpunished {σ₁ : Server} {cause : ClearCause} {diagnostic : Diag} (h₁ : Intact σ₀ σ₁) :
      FailsOnly .assertFailed (jzChannelDoPunishmentClearRequest now x cause diagnostic σ₁)
        (Server.Holds x) := (safe_punishClear h₁ hx).mono fun _ h => h.holds hx
  refine (safe_channel h hx).bind fun X hX => (safe_client h hX.1).bind fun C _ => ?_
  split
  · exact hpunished h
  refine (safe_findClient haddress).bind fun found hfound => ?_
  cases found with
  | none => exact hpunished h
  | some peer =>
    refine (safe_client h.refl (hfound peer rfl)).bind fun P _ => ?_
    split
    · exact hpunished h
    refine (safe_reserveLowChannel h.refl (hfound peer rfl)).bind fun r hr => ?_
    obtain ⟨reserved, σ₁⟩ := r
    have hx₁ : σ₁.HasChannel x := hr.1.channels x (h.channels x hx)
    cases reserved with
    | none => exact (safe_punishClear hr.1.refl hx₁).mono fun _ h => h.holds hx₁
    | some y => exact (safe_connect hr.1.refl hx₁ (hr.2 y rfl)).mono fun _ h => h.holds hx₁

/-! ### Clears and resets -/

theorem safe_clearRequest (h : Intact σ₀ σ) (hx : σ₀.HasChannel x) :
    FailsOnly .assertFailed (jzChannelDoClientClearRequest now x msg σ) (Intact σ₀) :=
  (safe_channel h hx).bind fun _ hX => (safe_toPeer h hX).bind fun _ h =>
    safe_update h hx fun _ hX => hX

theorem safe_resetRequest (h : Intact σ₀ σ) (hx : σ₀.HasChannel x) :
    FailsOnly .assertFailed (jzChannelDoClientResetRequest now x msg σ) (Intact σ₀) := by
  unfold jzChannelDoClientResetRequest
  split
  · exact safe_punishReset h hx
  · exact (safe_channel h hx).bind fun _ hX =>
      FailsOnly.bind (safe_update h hx fun _ hX => hX) fun _ h => safe_toPeer h hX

theorem safe_resetConfirmation (h : Intact σ₀ σ) (hx : σ₀.HasChannel x) :
    FailsOnly .assertFailed (jzChannelDoClientResetConfirmation now x σ) (Intact σ₀) :=
  (safe_channel h hx).bind fun _ hX =>
    FailsOnly.bind (safe_update h hx fun _ hX => hX) fun _ h => safe_toPeer h hX

/-! ### Data and acknowledgements -/

theorem safe_clientDataError :
    FailsOnly .assertFailed (clientDataError X msg) fun _ => True := by
  refine safe_packetBytes.bind fun _ _ => ?_
  split
  · exact .ok trivial
  split
  · exact .ok trivial
  split
  · exact .ok trivial
  split
  · exact .ok trivial
  · exact .ok trivial

theorem safe_data (h : Intact σ₀ σ) (hx : σ₀.HasChannel x) :
    FailsOnly .assertFailed (jzChannelDoClientData now x msg σ) (Intact σ₀) := by
  refine (safe_channel h hx).bind fun X hX => safe_clientDataError.bind fun err _ => ?_
  cases err with
  | some diagnostic => exact safe_punishReset h hx
  | none => exact FailsOnly.bind (safe_update h hx fun _ hX => hX) fun _ h => safe_toPeer h hX

theorem safe_receipt {new : UInt16 → UInt16 → JzMsg} (h : Intact σ₀ σ) (hx : σ₀.HasChannel x) :
    FailsOnly .assertFailed (clientReceipt new now x msg σ) (Intact σ₀) := by
  refine (safe_channel h hx).bind fun X hX => ?_
  split
  · exact safe_punishReset h hx
  · exact FailsOnly.bind (safe_update h hx fun _ hX => hX) fun _ h => safe_toPeer h hX

/-! ### Messages to a channel -/

theorem safe_resetTimerOf {s : ChannelState} {t : JzChannelTimerType} (h : Intact σ₀ σ)
    (hx : σ₀.HasChannel x) : FailsOnly .assertFailed (resetTimerOf s t x σ) (Intact σ₀) := by
  refine safe_update h hx fun X hX => ?_
  split
  · exact hX
  · exact hX

/-- **A message to a channel.** Only a call opens another one. -/
theorem safe_processMessageInState (h : Intact σ₀ σ) (hx : σ₀.HasChannel x)
    (haddress : msg.id = .callRequest → ∃ a, msg.calledAddress = some a) :
    FailsOnly .assertFailed (jzChannelProcessMessageInState now x msg σ) (Server.Holds x) := by
  have hholds (σ' : Server) (h' : Intact σ₀ σ') : σ'.Holds x := h'.holds hx
  refine (safe_channel h hx).bind fun X _ => ?_
  cases X.state with
  | p1Ready =>
    simp only
    split
    · exact (safe_clearRequest h hx).mono hholds
    · exact safe_callRequest h hx (haddress ‹_›)
    · exact (safe_punishClear h hx).mono hholds
  | p3ServerWaiting =>
    simp only
    refine FailsOnly.mono (FailsOnly.bind (P := Intact σ₀) ?_ fun _ h =>
      safe_resetTimerOf h hx) hholds
    split
    · exact safe_clearRequest h hx
    · exact safe_callCollision h hx
    · exact safe_callAccepted h hx
    · exact safe_punishClear h hx
  | d1FlowControlReady =>
    simp only
    refine FailsOnly.mono ?_ hholds
    split
    · exact safe_clearRequest h hx
    · exact safe_resetRequest h hx
    · exact safe_data h hx
    · exact safe_receipt h hx
    · exact safe_receipt h hx
    · exact safe_punishReset h hx
  | d2ClientResetRequest =>
    simp only
    refine FailsOnly.mono ?_ hholds
    split
    · exact safe_clearRequest h hx
    · exact .ok h
    · exact safe_punishReset h hx
  | d3ServerResetIndication =>
    simp only
    refine FailsOnly.mono (FailsOnly.bind (P := Intact σ₀) ?_ fun _ h =>
      safe_resetTimerOf h hx) hholds
    split
    · exact safe_clearRequest h hx
    · exact safe_resetConfirmation h hx
    · exact safe_resetConfirmation h hx
    · exact .ok h
  | p2ClientWaiting | p5CallCollision =>
    simp only
    refine FailsOnly.mono ?_ hholds
    split
    · exact safe_clearRequest h hx
    · exact safe_punishClear h hx
  | p6ClientClearRequest =>
    simp only
    refine FailsOnly.mono ?_ hholds
    split
    · exact .ok h
    · exact safe_punishClear h hx
  | p7ServerClearIndication =>
    simp only
    refine FailsOnly.mono (FailsOnly.bind (P := Intact σ₀) ?_ fun _ h =>
      safe_resetTimerOf h hx) hholds
    split
    · exact safe_update h hx fun _ hX => hX
    · exact safe_update h hx fun _ hX => hX
    · exact .ok h

theorem safe_processMessage (h : Intact σ₀ σ) (hx : σ₀.HasChannel x)
    (haddress : msg.id = .callRequest → ∃ a, msg.calledAddress = some a) :
    FailsOnly .assertFailed (jzChannelProcessMessage now x msg σ) fun _ => True :=
  (safe_processMessageInState h hx haddress).bind fun _ h =>
    (safe_dump h.1 h.2).bind fun _ _ => .ok trivial

/-- The channel of a number is found, or it is opened. -/
theorem safe_findOrOpen (hσ : σ.Secure) (hi : σ.HasClient i) :
    FailsOnly .assertFailed (findOrOpenChannel i lcn σ) fun r => r.2.Holds r.1 := by
  refine (safe_client hσ.intact hi).bind fun C hC => ?_
  split
  · rename_i x hx
    obtain ⟨X, hX, -⟩ := hσ.inOrder.registered.get_of_listed ⟨C, hC, hx⟩
    exact .ok ⟨hσ.intact, X, hX⟩
  · exact (safe_openChannel hσ.intact hi).bind fun _ h =>
      safe_diagnosticString.bind fun _ _ => .ok ⟨h.1.refl, h.2⟩

/-! ### Timers -/

theorem safe_checkTimers (h : Intact σ₀ σ) (hx : σ₀.HasChannel x) :
    FailsOnly .assertFailed (jzChannelCheckTimers now x σ) (Intact σ₀) := by
  refine (safe_channel h hx).bind fun X _ => ?_
  split
  · exact .ok h
  refine FailsOnly.bind (safe_update h hx fun _ hX => hX) fun _ h => ?_
  split
  · exact .error
  · exact (safe_channel h hx).bind fun _ _ => safe_assertThat.bind fun _ _ =>
      FailsOnly.bind (safe_update h hx fun _ hX => hX) fun _ h => safe_punishClear h hx
  · refine (safe_channel h hx).bind fun _ _ => ?_
    split
    · exact safe_punishReset h hx
    · exact safe_punishClear h hx
    · exact .error
  · refine (safe_channel h hx).bind fun X hX => ?_
    split
    · exact safe_punishClear h hx
    · exact FailsOnly.bind (safe_updatePeer h hX fun _ hY => hY.single rfl rfl) fun _ h =>
        FailsOnly.bind (safe_update h hx fun _ hX => hX.single rfl rfl) fun _ h =>
          safe_sendMsg h hX.1
    · exact .error

/-! ### Tasks -/

namespace Server.Secure

theorem task {t : Task} (hσ : σ.Secure) (h : t.Does σ σ') : σ'.Secure := by
  have hregistered := hσ.inOrder.registered
  have hstale (x : ℕ) (_ : t.channel = some x) : ¬ σ.Stale x := hσ.peers.not_stale
  exact ⟨⟨hregistered.task h, timed_kept.task hregistered h hσ.inOrder.timed,
    Task.agrees hregistered hσ.inOrder.timed hstale h hσ.inOrder.agrees⟩,
    Task.mutual hσ.inOrder h hσ.peers⟩

theorem works {xs : Set ℕ} (hσ : σ.Secure) (h : Works xs σ σ') : σ'.Secure := by
  obtain ⟨ts, hrun, -⟩ := h
  exact hrun.preserves Server.Secure hσ fun _ _ _ hτ hstep => hτ.task hstep

theorem cleared (hσ : σ.Secure) : ({ σ with sent := [] } : Server).Secure :=
  ⟨hσ.inOrder.cleared, hσ.peers⟩

end Server.Secure

/-- Between events without a clear of a joined call. -/
theorem secure_of_reachable
    (h : (serverSystem.restrict fun σ e => ¬ e.ClearsJoined σ).Reachable σ) : σ.Secure := by
  obtain ⟨hmutual, hreach⟩ := mutual_of_reachable h
  exact ⟨inOrder_of_reachable hreach, hmutual⟩

/-- The client is still there. -/
def Server.SecureFor (i : ℕ) (σ : Server) : Prop :=
  σ.Secure ∧ σ.HasClient i

theorem safe_tell (h : σ.SecureFor i) :
    FailsOnly .assertFailed (jzClientSendMsg i none msg σ) (Server.SecureFor i) :=
  (safe_sendMsg h.1.intact h.2).result.mono fun σ' h' =>
    have hworks : Works ∅ σ σ' := sendMsg_works h'.1
    ⟨h.1.works hworks, h'.2.clients i h.2⟩

theorem safe_change {f : JzClient → JzClient} (h : σ.SecureFor i)
    (hsame : ∀ C, (f C).channels = C.channels) :
    FailsOnly .assertFailed (σ.updateClient i f) (Server.SecureFor i) :=
  (safe_updateClient h.1.intact h.2).result.mono fun σ' h' =>
    have hworks : Works ∅ σ σ' := updateClient_works h'.1 hsame
    ⟨h.1.works hworks, h'.2.clients i h.2⟩

theorem safe_free (h : Intact σ₀ σ) (hx : σ₀.HasChannel x) :
    FailsOnly .assertFailed (jzChannelFree x σ) fun _ => True :=
  (safe_channel h hx).bind fun _ hX =>
    FailsOnly.bind (safe_updatePeer h hX fun _ hY => hY.single rfl rfl) fun _ _ => .ok trivial

/-- **A loop over the channels of a client.** Each of them is freed when nothing points at it
any more. -/
theorem safe_foreachRemove {cause : ClearCause} {diagnostic : UInt8}
    {entries : List ((_ : UInt16) × ℕ)} (h : σ.SecureFor i) (hnodup : entries.NodupKeys)
    (hlisted : ∀ e ∈ entries, σ.Listed i e.1 e.2) :
    FailsOnly .assertFailed
      (foreachRemove i (fun x => restartChannel cause now x diagnostic) entries σ)
      (Server.SecureFor i) := by
  induction entries generalizing σ with
  | nil => exact .ok h
  | cons e entries ih =>
    rw [List.nodupKeys_cons] at hnodup
    rw [List.forall_mem_cons] at hlisted
    have hx : σ.HasChannel e.2 := by
      obtain ⟨X, hX, -⟩ := h.1.inOrder.registered.get_of_listed hlisted.1
      exact ⟨X, hX⟩
    refine (safe_restartChannel h.1.intact hx).result.bind fun σ₁ h₁ => ?_
    refine FailsOnly.bind (safe_updateClient h₁.2 h.2).result fun σ₂ h₂ => ?_
    refine (safe_free h₂.2 hx).result.bind fun σ₃ h₃ => ?_
    -- One round is a task.
    have htask : (Task.remove cause now i e.1 e.2 diagnostic).Does σ σ₃ :=
      ⟨hlisted.1, σ₁, σ₂, h₁.1, h₂.1, h₃.1⟩
    refine ih ⟨h.1.task htask, ?_⟩ hnodup.2 fun e' he' => ?_
    · rw [Server.HasClient, free_clients h₃.1]
      exact h₂.2.clients i h.2
    · refine listed_of_remove h₁.1 h₂.1 h₃.1 (fun heq => hnodup.1 ?_) (hlisted.2 e' he')
      rw [← heq]
      exact List.mem_keys_of_mem he'

theorem safe_removeAll {cause : ClearCause} {diagnostic : UInt8} (h : σ.SecureFor i)
    (hC : σ.clients[i]? = some C) :
    FailsOnly .assertFailed
      (foreachRemove i (fun x => restartChannel cause now x diagnostic) C.channels.entries σ)
      (Server.SecureFor i) :=
  safe_foreachRemove h C.channels.nodupKeys (listed_of_entry hC)

theorem safe_punishmentRestart {cause : RestartCause} {diagnostic : Diag} (h : σ.SecureFor i) :
    FailsOnly .assertFailed (jzClientDoPunishmentRestart now i cause diagnostic σ)
      (Server.SecureFor i) :=
  (safe_tell h).bind fun _ h => (safe_client h.1.intact h.2).bind fun _ hC =>
    (safe_removeAll h hC).bind fun _ h => safe_change h fun _ => rfl

theorem safe_doRestart {cause diagnostic : UInt8} (h : σ.SecureFor i) :
    FailsOnly .assertFailed (jzClientDoRestart now i cause diagnostic σ)
      (Server.SecureFor i) := by
  unfold jzClientDoRestart
  split
  · exact safe_punishmentRestart h
  · exact FailsOnly.bind (safe_change h fun _ => rfl) fun _ h =>
      (safe_client h.1.intact h.2).bind fun _ hC => (safe_removeAll h hC).bind fun _ h =>
        (safe_tell h).bind fun _ h => safe_change h fun _ => rfl

theorem safe_doHangup (h : σ.SecureFor i) :
    FailsOnly .assertFailed (jzClientDoHangup now i σ) (Server.SecureFor i) :=
  (safe_client h.1.intact h.2).bind fun _ hC => (safe_removeAll h hC).bind fun _ h =>
    safe_change h fun _ => rfl

/-- **A loop over timers.** No channel is freed in it. -/
theorem safe_checkChannelTimers {readings : List (ℕ × ℕ)} (h : σ.SecureFor i)
    (hthere : ∀ r ∈ readings, σ.HasChannel r.2) :
    FailsOnly .assertFailed (checkChannelTimers readings σ) (Server.SecureFor i) := by
  induction readings generalizing σ with
  | nil => exact .ok h
  | cons r readings ih =>
    rw [List.forall_mem_cons] at hthere
    refine (safe_checkTimers h.1.intact hthere.1).result.bind fun σ₁ h₁ => ?_
    have htask : (Task.timers r.1 r.2).Does σ σ₁ := h₁.1
    exact ih ⟨h.1.task htask, h₁.2.clients i h.2⟩ fun r' hr' => h₁.2.channels _ (hthere.2 r' hr')

theorem safe_clientCheckTimers {clock : ℕ → ℕ} (h : σ.SecureFor i) :
    FailsOnly .assertFailed (jzClientCheckTimers clock i σ) fun _ => True := by
  refine (safe_client h.1.intact h.2).bind fun C hC => ?_
  have hthere : ∀ r ∈ C.channels.entries.mapIdx fun k entry => (clock k, entry.2),
      σ.HasChannel r.2 := by
    intro r hr
    obtain ⟨lcn, hlisted⟩ := readings_channelsOf hC r hr
    obtain ⟨X, hX, -⟩ := h.1.inOrder.registered.get_of_listed hlisted
    exact ⟨X, hX⟩
  refine (safe_checkChannelTimers h hthere).bind fun _ h => ?_
  refine (safe_client h.1.intact h.2).bind fun C₁ _ => ?_
  split
  · exact .ok trivial
  refine FailsOnly.bind (safe_change h fun _ => rfl) fun _ h => ?_
  refine (safe_client h.1.intact h.2).bind fun C₂ _ => ?_
  split
  · exact (safe_punishmentRestart h).mono fun _ _ => trivial
  · exact FailsOnly.bind (safe_change h fun _ => rfl) fun _ h =>
      (safe_tell h).mono fun _ _ => trivial
  · exact .error

/-! ### Messages of a client -/

theorem safe_inC1Uninitialized (h : σ.SecureFor i)
    (haddress : msg.id = .connect → ∃ a, msg.callingAddress = some a) :
    FailsOnly .assertFailed (jzClientProcessMessageInC1UninitializedState i msg σ)
      fun _ => True := by
  unfold jzClientProcessMessageInC1UninitializedState
  split
  · refine (safe_findClient (haddress ‹_›)).bind fun found _ => ?_
    cases found with
    | some j => exact (safe_tell h).mono fun _ _ => trivial
    | none => exact (safe_tell h).bind fun _ h =>
        (safe_updateClient h.1.intact h.2).mono fun _ _ => trivial
  · exact .ok trivial

theorem safe_inC2ClientRestartRequest (h : σ.SecureFor i) :
    FailsOnly .assertFailed (jzClientProcessMessageInC2ClientRestartRequestState now i msg σ)
      fun _ => True := by
  unfold jzClientProcessMessageInC2ClientRestartRequestState
  split
  · exact .ok trivial
  split
  · exact (safe_punishmentRestart h).mono fun _ _ => trivial
  · exact (safe_tell h).mono fun _ _ => trivial

theorem safe_inC3ServerRestartRequest (h : σ.SecureFor i) :
    FailsOnly .assertFailed (jzClientProcessMessageInC3ServerRestartRequestState i msg σ)
      fun _ => True := by
  have hreset {f : JzClient → JzClient} {τ : Server} (hτ : τ.SecureFor i) :
      FailsOnly .assertFailed (τ.updateClient i f) fun _ => True :=
    (safe_updateClient hτ.1.intact hτ.2).mono fun _ _ => trivial
  unfold jzClientProcessMessageInC3ServerRestartRequestState
  simp only
  split
  · exact FailsOnly.bind (safe_change h fun _ => rfl) fun _ h => hreset h
  split
  · exact (FailsOnly.ok h).bind fun _ h => hreset h
  · exact (safe_tell h).bind fun _ h => hreset h

theorem safe_inC4Initialized (h : σ.SecureFor i)
    (haddress : msg.id = .callRequest → ∃ a, msg.calledAddress = some a) :
    FailsOnly .assertFailed (jzClientProcessMessageInC4InitializedState now i msg σ)
      fun _ => True := by
  unfold jzClientProcessMessageInC4InitializedState
  split
  · exact (safe_doRestart h).mono fun _ _ => trivial
  split
  · exact (safe_punishmentRestart h).mono fun _ _ => trivial
  split
  · exact (safe_findOrOpen h.1 h.2).bind fun r hr => safe_processMessage hr.1 hr.2 haddress
  · exact (safe_tell h).mono fun _ _ => trivial

theorem safe_clientProcessMessage (h : σ.SecureFor i) (hmsg : WellFormed msg) :
    FailsOnly .assertFailed (jzClientProcessMessage now i msg σ) fun _ => True := by
  refine (safe_client h.1.intact h.2).bind fun C _ => safe_diagnosticString.bind fun _ _ => ?_
  split
  · cases C.state with
    | c1Uninitialized => exact safe_inC1Uninitialized h hmsg.calling
    | c2ClientRestartRequest => exact safe_inC2ClientRestartRequest h
    | c3ServerRestartRequest => exact safe_inC3ServerRestartRequest h
    | c4Initialized => exact safe_inC4Initialized h hmsg.called
  · exact .ok trivial

/-! ### Events -/

/-- **Every event** that the parser can cause follows only pointers that lead somewhere. -/
theorem safe_handle (hσ : σ.Secure) (henabled : e.Enabled σ) (hparsed : e.Parsed) :
    FailsOnly .assertFailed (σ.handle e) fun _ => True := by
  have hthere {j : ℕ} (h : σ.HasSource j) : σ.SecureFor j := by
    obtain ⟨C, hC, -⟩ := h
    exact ⟨hσ, C, hC⟩
  cases e with
  | connect => exact .ok trivial
  | message now i msg => exact safe_clientProcessMessage (hthere henabled) hparsed.wellFormed
  | badMessage i diagnostic => exact (safe_tell (hthere henabled)).mono fun _ _ => trivial
  | corrupt now i => exact (safe_punishmentRestart (hthere henabled)).mono fun _ _ => trivial
  | hangup now i =>
    have h := hthere henabled
    exact (safe_client h.1.intact h.2).bind fun _ _ => safe_diagnosticString.bind fun _ _ =>
      (safe_doHangup h).bind fun _ h =>
        (safe_updateClient h.1.intact h.2).mono fun _ _ => trivial
  | tick clock i =>
    exact safe_clientCheckTimers ⟨hσ, _, List.getElem?_eq_getElem henabled⟩
  | rehash i channels =>
    obtain ⟨C, hC, -⟩ := henabled
    exact (safe_updateClient hσ.intact ⟨C, hC⟩).mono fun _ _ => trivial

end

end Application10
end Jozabad
