import Jozabad.Application10.PeerSymmetry

/-!
# The delivery of accepted data

A channel accepts `DATA` by its own state and counters (`AcceptsData`), and passes it on.
The peer takes `DATA` in the state `D1` only, and asserts that the packet fits its own
counters (`TakesData`). A peer that has been told of a reset and has not yet confirmed it
leaves the packet aside, while the channel counts it as sent.

* `data_delivered_iff`: accepted `DATA` is sent to the client of the peer in the same step if
  and only if the peer is in `D1` and its assertions hold.
* `data_lost`: a run of two clients in which accepted `DATA` is lost.
-/

namespace Jozabad
namespace Application10

/-- **A message is accepted `DATA`**: the channel counts it instead of resetting the call. -/
def AcceptsData (X : JzChannel) (msg : JzMsg) : Prop :=
  msg.id = .data ∧ X.state = .d1FlowControlReady ∧ clientDataError X msg = .ok none

/-- What the receiving channel asserts of the data. -/
structure TakesData (Y : JzChannel) (msg : JzMsg) : Prop where
  packet : ∃ n, packetBytes Y.packet.toNat = .ok n ∧ msg.data.length ≤ n
  window : seqInRange msg.ps.toNat Y.peerPr.toNat (windowEnd Y.peerPr.toNat Y.window.toNat) = true

/-- The client has a directionality with a name. It may come without one in `CONNECT`. -/
def Server.Named (σ : Server) (i : ℕ) : Prop :=
  ∃ C, σ.clients[i]? = some C ∧ iodirValidate C.iodir.toNat = true

section

variable {σ σ₁ σ' : Server} {now x y i : ℕ} {X Y Y' : JzChannel} {msg : JzMsg} {e : Event}
  {out : Option JzMsg}

/-- The channel after it has accepted `DATA`. -/
def JzChannel.accepting (msg : JzMsg) (X : JzChannel) : JzChannel :=
  { X with clientPs := UInt16.ofNat ((X.clientPs.toNat + 1) % SEQ_MAX), clientPr := msg.pr }

/-- What the peer `Y` is told. -/
def dataFor (msg : JzMsg) (Y : JzChannel) : JzMsg :=
  jzMsgNewData Y.lcn msg.q msg.pr msg.ps msg.data

/-! ### No assertion fails -/

theorem channel_of_get (hX : σ.heap.get? x = some X) : σ.channel x = .ok X := by
  rw [Server.channel, hX]

theorem client_of_get {C : JzClient} (hC : σ.clients[i]? = some C) : σ.client i = .ok C := by
  rw [Server.client, hC]

theorem update_of_get {f : JzChannel → JzChannel} (hX : σ.heap.get? x = some X) :
    σ.update x f = .ok (σ.setChannel x (f X)) :=
  bind_of_eq_ok (channel_of_get hX) rfl

theorem sendMsg_of_named {o : Option ℕ} {M : JzMsg} (h : σ.Named i) :
    jzClientSendMsg i o M σ = .ok { σ with sent := σ.sent ++ [⟨i, o, M⟩] } := by
  obtain ⟨C, hC, hname⟩ := h
  refine bind_of_eq_ok (client_of_get hC) (bind_of_eq_ok (a := ()) ?_ rfl)
  rw [jzClientDiagnosticString, hname, assertThat_true]

theorem dump_of_joined (hX : σ.heap.get? x = some X) (hY : σ.heap.get? y = some Y)
    (hpeer : X.peer = some y) (hown : σ.Named X.parent) (hother : σ.Named Y.parent) :
    jzChannelDump x σ = .ok () := by
  obtain ⟨C, hC, -⟩ := hown
  obtain ⟨D, hD, -⟩ := hother
  refine bind_of_eq_ok (channel_of_get hX) (bind_of_eq_ok (client_of_get hC) ?_)
  simp only [hpeer]
  exact bind_of_eq_ok (channel_of_get hY) (bind_of_eq_ok (client_of_get hD) rfl)

/-- **A message for a channel that is there** is left to that channel. -/
theorem clientProcessMessage_of_listed (hname : σ.Named i) (hdelivers : σ.Delivers i msg)
    (hlisted : σ.Listed i msg.lcn x) :
    jzClientProcessMessage now i msg σ = jzChannelProcessMessage now x msg σ := by
  obtain ⟨⟨C, hC, hs⟩, hvalid, hfor⟩ := hdelivers
  have hid := not_restart hfor
  -- The client has a name for the log, and the channel is found under its number.
  have hlog : jzClientDiagnosticString C = .ok () := by
    obtain ⟨C₀, hC₀, hname⟩ := hname
    obtain rfl : C = C₀ := Option.some.inj (hC.symm.trans hC₀)
    rw [jzClientDiagnosticString, hname, assertThat_true]
  have hfind : findOrOpenChannel i msg.lcn σ = .ok (x, σ) := by
    obtain ⟨C₀, hC₀, hget⟩ := hlisted
    refine bind_of_eq_ok (client_of_get hC₀) ?_
    simp only [hget]
    rfl
  refine bind_of_eq_ok (client_of_get hC) (bind_of_eq_ok hlog ?_)
  rw [if_pos hvalid]
  simp only [hs, jzClientProcessMessageInC4InitializedState, if_neg hid.1, if_neg hid.2,
    if_pos hfor]
  exact bind_of_eq_ok hfind rfl

/-- The peer after it has taken the data. -/
def JzChannel.taking (msg : JzMsg) (Y : JzChannel) : JzChannel :=
  { Y with peerPr := msg.pr, peerPs := msg.ps }

theorem doServerData_of_takes (htakes : TakesData Y msg) (hlength : msg.data.length ≠ 0) :
    jzChannelDoServerData Y (dataFor msg Y) = .ok (Y.taking msg, some (dataFor msg Y)) := by
  obtain ⟨⟨n, hn, hle⟩, hwindow⟩ := htakes
  refine bind_of_eq_ok hn ?_
  refine bind_of_eq_ok (a := ()) ?_ (bind_of_eq_ok (a := ()) ?_ (bind_of_eq_ok (a := ()) ?_ rfl))
  · rw [decide_eq_true (show (dataFor msg Y).data.length ≤ n from hle), assertThat_true]
  · rw [decide_eq_true (show (dataFor msg Y).data.length ≠ 0 from hlength), assertThat_true]
  · rw [show seqInRange (dataFor msg Y).ps.toNat _ _ = true from hwindow, assertThat_true]

theorem inState_of_takes (hs : Y.state = .d1FlowControlReady) (htakes : TakesData Y msg)
    (hlength : msg.data.length ≠ 0) :
    jzChannelProcessServerMessageInState now Y (dataFor msg Y) =
      .ok (Y.taking msg, some (dataFor msg Y)) := by
  unfold jzChannelProcessServerMessageInState
  rw [hs]
  exact doServerData_of_takes htakes hlength

/-- **The peer takes the data** and sends it to its client. -/
theorem processServerMessage_of_takes (hX : σ.heap.get? x = some X) (hY : σ.heap.get? y = some Y)
    (hne : x ≠ y) (hyx : Y.peer = some x) (hown : σ.Named X.parent) (hother : σ.Named Y.parent)
    (hs : Y.state = .d1FlowControlReady) (htakes : TakesData Y msg)
    (hlength : msg.data.length ≠ 0) :
    jzChannelProcessServerMessage now y (dataFor msg Y) σ =
      .ok { σ.setChannel y (Y.taking msg) with
        sent := σ.sent ++ [⟨Y.parent, some y, dataFor msg Y⟩] } := by
  refine bind_of_eq_ok (channel_of_get hY) (bind_of_eq_ok (inState_of_takes hs htakes hlength) ?_)
  refine bind_of_eq_ok (sendMsg_of_named hother) (bind_of_eq_ok (a := ()) ?_ rfl)
  exact dump_of_joined (get_setChannel_self hY)
    ((get_setChannel_of_ne (N := Y.taking msg) hne).trans hX) hyx hother hown

/-- What is checked of accepted `DATA`. -/
theorem clientDataError_eq_none (h : clientDataError X msg = .ok none) :
    (∃ n, packetBytes X.packet.toNat = .ok n ∧ msg.data.length < n) ∧ msg.data.length ≠ 0 ∧
      msg.ps = X.clientPs ∧
      seqInRange msg.ps.toNat X.peerPr.toNat (windowEnd X.peerPr.toNat X.window.toNat) = true ∧
      seqInRange msg.pr.toNat X.clientPr.toNat X.peerPs.toNat = true := by
  obtain ⟨n, hn, h⟩ := bind_eq_ok h
  split at h
  · cases h
  rename_i hlt
  split at h
  · cases h
  rename_i hlength
  split at h
  · cases h
  rename_i hps
  split at h
  · cases h
  rename_i hpr
  rw [not_or, not_not, not_not] at hps
  exact ⟨⟨n, hn, not_le.1 hlt⟩, hlength, hps.1, hps.2, not_not.1 hpr⟩

/-- With a valid packet size the checks have an answer. -/
theorem clientDataError_ne (h : packetRngchk X.packet.toNat = 0) (e : Fault) :
    clientDataError X msg ≠ .error e := by
  unfold clientDataError
  rw [packetBytes_ok h]
  change (if _ then _ else _ : Except Fault (Option Diag)) ≠ _
  split_ifs <;> nofun

/-- The server after the packet has been passed on. -/
def Server.passing (σ : Server) (x y : ℕ) (X Y : JzChannel) (msg : JzMsg) : Server :=
  { (σ.setChannel x (X.accepting msg)).setChannel y (Y.taking msg) with
    sent := σ.sent ++ [⟨Y.parent, some y, dataFor msg Y⟩] }

/-- **Accepted data that the peer takes** is passed on. -/
theorem processMessage_of_takes (hX : σ.heap.get? x = some X) (hY : σ.heap.get? y = some Y)
    (hne : x ≠ y) (hxy : X.peer = some y) (hyx : Y.peer = some x) (hown : σ.Named X.parent)
    (hother : σ.Named Y.parent) (haccept : AcceptsData X msg) (hs : Y.state = .d1FlowControlReady)
    (htakes : TakesData Y msg) :
    jzChannelProcessMessage now x msg σ = .ok (σ.passing x y X Y msg) := by
  obtain ⟨hid, hstate, hvalid⟩ := haccept
  have hlength := (clientDataError_eq_none hvalid).2.1
  have hX₁ : (σ.setChannel x (X.accepting msg)).heap.get? x = some (X.accepting msg) :=
    get_setChannel_self hX
  have hY₁ : (σ.setChannel x (X.accepting msg)).heap.get? y = some Y :=
    (get_setChannel_of_ne hne.symm).trans hY
  -- The peer takes the packet.
  have hpeer : X.toPeer now (dataFor msg) (σ.setChannel x (X.accepting msg)) =
      .ok (σ.passing x y X Y msg) := by
    simp only [JzChannel.toPeer, hxy]
    exact bind_of_eq_ok (channel_of_get hY₁)
      (processServerMessage_of_takes hX₁ hY₁ hne hyx hown hother hs htakes hlength)
  have hdata : jzChannelDoClientData now x msg σ = .ok (σ.passing x y X Y msg) :=
    bind_of_eq_ok (channel_of_get hX)
      (bind_of_eq_ok hvalid (bind_of_eq_ok (update_of_get hX) hpeer))
  have hstep : jzChannelProcessMessageInState now x msg σ = .ok (σ.passing x y X Y msg) := by
    refine bind_of_eq_ok (channel_of_get hX) ?_
    simp only [hstate, hid]
    exact hdata
  -- The line for the log finds both clients.
  have hdump : jzChannelDump x (σ.passing x y X Y msg) = .ok () :=
    dump_of_joined (X := X.accepting msg) (Y := Y.taking msg)
      ((get_setChannel_of_ne (N := Y.taking msg) hne).trans hX₁)
      (get_setChannel_self (N := Y.taking msg) hY₁) hxy hown hother
  exact bind_of_eq_ok hstep (bind_of_eq_ok hdump rfl)

/-! ### What a step shows -/

theorem named_of_diagnosticString {C : JzClient} {u : Unit} (hC : σ.clients[i]? = some C)
    (h : jzClientDiagnosticString C = .ok u) : σ.Named i :=
  ⟨C, hC, eq_true_of_assertThat h⟩

theorem named_of_sendMsg {o : Option ℕ} {M : JzMsg} (h : jzClientSendMsg i o M σ = .ok σ') :
    σ.Named i := by
  obtain ⟨C, hC, h⟩ := bind_eq_ok h
  obtain ⟨_, hname, -⟩ := bind_eq_ok h
  exact named_of_diagnosticString (client_eq_ok hC) hname

/-- Data that a channel in `D1` is given has passed the assertions. -/
theorem takes_of_processServerMessage (hY : σ.heap.get? y = some Y)
    (hs : Y.state = .d1FlowControlReady)
    (h : jzChannelProcessServerMessage now y (dataFor msg Y) σ = .ok σ') :
    TakesData Y msg ∧ σ.Named Y.parent := by
  obtain ⟨⟨Y', out⟩, hstate, h⟩ := bind_eq_ok (channel_bind_eq_ok hY h)
  unfold jzChannelProcessServerMessageInState at hstate
  rw [hs] at hstate
  have hstate : jzChannelDoServerData Y (dataFor msg Y) = .ok (Y', out) := hstate
  obtain ⟨-, -, rfl⟩ := doServerData_eq_ok hstate
  -- The three assertions about the packet, and the one in the send.
  obtain ⟨n, hn, hstate⟩ := bind_eq_ok hstate
  obtain ⟨_, hle, hstate⟩ := bind_eq_ok hstate
  obtain ⟨_, -, hstate⟩ := bind_eq_ok hstate
  obtain ⟨_, hwindow, -⟩ := bind_eq_ok hstate
  obtain ⟨σ₁, hsend, -⟩ := bind_eq_ok h
  have hnamed : (σ.setChannel y Y').Named Y.parent := named_of_sendMsg hsend
  exact ⟨⟨⟨n, hn, of_decide_eq_true (eq_true_of_assertThat hle)⟩, eq_true_of_assertThat hwindow⟩,
    hnamed⟩

/-- What a channel that accepts data tells its peer. -/
theorem toPeer_of_accepts (hX : σ.heap.get? x = some X) (haccept : AcceptsData X msg)
    (h : jzChannelProcessMessage now x msg σ = .ok σ') :
    X.toPeer now (dataFor msg) (σ.setChannel x (X.accepting msg)) = .ok σ' := by
  obtain ⟨hid, hs, hvalid⟩ := haccept
  obtain ⟨σ₁, h, hdump⟩ := bind_eq_ok h
  obtain ⟨_, -, hdump⟩ := bind_eq_ok hdump
  cases hdump
  have h := channel_bind_eq_ok hX h
  simp only [hs, hid] at h
  -- Nothing is wrong with the message, so it goes on to the peer.
  obtain ⟨err, herr, h⟩ := bind_eq_ok (channel_bind_eq_ok hX h)
  obtain rfl : err = none := Except.ok.inj (herr.symm.trans hvalid)
  obtain ⟨σ₂, h₂, h⟩ := bind_eq_ok h
  rw [update_of_get hX] at h₂
  obtain rfl := Except.ok.inj h₂
  exact h

/-- The message comes to a channel that was there. -/
theorem Event.Gives.listed (hgives : e.Gives σ x X msg) (hpeer : X.peer ≠ none) :
    ∃ now i, e = .message now i msg ∧ σ.Delivers i msg ∧ σ.Listed i msg.lcn x ∧
      σ.heap.get? x = some X := by
  cases e with
  | connect | badMessage | corrupt | hangup | tick | rehash => exact hgives.elim
  | message now i m =>
    obtain ⟨rfl, hdelivers, ⟨hlisted, hX⟩ | ⟨-, -, rfl⟩⟩ := hgives
    · exact ⟨now, i, rfl, hdelivers, hlisted, hX⟩
    · exact absurd rfl hpeer

/-- The packet is sent to the client of the peer, under the number of the peer's channel. -/
def Delivered (y : ℕ) (Y : JzChannel) (msg : JzMsg) (σ' : Server) : Prop :=
  ∃ s ∈ σ'.sent, s.client = Y.parent ∧ s.channel = some y ∧
    s.msg = jzMsgNewData Y.lcn msg.q msg.pr msg.ps msg.data

/-- A step with accepted data that the peer takes. -/
theorem step_of_takes (hσ : σ.Registered) (henabled : e.Enabled σ)
    (hgives : e.Gives σ x X msg) (haccept : AcceptsData X msg) (hxy : X.peer = some y)
    (hY : σ.heap.get? y = some Y) (hyx : Y.peer = some x) (hown : σ.Named X.parent)
    (hother : σ.Named Y.parent) (hs : Y.state = .d1FlowControlReady) (htakes : TakesData Y msg) :
    serverSystem.Step σ e (({ σ with sent := [] } : Server).passing x y X Y msg) := by
  obtain ⟨now, i, rfl, hdelivers, hlisted, hX⟩ := hgives.listed (by rw [hxy]; rintro ⟨⟩)
  refine ⟨henabled, ?_⟩
  have hne : x ≠ y := hσ.ne_of_peer hX hxy
  obtain ⟨X₀, hX₀, howner⟩ := hσ.get_of_listed hlisted
  obtain rfl : X = X₀ := Option.some.inj (hX.symm.trans hX₀)
  obtain ⟨rfl, hlcn⟩ := Prod.mk.injEq _ _ _ _ ▸ howner
  have hleft : jzClientProcessMessage now X.parent msg { σ with sent := [] } =
      jzChannelProcessMessage now x msg { σ with sent := [] } :=
    clientProcessMessage_of_listed hown hdelivers hlisted
  exact hleft.trans (processMessage_of_takes hX hY hne hxy hyx hown hother haccept hs htakes)

/-- **A step that accepts `DATA`** counts it and tells the peer. -/
theorem told_of_step (hσ : σ.Registered) (hgives : e.Gives σ x X msg)
    (haccept : AcceptsData X msg) (hxy : X.peer = some y) (hY : σ.heap.get? y = some Y)
    (hstep : serverSystem.Step σ e σ') :
    x ≠ y ∧ σ.heap.get? x = some X ∧ ∃ now, jzChannelProcessServerMessage now y (dataFor msg Y)
      (Server.setChannel { σ with sent := [] } x (X.accepting msg)) = .ok σ' := by
  obtain ⟨now, σ₁, hgot⟩ := hgives.got hσ hstep
  obtain rfl | ⟨-, hnew⟩ := hgot.opened
  · have hX : σ.heap.get? x = some X := hgot.found
    have hne : x ≠ y := hσ.ne_of_peer hX hxy
    have hto := toPeer_of_accepts hgot.found haccept hgot.processed
    simp only [JzChannel.toPeer, hxy] at hto
    obtain ⟨Y₀, hY₀, hto⟩ := bind_eq_ok hto
    have hY₁ : (Server.setChannel { σ with sent := [] } x (X.accepting msg)).heap.get? y =
        some Y := (get_setChannel_of_ne hne.symm).trans hY
    obtain rfl : Y = Y₀ := Option.some.inj (hY₁.symm.trans (channel_eq_ok hY₀))
    exact ⟨hne, hX, now, hto⟩
  · -- A channel that has just been opened has no peer.
    rw [hnew] at hxy
    cases hxy

/-- The step shows that the assertions of the peer hold. -/
theorem takes_of_step (hσ : σ.Registered) (hgives : e.Gives σ x X msg)
    (haccept : AcceptsData X msg) (hxy : X.peer = some y) (hY : σ.heap.get? y = some Y)
    (hs : Y.state = .d1FlowControlReady) (hstep : serverSystem.Step σ e σ') :
    TakesData Y msg ∧ σ.Named X.parent ∧ σ.Named Y.parent := by
  obtain ⟨hne, hX, now, hto⟩ := told_of_step hσ hgives haccept hxy hY hstep
  have hY₁ : (Server.setChannel { σ with sent := [] } x (X.accepting msg)).heap.get? y =
      some Y := (get_setChannel_of_ne hne.symm).trans hY
  obtain ⟨htakes, hother⟩ := takes_of_processServerMessage hY₁ hs hto
  obtain ⟨now₀, i, rfl, hdelivers, hlisted, -⟩ := hgives.listed (by rw [hxy]; rintro ⟨⟩)
  obtain ⟨X₀, hX₀, howner⟩ := hσ.get_of_listed hlisted
  obtain rfl : X = X₀ := Option.some.inj (hX.symm.trans hX₀)
  obtain ⟨rfl, hlcn⟩ := Prod.mk.injEq _ _ _ _ ▸ howner
  -- The client of the sender is named in the log before anything else.
  obtain ⟨C, hC, h⟩ := bind_eq_ok hstep.2
  obtain ⟨_, hname, -⟩ := bind_eq_ok h
  exact ⟨htakes, named_of_diagnosticString (client_eq_ok hC) hname, hother⟩

/-- What the peer does with the data. -/
theorem accepted_step (hσ : σ.Registered) (hgives : e.Gives σ x X msg)
    (haccept : AcceptsData X msg) (hxy : X.peer = some y) (hY : σ.heap.get? y = some Y)
    (hstep : serverSystem.Step σ e σ') :
    ∃ now Y' out, ServerEffect now Y (dataFor msg Y) Y' out ∧
      σ'.heap.get? x = some (X.accepting msg) ∧ σ'.heap.get? y = some Y' ∧
      σ'.sent = post Y y out := by
  obtain ⟨hne, hX, now, hto⟩ := told_of_step hσ hgives haccept hxy hY hstep
  have hX₁ : (Server.setChannel { σ with sent := [] } x (X.accepting msg)).heap.get? x =
      some (X.accepting msg) := get_setChannel_self hX
  have hY₁ : (Server.setChannel { σ with sent := [] } x (X.accepting msg)).heap.get? y =
      some Y := (get_setChannel_of_ne hne.symm).trans hY
  obtain ⟨Y₀, Y', out, hY₀, hstate, rfl⟩ := processServerMessage_eq_ok hto
  obtain rfl : Y = Y₀ := Option.some.inj (hY₁.symm.trans hY₀)
  exact ⟨now, Y', out, inState_effect hstate, (get_setChannel_of_ne hne).trans hX₁,
    get_setChannel_self hY₁, rfl⟩

/-- A channel in `D1` takes the data, and sends it to its client. -/
theorem ServerEffect.takes_data (h : ServerEffect now Y (dataFor msg Y) Y' out)
    (hs : Y.state = .d1FlowControlReady) : Y' = Y.taking msg ∧ out = some (dataFor msg Y) := by
  cases h with
  | data => exact ⟨rfl, rfl⟩
  | ignored hs' =>
    rw [hs] at hs'
    cases hs'
  | clear hid | incomingCall hid | collision hid | connected hid | reset hid | rr hid | rnr hid =>
    cases hid
  | confirmClear hid | confirmReset hid => obtain hid | hid := hid <;> cases hid

/-- In all other states data is left aside. -/
theorem ServerEffect.leaves_data (h : ServerEffect now Y (dataFor msg Y) Y' out)
    (hs : Y.state ≠ .d1FlowControlReady) : Y' = Y ∧ out = none := by
  cases h with
  | data _ hs' => exact absurd hs' hs
  | ignored => exact ⟨rfl, rfl⟩
  | clear hid | incomingCall hid | collision hid | connected hid | reset hid | rr hid | rnr hid =>
    cases hid
  | confirmClear hid | confirmReset hid => obtain hid | hid := hid <;> cases hid

/-! ### The theorem -/

/-- A completed step delivers the data exactly to peers in `D1`. -/
theorem delivered_iff_state (hσ : σ.Registered) (hgives : e.Gives σ x X msg)
    (haccept : AcceptsData X msg) (hxy : X.peer = some y) (hY : σ.heap.get? y = some Y)
    (hstep : serverSystem.Step σ e σ') :
    Delivered y Y msg σ' ↔ Y.state = .d1FlowControlReady := by
  obtain ⟨now, Y', out, heff, -, -, hsent⟩ := accepted_step hσ hgives haccept hxy hY hstep
  constructor
  · rintro ⟨s, hs, -⟩
    by_contra hne
    obtain ⟨-, rfl⟩ := heff.leaves_data hne
    rw [hsent] at hs
    cases hs
  · intro hs
    obtain ⟨-, rfl⟩ := heff.takes_data hs
    refine ⟨⟨Y.parent, some y, dataFor msg Y⟩, ?_, rfl, rfl, rfl⟩
    rw [hsent]
    exact List.mem_cons_self

/-- **Accepted `DATA` is delivered exactly where the peer is in `D1` and takes it.** The
clients' directionalities must have names, for the log. A step that is completed delivers it
exactly to peers in `D1`. -/
theorem data_delivered_iff (hreach : serverSystem.Reachable σ) (hxy : X.peer = some y)
    (hY : σ.heap.get? y = some Y) (hyx : Y.peer = some x) (henabled : e.Enabled σ)
    (hgives : e.Gives σ x X msg) (haccept : AcceptsData X msg) :
    ((∃ σ', serverSystem.Step σ e σ' ∧ Delivered y Y msg σ') ↔
      Y.state = .d1FlowControlReady ∧ TakesData Y msg ∧ σ.Named X.parent ∧ σ.Named Y.parent) ∧
    ∀ σ', serverSystem.Step σ e σ' → (Delivered y Y msg σ' ↔ Y.state = .d1FlowControlReady) := by
  have hσ := registered_of_reachable hreach
  refine ⟨⟨?_, ?_⟩, fun σ' hstep => delivered_iff_state hσ hgives haccept hxy hY hstep⟩
  · rintro ⟨σ', hstep, hdelivered⟩
    have hs := (delivered_iff_state hσ hgives haccept hxy hY hstep).1 hdelivered
    exact ⟨hs, takes_of_step hσ hgives haccept hxy hY hs hstep⟩
  · rintro ⟨hs, htakes, hown, hother⟩
    have hstep := step_of_takes hσ henabled hgives haccept hxy hY hyx hown hother hs htakes
    exact ⟨_, hstep, (delivered_iff_state hσ hgives haccept hxy hY hstep).2 hs⟩

/-- The first packet of a call is delivered. -/
theorem data_delivered_first : ∃ σ σ' Y, ({} : Server).play talkEvents = some σ ∧
    serverSystem.Step σ (.message 0 0 firstData) σ' ∧ Delivered 1 Y firstData σ' := by
  have hplay : ({} : Server).play talkEvents = some _ := rfl
  have hiff := data_delivered_iff (x := 0) (e := .message 0 0 firstData)
    (reachable_of_play hplay) rfl rfl rfl ⟨_, rfl, rfl⟩
    ⟨rfl, ⟨⟨_, rfl, rfl⟩, rfl, rfl⟩, .inl ⟨⟨_, rfl, rfl⟩, rfl⟩⟩ ⟨rfl, rfl, rfl⟩
  obtain ⟨σ', hstep, hdelivered⟩ :=
    hiff.1.2 ⟨rfl, ⟨⟨_, rfl, by decide⟩, rfl⟩, ⟨_, rfl, rfl⟩, ⟨_, rfl, rfl⟩⟩
  exact ⟨_, σ', _, hplay, hstep, hdelivered⟩

/-- **Accepted data is lost.** `A` acknowledges a packet that it has not got, and the server
resets the call. `A` confirms the reset and sends a packet before `B` has confirmed. -/
theorem data_lost : ∃ σ σ' X Y, serverSystem.Reachable σ ∧ X.peer = some 1 ∧
    σ.heap.get? 1 = some Y ∧ Y.peer = some 0 ∧
    Event.Gives σ 0 X firstData (.message 0 0 firstData) ∧ AcceptsData X firstData ∧
    serverSystem.Step σ (.message 0 0 firstData) σ' ∧ ¬ Delivered 1 Y firstData σ' := by
  have hplay : ({} : Server).play (talkEvents ++
    [.message 0 0 (jzMsgNewRr 1 5), .message 0 0 (jzMsgNewResetConfirmation 1)]) = some _ := rfl
  refine ⟨_, _, _, _, reachable_of_play hplay, rfl, rfl, rfl,
    ⟨rfl, ⟨⟨_, rfl, rfl⟩, rfl, rfl⟩, .inl ⟨⟨_, rfl, rfl⟩, rfl⟩⟩, ⟨rfl, rfl, rfl⟩,
    ⟨⟨_, rfl, rfl⟩, rfl⟩, ?_⟩
  rintro ⟨s, hs, -⟩
  cases hs

end

end Application10
end Jozabad
