import Jozabad.Application10.Channel

/-!
# Everything a server message can do

`ServerEffect now X msg X' out` lists the ways in which a message from the server can turn
the channel `X` into `X'` and send `out`, each with the states and the messages that lead
there. `inState_effect` says that the list is complete. What a server message does to the
owner, the peer and the state of a channel is read off the list.
-/

namespace Jozabad
namespace Application10

/-- Whether a channel in state `s` does anything with a server message. -/
def heeds : ChannelState → MsgId → Bool
  | .p1Ready, id => id = .clearRequest ∨ id = .callRequest
  | .p2ClientWaiting, id => id = .clearRequest ∨ id = .callRequest ∨ id = .callAccepted
  | .p3ServerWaiting, id => id = .clearRequest
  | .p5CallCollision, id => id = .clearRequest ∨ id = .callAccepted
  | .p6ClientClearRequest, id => id = .clearRequest ∨ id = .clearConfirmation
  | .p7ServerClearIndication, _ => false
  | .d1FlowControlReady, id =>
    id = .clearRequest ∨ id = .resetRequest ∨ id = .data ∨ id = .rr ∨ id = .rnr
  | .d2ClientResetRequest, id =>
    id = .clearRequest ∨ id = .resetRequest ∨ id = .resetConfirmation
  | .d3ServerResetIndication, id => id = .clearRequest

/-- **What a server message can do.** -/
inductive ServerEffect (now : ℕ) (X : JzChannel) (msg : JzMsg) : JzChannel → Option JzMsg → Prop
  /-- The call is cleared. -/
  | clear (hid : msg.id = .clearRequest)
      (hs : X.state ≠ .p6ClientClearRequest ∧ X.state ≠ .p7ServerClearIndication) :
      ServerEffect now X msg
        ({ X with state := .p7ServerClearIndication, peer := none }.startTimer now
          .clearIndication TIMER_CLEAR_INDICATION_DURATION_IN_SECONDS)
        (some (jzMsgNewClearRequest msg.lcn msg.cause msg.diagnostic))
  /-- A call comes in. -/
  | incomingCall (hid : msg.id = .callRequest) (hs : X.state = .p1Ready) :
      ServerEffect now X msg
        (({ X with state := .p3ServerWaiting }.storeFacilities msg).startTimer now .incomingCall
          TIMER_INCOMING_CALL_DURATION_IN_SECONDS)
        (some (jzMsgNewCallRequest msg.lcn msg.callingAddress msg.calledAddress msg.packet
          msg.window msg.throughput msg.data))
  /-- The peer has called too. -/
  | collision (hid : msg.id = .callRequest) (hs : X.state = .p2ClientWaiting) :
      ServerEffect now X msg { X with state := .p5CallCollision } none
  /-- The call is accepted. -/
  | connected (hid : msg.id = .callAccepted)
      (hs : X.state = .p2ClientWaiting ∨ X.state = .p5CallCollision) :
      ServerEffect now X msg ((jzChannelResetFlowControl X).storeFacilities msg)
        (some (jzMsgNewCallAccepted msg.lcn msg.callingAddress msg.calledAddress msg.packet
          msg.window msg.throughput msg.data))
  /-- A channel that is being cleared takes the message for the confirmation. -/
  | confirmClear (hid : msg.id = .clearRequest ∨ msg.id = .clearConfirmation)
      (hs : X.state = .p6ClientClearRequest) :
      ServerEffect now X msg { X with state := .d1FlowControlReady }
        (some (jzMsgNewClearConfirmation msg.lcn))
  /-- The call is reset. -/
  | reset (hid : msg.id = .resetRequest) (hs : X.state = .d1FlowControlReady) :
      ServerEffect now X msg
        ({ X with state := .d3ServerResetIndication }.startTimer now .resetIndication
          TIMER_RESET_INDICATION_DURATION_IN_SECONDS)
        (some (jzMsgNewResetRequest msg.lcn msg.cause msg.diagnostic))
  /-- A channel that has asked for a reset takes the message for the confirmation. -/
  | confirmReset (hid : msg.id = .resetRequest ∨ msg.id = .resetConfirmation)
      (hs : X.state = .d2ClientResetRequest) :
      ServerEffect now X msg (jzChannelResetFlowControl X)
        (some (jzMsgNewResetConfirmation msg.lcn))
  /-- Data goes on to the client. -/
  | data (hid : msg.id = .data) (hs : X.state = .d1FlowControlReady)
      (hwindow : seqInRange msg.ps.toNat X.peerPr.toNat
        (windowEnd X.peerPr.toNat X.window.toNat) = true) :
      ServerEffect now X msg { X with peerPr := msg.pr, peerPs := msg.ps }
        (some (jzMsgNewData msg.lcn msg.q msg.pr msg.ps msg.data))
  /-- An acknowledgement goes on to the client. -/
  | rr (hid : msg.id = .rr) (hs : X.state = .d1FlowControlReady)
      (hpr : seqInRange msg.pr.toNat X.peerPr.toNat X.clientPs.toNat = true) :
      ServerEffect now X msg { X with peerPr := msg.pr } (some (jzMsgNewRr msg.lcn msg.pr))
  /-- The same, with the request to stop sending. -/
  | rnr (hid : msg.id = .rnr) (hs : X.state = .d1FlowControlReady)
      (hpr : seqInRange msg.pr.toNat X.peerPr.toNat X.clientPs.toNat = true) :
      ServerEffect now X msg { X with peerPr := msg.pr } (some (jzMsgNewRnr msg.lcn msg.pr))
  /-- The message is ignored. -/
  | ignored (hs : heeds X.state msg.id = false) : ServerEffect now X msg X none

section

variable {now : ℕ} {X X' : JzChannel} {msg : JzMsg} {out : Option JzMsg}

theorem takeReceipt_eq_ok {new : UInt16 → UInt16 → JzMsg}
    (h : X.takeReceipt new msg = .ok (X', out)) :
    seqInRange msg.pr.toNat X.peerPr.toNat X.clientPs.toNat = true ∧
      X' = { X with peerPr := msg.pr } ∧ out = some (new msg.lcn msg.pr) := by
  obtain ⟨_, hassert, h⟩ := bind_eq_ok h
  cases h
  exact ⟨eq_true_of_assertThat hassert, rfl, rfl⟩

theorem doServerData_eq_ok (h : jzChannelDoServerData X msg = .ok (X', out)) :
    seqInRange msg.ps.toNat X.peerPr.toNat (windowEnd X.peerPr.toNat X.window.toNat) = true ∧
      X' = { X with peerPr := msg.pr, peerPs := msg.ps } ∧
      out = some (jzMsgNewData msg.lcn msg.q msg.pr msg.ps msg.data) := by
  obtain ⟨n, -, h⟩ := bind_eq_ok h
  obtain ⟨_, -, h⟩ := bind_eq_ok h
  obtain ⟨_, -, h⟩ := bind_eq_ok h
  obtain ⟨_, hassert, h⟩ := bind_eq_ok h
  cases h
  exact ⟨eq_true_of_assertThat hassert, rfl, rfl⟩

/-- **The list is complete.** -/
theorem inState_effect (h : jzChannelProcessServerMessageInState now X msg = .ok (X', out)) :
    ServerEffect now X msg X' out := by
  unfold jzChannelProcessServerMessageInState at h
  -- The cases are the branches of the source, in its order.
  split at h
  case h_1 hs hid | h_3 hs hid | h_6 hs hid | h_7 hs hid | h_12 hs hid | h_15 hs hid
      | h_16 hs hid =>
    cases h
    exact .clear hid ⟨by simp [hs], by simp [hs]⟩
  case h_2 hs hid =>
    cases h
    exact .incomingCall hid hs
  case h_4 hs hid =>
    cases h
    exact .collision hid hs
  case h_5 hs hid =>
    cases h
    exact .connected hid (.inl hs)
  case h_17 hs hid =>
    cases h
    exact .connected hid (.inr hs)
  case h_8 hs hid =>
    cases h
    exact .reset hid hs
  case h_9 hs hid =>
    obtain ⟨hwindow, rfl, rfl⟩ := doServerData_eq_ok h
    exact .data hid hs hwindow
  case h_10 hs hid =>
    obtain ⟨hpr, rfl, rfl⟩ := takeReceipt_eq_ok h
    exact .rr hid hs hpr
  case h_11 hs hid =>
    obtain ⟨hpr, rfl, rfl⟩ := takeReceipt_eq_ok h
    exact .rnr hid hs hpr
  case h_13 hs hid =>
    cases h
    exact .confirmReset (.inl hid) hs
  case h_14 hs hid =>
    cases h
    exact .confirmReset (.inr hid) hs
  case h_18 hs hid =>
    cases h
    exact .confirmClear (.inl hid) hs
  case h_19 hs hid =>
    cases h
    exact .confirmClear (.inr hid) hs
  case h_20 =>
    cases h
    refine .ignored ?_
    -- The message and the state are none of the pairs above.
    cases hs : X.state <;> simp_all [heeds]

/-! ### Owner, peer and state -/

/-- The client and the number of a channel, which stay the same. -/
def JzChannel.owner (X : JzChannel) : ℕ × UInt16 :=
  (X.parent, X.lcn)

/-- The channel keeps its owner, and keeps or loses its peer. -/
structure JzChannel.Keeps (X X' : JzChannel) : Prop where
  owner : X'.owner = X.owner
  peer : X'.peer = X.peer ∨ X'.peer = none

theorem JzChannel.Keeps.refl (X : JzChannel) : X.Keeps X :=
  ⟨rfl, .inl rfl⟩

theorem JzChannel.Keeps.trans {X'' : JzChannel} (h : X.Keeps X') (h' : X'.Keeps X'') :
    X.Keeps X'' := by
  refine ⟨h'.owner.trans h.owner, ?_⟩
  obtain hp | hp := h'.peer
  · rw [hp]
    exact h.peer
  · exact .inr hp

theorem ServerEffect.keeps (h : ServerEffect now X msg X' out) : X.Keeps X' := by
  cases h with
  | clear => exact ⟨rfl, .inr rfl⟩
  | incomingCall | collision | connected | confirmClear | reset | confirmReset | data | rr | rnr
    | ignored => exact ⟨rfl, .inl rfl⟩

/-- What the server sends for a channel carries the number that the handler was given. -/
theorem ServerEffect.out_lcn {m : JzMsg} (h : ServerEffect now X msg X' (some m)) :
    m.lcn = msg.lcn := by
  cases h with
  | clear | incomingCall | connected | confirmClear | reset | confirmReset | data | rr | rnr => rfl

/-- What is not heeded is ignored. -/
theorem ServerEffect.eq_ignored (h : ServerEffect now X msg X' out)
    (hs : heeds X.state msg.id = false) : X' = X ∧ out = none := by
  have hheeds {s : ChannelState} {id : MsgId} (hX : X.state = s) (hid : msg.id = id)
      (htrue : heeds s id = true) : False := by
    rw [hX, hid, htrue] at hs
    cases hs
  cases h with
  | ignored => exact ⟨rfl, rfl⟩
  | clear hid hstate =>
    obtain ⟨hp6, hp7⟩ := hstate
    rw [hid] at hs
    cases hX : X.state <;> simp_all [heeds]
  | incomingCall hid hX | collision hid hX | reset hid hX | data hid hX | rr hid hX
    | rnr hid hX => exact (hheeds hX hid rfl).elim
  | connected hid hX => obtain hX | hX := hX <;> exact (hheeds hX hid rfl).elim
  | confirmClear hid hX | confirmReset hid hX =>
    obtain hid | hid := hid <;> exact (hheeds hX hid rfl).elim

/-- A channel gets no peer, and only a clear takes its peer away. -/
theorem ServerEffect.peer (h : ServerEffect now X msg X' out) :
    (X'.peer = X.peer ∧ (msg.id = .clearRequest →
        X.state = .p6ClientClearRequest ∨ X.state = .p7ServerClearIndication)) ∨
      (X'.peer = none ∧ X'.state = .p7ServerClearIndication ∧ msg.id = .clearRequest) := by
  cases h with
  | clear hid => exact .inr ⟨rfl, rfl, hid⟩
  | confirmClear _ hs => exact .inl ⟨rfl, fun _ => .inl hs⟩
  | ignored hs =>
    refine .inl ⟨rfl, fun hid => ?_⟩
    rw [hid] at hs
    cases hX : X.state <;> simp_all [heeds]
  | incomingCall hid | collision hid | connected hid | reset hid | data hid | rr hid | rnr hid =>
    exact .inl ⟨rfl, fun hclear => by rw [hid] at hclear; cases hclear⟩
  | confirmReset hid =>
    refine .inl ⟨rfl, fun hclear => ?_⟩
    obtain hid | hid := hid <;> rw [hid] at hclear <;> cases hclear

/-- The channel `X` once it is cleared. -/
def JzChannel.cleared (now : ℕ) (X : JzChannel) : JzChannel :=
  { X with state := .p7ServerClearIndication, peer := none }.startTimer now .clearIndication
    TIMER_CLEAR_INDICATION_DURATION_IN_SECONDS

/-- A clear request clears a channel that is not being cleared. -/
theorem ServerEffect.eq_cleared (h : ServerEffect now X msg X' out) (hid : msg.id = .clearRequest)
    (hs : X.state ≠ .p6ClientClearRequest ∧ X.state ≠ .p7ServerClearIndication) :
    X' = X.cleared now ∧ out = some (jzMsgNewClearRequest msg.lcn msg.cause msg.diagnostic) := by
  cases h with
  | clear => exact ⟨rfl, rfl⟩
  | confirmClear _ hs' => exact absurd hs' hs.1
  | ignored hs' =>
    rw [hid] at hs'
    cases hX : X.state <;> simp_all [heeds]
  | incomingCall hid' | collision hid' | connected hid' | reset hid' | data hid' | rr hid'
    | rnr hid' =>
    rw [hid] at hid'
    cases hid'
  | confirmReset hid' =>
    rw [hid] at hid'
    obtain hid' | hid' := hid' <;> cases hid'

end

end Application10
end Jozabad
