import Jozabad.Broker.Process

/-!
# Messages that stop the broker

Processing a message returns unless the message reaches a call and meets one of the
five circumstances of `DispatchFaults`.

* An `ENQ` or an `ACK` has a number beyond the columns of the action tables.
* The table of Y has no entry for `DIRECTORY`, and what stands there aborts.
* In a channel that is closed, a call request has an action that the dispatcher does
  not know.
* A channel that was closed may have lost the name of Y, which the dispatcher prints.

Nothing else can go wrong (`sProcess_ok_iff`), because the facilities of a stored
channel are always in range: they were prevalidated when the call was requested, or
negotiated when it was accepted. This invariant, `ChannelsValid`, holds of every
reachable state, also of those in which the pairing is broken.
-/

namespace Jozabad
namespace Broker

open JozaMsg

variable {b b' : JozaPoll} {msg : JozaMsg} {env : Env} {outs : List JozaMsg} {w : Worker}
  {c c' : Channel} {sock : Sock} {isY : Bool} {key other : ℕ}

/-! ### Facilities in range -/

/-- The facilities of a channel are in range. -/
structure FacilitiesValid (c : Channel) : Prop where
  pkt : packetRngchk c.pkt = 0
  window : seqRngchk c.window = 0
  tput : tputRngchk c.tput = 0

/-- A dispatch keeps the facilities in range. -/
theorem Effect.facilitiesValid (h : Effect c sock msg isY c' outs) (hc : FacilitiesValid c) :
    FacilitiesValid c' := by
  cases h with
  | accepted _ _ _ hM =>
    exact ⟨(negotiate_valid hM.pkt).1, (negotiate_valid hM.window).1, (negotiate_valid hM.tput).1⟩
  | data | rr | rnr => exact ⟨by simp [hc.pkt], by simp [hc.window], by simp [hc.tput]⟩
  | _ => exact ⟨hc.pkt, hc.window, hc.tput⟩

/-- The facilities of a new channel are those of the request. -/
theorem channelCreate_facilitiesValid {ynameHi lcn : Lcn} {xzaddr yzaddr : Frame}
    {xname yname : CString} (hpre : Prevalidated msg) (hid : msg.id = .callRequest)
    (h : channelCreate ynameHi lcn xzaddr xname yzaddr yname msg.packet.toNat msg.window.toNat
      msg.throughput.toNat = .ok c) : FacilitiesValid c := by
  unfold channelCreate at h
  obtain ⟨_, -, h⟩ := bind_eq_ok h
  obtain ⟨_, -, h⟩ := bind_eq_ok h
  cases h
  exact ⟨hpre.packet_ok (.inl hid), hpre.window_ok (.inl hid), hpre.tput_ok (.inl hid)⟩

/-- The stored channels have their facilities in range, and their keys are channel
numbers. -/
def ChannelsValid (t : ChannelsTable) : Prop :=
  ∀ l c, t.get? l = some c → l < 2 ^ 16 ∧ FacilitiesValid c

namespace ChannelsValid

variable {t : ChannelsTable} {l : ℕ}

theorem empty : ChannelsValid ∅ := by
  intro l c hc
  cases hc

theorem remove (h : ChannelsValid t) : ChannelsValid (t.remove l) := by
  intro l' c hc
  rw [Table.get?_remove] at hc
  split_ifs at hc
  exact h l' c hc

theorem set (h : ChannelsValid t) {lcn : Lcn} (hc : FacilitiesValid c) :
    ChannelsValid (t.set lcn.toNat c) := by
  intro l' c' hc'
  rw [Table.get?_set] at hc'
  split_ifs at hc' with hl
  · cases hc'
    exact ⟨hl ▸ lcn.toNat_lt, hc⟩
  · exact h l' c' hc'

theorem modify {f : Channel → Channel} (h : ChannelsValid t)
    (hf : ∀ c, t.get? l = some c → FacilitiesValid c → FacilitiesValid (f c)) :
    ChannelsValid (t.modify l f) := by
  intro l' c' hc'
  rw [Table.get?_modify] at hc'
  split_ifs at hc' with hl
  · obtain ⟨c, hc, rfl⟩ := Option.map_eq_some_iff.1 hc'
    obtain ⟨hlt, hvalid⟩ := h l' c hc
    exact ⟨hlt, hf c (hl ▸ hc) hvalid⟩
  · exact h l' c' hc'

/-- A dispatch on a stored channel. -/
theorem dispatch (h : ChannelsValid t) (hc : t.get? l = some c)
    (hdisp : channelDispatch c sock msg isY = .ok (c', outs)) :
    ChannelsValid (t.modify l fun _ => c') :=
  h.modify fun _ _ _ => (channelDispatch_effect hdisp).facilitiesValid (h l c hc).2

/-- The removal of a channel that is closed. -/
theorem sRemoveChannel (h : ChannelsValid b.channels) :
    ChannelsValid (Broker.sRemoveChannel b l c other).channels :=
  h.remove.modify fun _ _ hvalid => ⟨hvalid.pkt, hvalid.window, hvalid.tput⟩

theorem sProcess (h : ChannelsValid b.channels)
    (hproc : Broker.sProcess b msg env = .ok (b', outs)) : ChannelsValid b'.channels := by
  cases sProcess_outcome hproc with
  | call _ hcall hdisp => exact h.dispatch hcall.channel hdisp
  | closed _ hcall hdisp => exact sRemoveChannel (h.dispatch hcall.channel hdisp)
  | callPlaced hpre hplace hnew =>
    have hvalid := channelCreate_facilitiesValid (prevalidated_of_unspecified hpre)
      hplace.callRequest hnew
    exact h.set ⟨hvalid.pkt, hvalid.window, hvalid.tput⟩
  | _ => exact h

theorem keptByTicks : KeptByTicks fun b => ChannelsValid b.channels where
  dispatch h hc hdisp := h.dispatch hc hdisp
  removeChannel _ _ _ h := h.sRemoveChannel
  workers h := h
  exit h := h

theorem step {e : Event} (h : ChannelsValid b.channels) (hstep : b.Step e b') :
    ChannelsValid b'.channels := by
  cases e with
  | recv msg env outs => exact h.sProcess hstep.2
  | ping visit outs =>
    exact keptByTicks.sPing h hstep.2
  | signal =>
    obtain rfl := hstep
    exact h
  | rehash =>
    obtain ⟨workers, -, rfl⟩ := hstep
    exact h

end ChannelsValid

theorem channelsValid_of_reachable (h : brokerSystem.Reachable b) : ChannelsValid b.channels := by
  refine h.invariant (fun b => ChannelsValid b.channels) ?_ ?_
  · rintro _ rfl
    exact .empty
  · intro b e b' _ hvalid hstep
    exact hvalid.step hstep

/-! ### Dispatching returns -/

/-- A sequence of two steps succeeds if both do. -/
theorem bind_ok {ε α β : Type} {x : Except ε α} {f : α → Except ε β} (hx : ∃ a, x = .ok a)
    (hf : ∀ a, ∃ b, f a = .ok b) : ∃ b, x >>= f = .ok b := by
  obtain ⟨a, rfl⟩ := hx
  exact hf a

/-- A message that a dispatch does not return from. -/
def DispatchFaults (c : Channel) (msg : JozaMsg) (isY : Bool) : Prop :=
  msg.id = .enq ∨ msg.id = .ack ∨ (isY = true ∧ msg.id = .directory) ∨
    (c.state = .ready ∧ msg.id = .callRequest) ∨ c.yname.text = none

/-- The cell that the initialiser of Y's table leaves out. -/
theorem actionTable_directory (s : State) :
    actionTable s MsgId.directory.code true = .unspecified := by
  cases s <;> rfl

theorem actionTable_ready_callRequest :
    actionTable .ready MsgId.callRequest.code isY =
      if isY then .yCallRequest else .xCallRequest := by
  cases isY <;> rfl

theorem code_lt_iff : msg.id.code < ACTION_MESSAGE_COUNT ↔ msg.id ≠ .enq ∧ msg.id ≠ .ack := by
  cases msg.id <;> decide

theorem doIData_ok {self otherZaddr : Frame} {pkt window ps pr ops opr : ℕ}
    (hpkt : packetRngchk pkt = 0) :
    ∃ r, doIData self otherZaddr msg pkt window ps pr ops opr = .ok r := by
  simp only [doIData, packetBytes_ok hpkt]
  change ∃ r, ite _ _ _ = _
  split_ifs <;> exact ⟨_, rfl⟩

theorem doYCallAccepted_ok {self otherZaddr : Frame} {selfName otherName : CString} {s : State}
    {window pkt tput : ℕ} (hpre : Prevalidated msg) (hid : msg.id = .callAccepted)
    (hwindow : seqRngchk window = 0) (hpkt : packetRngchk pkt = 0) (htput : tputRngchk tput = 0) :
    ∃ r, doYCallAccepted self otherZaddr msg selfName otherName s window pkt tput = .ok r := by
  obtain ⟨p, hp⟩ : ∃ p, packetNegotiate msg.packet.toNat pkt = .ok p :=
    negotiate_ok (hpre.packet_ok (.inr hid)) hpkt
  obtain ⟨w, hw⟩ : ∃ w, windowNegotiate msg.window.toNat window = .ok w :=
    negotiate_ok (hpre.window_ok (.inr hid)) hwindow
  obtain ⟨t, ht⟩ : ∃ t, tputNegotiate msg.throughput.toNat tput = .ok t :=
    negotiate_ok (hpre.tput_ok (.inr hid)) htput
  simp only [doYCallAccepted, hp, hw, ht, Bind.bind, Except.bind]
  split_ifs <;> exact ⟨_, rfl⟩

/-- **When a dispatch returns.** -/
theorem channelDispatch_ok_iff (hc : FacilitiesValid c) (hpre : Prevalidated msg) :
    (∃ r, channelDispatch c sock msg isY = .ok r) ↔ ¬ DispatchFaults c msg isY := by
  constructor
  · rintro ⟨r, h⟩ hfault
    obtain ⟨a, ha, h⟩ := bind_eq_ok h
    obtain ⟨yname, hname, h⟩ := bind_eq_ok h
    obtain ⟨hcode, hcell⟩ := actionGet_eq_ok ha
    obtain ⟨henq, hack⟩ := code_lt_iff.1 hcode
    -- Each fault contradicts one of the checks that were passed.
    rcases hfault with hid | hid | ⟨hy, hid⟩ | ⟨hs, hid⟩ | htext
    · exact henq hid
    · exact hack hid
    · rw [hy, hid, actionTable_directory] at hcell
      subst hcell
      cases h
    · rw [hs, hid, actionTable_ready_callRequest] at hcell
      subst hcell
      cases isY <;> cases h
    · rw [NamePtr.read_eq_ok hname] at htext
      cases htext
  · intro hfault
    simp only [DispatchFaults, not_or] at hfault
    obtain ⟨henq, hack, hdir, hcall, htext⟩ := hfault
    have hcode := code_lt_iff.2 ⟨henq, hack⟩
    obtain ⟨yname, hname⟩ := Option.ne_none_iff_exists'.1 htext
    have hfit := actionTable_fits c.state msg.id isY hcode
    unfold channelDispatch
    rw [actionGet_ok hcode, NamePtr.read, hname]
    -- What is left is the dispatcher's switch.
    generalize actionTable c.state msg.id.code isY = a at hfit
    cases a <;> simp only [actionFits, decide_eq_true_eq, Bool.false_eq_true] at hfit
    case unspecified => exact absurd hfit hdir
    case xCallRequest | yCallRequest => exact absurd hfit.2 hcall
    -- Three actions compute with the facilities, and may fail only there.
    case xData =>
      change ∃ r, (doIData _ _ msg c.pkt c.window c.xps c.xpr c.yps c.ypr >>= _) = Except.ok r
      exact bind_ok (doIData_ok hc.pkt) fun _ => ⟨_, rfl⟩
    case yData =>
      change ∃ r, (doIData _ _ msg c.pkt c.window c.yps c.ypr c.xps c.xpr >>= _) = Except.ok r
      exact bind_ok (doIData_ok hc.pkt) fun _ => ⟨_, rfl⟩
    case yCallAccepted =>
      change ∃ r, (doYCallAccepted _ _ msg yname c.xname c.state c.window c.pkt c.tput >>= _) =
        Except.ok r
      exact bind_ok (doYCallAccepted_ok hpre hfit.2.1 hc.window hc.pkt hc.tput) fun _ => ⟨_, rfl⟩
    all_goals exact ⟨_, rfl⟩

/-! ### Processing returns -/

theorem connected_ok_iff (hvalid : ChannelsValid b.channels) (hpre : Prevalidated msg)
    (hw : b.workers.get? key = some w) (hrole : w.role ≠ .ready) :
    (∃ r, sProcessMsgFromConnectedWorker b key w msg env = .ok r) ↔
      ¬ ∃ c other, OnCall b key w c other ∧ DispatchFaults c msg w.isY := by
  cases hc : b.channels.get? w.lcn.toNat with
  | none =>
    -- A worker without a channel, or without a partner, is ignored.
    refine iff_of_true ⟨(b, []), ?_⟩ ?_
    · rw [sProcessMsgFromConnectedWorker, hc]
    · rintro ⟨c, other, hcall, -⟩
      rw [hcall.channel] at hc
      cases hc
  | some c =>
    cases hother : workersTableLookupOther b.workers key w with
    | none =>
      refine iff_of_true ⟨(b, []), ?_⟩ ?_
      · rw [sProcessMsgFromConnectedWorker, hc, hother]
      · rintro ⟨c, other, hcall, -⟩
        obtain ⟨w', hfound⟩ := hcall.other
        rw [hfound] at hother
        cases hother
    | some e =>
      obtain ⟨other, w'⟩ := e
      have hcall : OnCall b key w c other := ⟨hw, hrole, hc, w', hother⟩
      rw [sProcessMsgFromConnectedWorker, hc, hother]
      have hdisp := @channelDispatch_ok_iff msg c env.sock w.isY (hvalid _ c hc).2 hpre
      constructor
      · rintro ⟨r, h⟩ ⟨c₁, other₁, hcall₁, hfault⟩
        obtain ⟨r', hr', -⟩ := bind_eq_ok h
        obtain rfl : c = c₁ := by
          have hc₁ := hcall₁.channel
          rw [hc, Option.some.injEq] at hc₁
          exact hc₁
        exact hdisp.1 ⟨r', hr'⟩ hfault
      · intro hnot
        refine bind_ok (hdisp.2 fun hfault => hnot ⟨c, other, hcall, hfault⟩) ?_
        -- Removing a closed channel never fails.
        rintro ⟨c', outs⟩
        change ∃ r, ite _ _ _ = _
        split_ifs <;> exact ⟨_, rfl⟩

/-- The search for a number stops, since no channel is stored under an address. -/
theorem channelsTableFindFreeLcn_ok {t : ChannelsTable} (hvalid : ChannelsValid t) (lcn : Lcn) :
    channelsTableFindFreeLcn t env.lcnAddr lcn = .ok lcn := by
  unfold channelsTableFindFreeLcn
  cases hc : t.get? env.lcnAddr with
  | none => rfl
  | some c => exact absurd (hvalid _ c hc).1 (not_lt.2 env.lcnAddr_ge)

theorem channelCreate_ok {ynameHi lcn : Lcn} {xzaddr yzaddr : Frame} {xname yname : CString}
    {pkt window tput : ℕ} (hpkt : packetRngchk pkt = 0) (htput : tputRngchk tput = 0) :
    ∃ c, channelCreate ynameHi lcn xzaddr xname yzaddr yname pkt window tput = .ok c := by
  unfold channelCreate
  rw [packetBytes_ok hpkt, tputBps_ok htput]
  exact ⟨_, rfl⟩

theorem callRequest_ok (hvalid : ChannelsValid b.channels) (hpre : Prevalidated msg)
    (hid : msg.id = .callRequest) :
    ∃ r, sProcessCallRequestFromUnconnectedWorker b key w msg env = .ok r := by
  unfold sProcessCallRequestFromUnconnectedWorker
  -- The refusals come first.
  by_cases hfull : channelsTableIsFull b.channels
  · rw [if_pos hfull]
    exact ⟨_, rfl⟩
  rw [if_neg hfull]
  by_cases hout : !workerIsAllowedOutgoingCall w
  · rw [if_pos hout]
    exact ⟨_, rfl⟩
  rw [if_neg hout]
  cases workersTableLookupByAddress b.workers msg.calledAddress with
  | none => exact ⟨_, rfl⟩
  | some e =>
    obtain ⟨other, w'⟩ := e
    simp only
    split_ifs
    · exact ⟨_, rfl⟩
    · exact ⟨_, rfl⟩
    · -- The facilities of the request have been prevalidated.
      refine bind_ok ⟨_, channelsTableFindFreeLcn_ok hvalid b.lcn⟩ fun lcn => ?_
      refine bind_ok (bind_ok ?_ fun c => ⟨_, rfl⟩) fun channels => ⟨_, rfl⟩
      exact channelCreate_ok (hpre.packet_ok (.inl hid)) (hpre.tput_ok (.inl hid))

theorem unconnected_ok (hvalid : ChannelsValid b.channels) (hpre : Prevalidated msg) :
    ∃ r, sProcessMsgFromUnconnectedWorker b key w msg env = .ok r := by
  unfold sProcessMsgFromUnconnectedWorker
  split_ifs with hcall
  · exact callRequest_ok hvalid hpre hcall.1
  · exact ⟨_, rfl⟩
  · exact ⟨_, rfl⟩
  · exact ⟨_, rfl⟩

theorem unknown_ok (hpre : Prevalidated msg) :
    ∃ r, sProcessMsgFromUnknownWorker b key msg env = .ok r := by
  unfold sProcessMsgFromUnknownWorker
  split_ifs with hid hfull hused
  · exact ⟨_, rfl⟩
  · exact ⟨_, rfl⟩
  · have hio := hpre.directionality_ok hid
    rw [iodirValidate, Option.isSome_iff_exists] at hio
    obtain ⟨io, hio⟩ := hio
    rw [hio]
    exact ⟨_, rfl⟩
  · exact ⟨_, rfl⟩

/-- A message that stops the broker. -/
def StopsBroker (b : JozaPoll) (msg : JozaMsg) (env : Env) : Prop :=
  prevalidateMessage msg = .unspecified ∧
    ∃ w c other, OnCall b (senderKey msg env) w c other ∧ DispatchFaults c msg w.isY

theorem sProcess_ok_iff (hvalid : ChannelsValid b.channels) :
    (∃ r, sProcess b msg env = .ok r) ↔ ¬ StopsBroker b msg env := by
  by_cases hpre : prevalidateMessage msg = .unspecified
  · have hmsg := prevalidated_of_unspecified hpre
    cases hw : b.workers.get? (senderKey msg env) with
    | none =>
      -- Nobody but a worker on a call can stop the broker.
      rw [sProcess_of_unknown hpre hw]
      refine iff_of_true (unknown_ok hmsg) ?_
      rintro ⟨-, w, c, other, hcall, -⟩
      rw [hcall.worker] at hw
      cases hw
    | some w =>
      by_cases hrole : w.role = .ready
      · rw [sProcess_of_ready hpre hw hrole]
        refine iff_of_true (unconnected_ok hvalid hmsg) ?_
        rintro ⟨-, w', c, other, hcall, -⟩
        rw [hcall.worker, Option.some.injEq] at hw
        exact hcall.role (hw ▸ hrole)
      · rw [sProcess_of_onCall hpre hw hrole,
          connected_ok_iff (b := b.touch (senderKey msg env) env.now) hvalid hmsg
            (Table.get?_modify_self hw) hrole]
        -- The access time does not change who is on a call.
        refine not_congr ⟨?_, ?_⟩
        · rintro ⟨c, other, hcall, hfault⟩
          obtain ⟨w₀, hw₀, hcall₀⟩ := hcall.of_touch
          refine ⟨hpre, w₀, c, other, hcall₀, ?_⟩
          rwa [hw₀] at hfault
        · rintro ⟨-, w', c, other, hcall, hfault⟩
          have hw' := hcall.worker
          rw [hw, Option.some.injEq] at hw'
          subst hw'
          exact ⟨c, other, hcall.touch, hfault⟩
  · rw [sProcess_of_malformed hpre]
    exact iff_of_true ⟨_, rfl⟩ fun h => hpre h.1

/-- `A` asks whether the broker is there. -/
def enqA : JozaMsg :=
  { id := .enq, address := [0, 1, 0, 0, 0] }

end Broker
end Jozabad
