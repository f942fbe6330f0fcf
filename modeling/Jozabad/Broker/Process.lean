import Jozabad.Broker.Effect
import Jozabad.Broker.Poll

/-!
# Everything the processing of a message can do

`Outcome b msg env b' outs` lists the ways in which a received message can turn the
broker `b` into `b'` and send `outs`, each with its circumstances, and
`sProcess_outcome` says that the list is complete. A message of a registered worker
first refreshes the worker's access time (`JozaPoll.touch`); everything else starts from
there.
-/

namespace Jozabad
namespace Broker

open JozaMsg

/-- The key of the connection that a message came from. -/
def senderKey (msg : JozaMsg) (env : Env) : ℕ :=
  msgAddr2key msg.address env.beyond

/-- Refresh the access time of a worker. -/
def JozaPoll.touch (b : JozaPoll) (key : ℕ) (now : ℤ) : JozaPoll :=
  { b with workers := b.workers.modify key (workerUpdateAtime now) }

@[simp] theorem JozaPoll.touch_channels {b : JozaPoll} {key : ℕ} {now : ℤ} :
    (b.touch key now).channels = b.channels := rfl

@[simp] theorem JozaPoll.touch_lcn {b : JozaPoll} {key : ℕ} {now : ℤ} :
    (b.touch key now).lcn = b.lcn := rfl

@[simp] theorem JozaPoll.touch_shutdownNow {b : JozaPoll} {key : ℕ} {now : ℤ} :
    (b.touch key now).shutdownNow = b.shutdownNow := rfl

/-- Whether a worker is on the Y side of its call. -/
def Worker.isY (w : Worker) : Bool :=
  !workerIsXCaller w

/-- A worker on a call, with the channel of its call and the key of the worker that the
broker takes for its partner. -/
structure OnCall (b : JozaPoll) (key : ℕ) (w : Worker) (c : Channel) (other : ℕ) : Prop where
  worker : b.workers.get? key = some w
  role : w.role ≠ .ready
  channel : b.channels.get? w.lcn.toNat = some c
  other : ∃ w', workersTableLookupOther b.workers key w = some (other, w')

/-- Refreshing an access time does not change which worker a search finds. -/
theorem JozaPoll.touch_find {b : JozaPoll} {key : ℕ} {now : ℤ} {p : ℕ → Worker → Bool}
    (hp : ∀ k w, p k (workerUpdateAtime now w) = p k w) :
    (b.touch key now).workers.find p =
      (b.workers.find p).map fun e => (e.1, if e.1 = key then workerUpdateAtime now e.2 else e.2) :=
  Table.find_modify hp

/-- Refreshing the access time of a worker leaves it on its call. -/
theorem OnCall.touch {b : JozaPoll} {key : ℕ} {now : ℤ} {w : Worker} {c : Channel} {other : ℕ}
    (h : OnCall b key w c other) :
    OnCall (b.touch key now) key (workerUpdateAtime now w) c other := by
  obtain ⟨w', hother⟩ := h.other
  refine ⟨Table.get?_modify_self h.worker, h.role, h.channel,
    if other = key then workerUpdateAtime now w' else w', ?_⟩
  unfold workersTableLookupOther at hother ⊢
  rw [JozaPoll.touch_find fun _ _ => rfl]
  change (b.workers.find fun k w₁ => k ≠ key ∧ w₁.lcn = w.lcn).map _ = _
  rw [hother]
  rfl

/-- It was on the same call before. -/
theorem OnCall.of_touch {b : JozaPoll} {key : ℕ} {now : ℤ} {w : Worker} {c : Channel} {other : ℕ}
    (h : OnCall (b.touch key now) key w c other) :
    ∃ w₀, w = workerUpdateAtime now w₀ ∧ OnCall b key w₀ c other := by
  have hw := h.worker
  rw [JozaPoll.touch, Table.get?_modify, if_pos rfl, Option.map_eq_some_iff] at hw
  obtain ⟨w₀, hw₀, rfl⟩ := hw
  obtain ⟨w', hother⟩ := h.other
  rw [workersTableLookupOther, JozaPoll.touch_find fun _ _ => rfl, Option.map_eq_some_iff] at hother
  obtain ⟨⟨k, w₁⟩, hfound, hk⟩ := hother
  obtain rfl : k = other := congrArg Prod.fst hk
  exact ⟨w₀, rfl, hw₀, h.role, h.channel, w₁, hfound⟩

/-- The call that `w` asks for can be placed, as the code decides it. -/
structure Placeable (b : JozaPoll) (key : ℕ) (w : Worker) (msg : JozaMsg) (other : ℕ)
    (w' : Worker) : Prop where
  worker : b.workers.get? key = some w
  ready : w.role = .ready
  callRequest : msg.id = .callRequest
  running : b.shutdownNow = false
  room : b.channels.size < CHAN_COUNT
  outgoing : workerIsAllowedOutgoingCall w = true
  other : workersTableLookupByAddress b.workers msg.calledAddress = some (other, w')
  incoming : workerIsAllowedIncomingCall w' = true
  available : workerIsAvailableForCall w = true

/-- The call could be placed before the access time of the caller was refreshed. -/
theorem Placeable.of_touch {b : JozaPoll} {key : ℕ} {now : ℤ} {w : Worker} {msg : JozaMsg}
    {other : ℕ} {w' : Worker} (h : Placeable (b.touch key now) key w msg other w') :
    ∃ w₀ w₀', w = workerUpdateAtime now w₀ ∧
      w' = (if other = key then workerUpdateAtime now w₀' else w₀') ∧
      Placeable b key w₀ msg other w₀' := by
  have hw := h.worker
  rw [JozaPoll.touch, Table.get?_modify, if_pos rfl, Option.map_eq_some_iff] at hw
  obtain ⟨w₀, hw₀, rfl⟩ := hw
  have hother := h.other
  rw [workersTableLookupByAddress, JozaPoll.touch_find fun _ _ => rfl,
    Option.map_eq_some_iff] at hother
  obtain ⟨⟨k, w₀'⟩, hfound, hk⟩ := hother
  obtain ⟨rfl, rfl⟩ := Prod.mk.injEq _ _ _ _ ▸ hk
  have hincoming := h.incoming
  refine ⟨w₀, w₀', rfl, rfl, hw₀, h.ready, h.callRequest, h.running, h.room, h.outgoing, hfound,
    ?_, h.available⟩
  split_ifs at hincoming <;> exact hincoming

/-- Refreshing the access time of the caller does not keep the call from being placed. -/
theorem Placeable.touch {b : JozaPoll} {key : ℕ} {now : ℤ} {w : Worker} {msg : JozaMsg}
    {other : ℕ} {w' : Worker} (h : Placeable b key w msg other w') :
    ∃ w₁', Placeable (b.touch key now) key (workerUpdateAtime now w) msg other w₁' := by
  refine ⟨if other = key then workerUpdateAtime now w' else w', Table.get?_modify_self h.worker,
    h.ready, h.callRequest, h.running, h.room, h.outgoing, ?_, ?_, h.available⟩
  · have hother := h.other
    unfold workersTableLookupByAddress at hother ⊢
    rw [JozaPoll.touch_find fun _ _ => rfl, hother]
    rfl
  · have hincoming := h.incoming
    split_ifs <;> exact hincoming

/-- The broker after a call has been placed, with the new channel `c`. -/
def JozaPoll.placeCall (b : JozaPoll) (key other : ℕ) (c : Channel) : JozaPoll :=
  { b with
    workers := (b.workers.modify key (workerSetRoleToXCaller b.lcn)).modify other
      (workerSetRoleToYCallee b.lcn)
    channels := b.channels.set b.lcn.toNat { c with state := .xCallRequest } }

/-- **What the processing of a message can do.** -/
inductive Outcome (b : JozaPoll) (msg : JozaMsg) (env : Env) : JozaPoll → List JozaMsg → Prop
  /-- The message is rejected. -/
  | malformed (hpre : prevalidateMessage msg ≠ .unspecified) :
      Outcome b msg env b [diagnostic msg.address .malformedMessage (prevalidateMessage msg)]
  /-- The message goes to the call of its sender, which stays open. -/
  | call {w c other c' outs} (hpre : prevalidateMessage msg = .unspecified)
      (hcall : OnCall (b.touch (senderKey msg env) env.now) (senderKey msg env) w c other)
      (hdisp : channelDispatch c env.sock msg w.isY = .ok (c', outs)) (hopen : c'.state ≠ .ready) :
      Outcome b msg env
        { b.touch (senderKey msg env) env.now with
          channels := b.channels.modify w.lcn.toNat fun _ => c' } outs
  /-- The message closes the call of its sender. -/
  | closed {w c other c' outs} (hpre : prevalidateMessage msg = .unspecified)
      (hcall : OnCall (b.touch (senderKey msg env) env.now) (senderKey msg env) w c other)
      (hdisp : channelDispatch c env.sock msg w.isY = .ok (c', outs))
      (hclosed : c'.state = .ready) :
      Outcome b msg env
        (sRemoveChannel { b.touch (senderKey msg env) env.now with
          channels := b.channels.modify w.lcn.toNat fun _ => c' } w.lcn.toNat c' other) outs
  /-- The sender is on a call whose channel or partner is not found. -/
  | stray {w} (hpre : prevalidateMessage msg = .unspecified)
      (hw : (b.touch (senderKey msg env) env.now).workers.get? (senderKey msg env) = some w)
      (hrole : w.role ≠ .ready)
      (hmissing : ∀ c other,
        ¬ OnCall (b.touch (senderKey msg env) env.now) (senderKey msg env) w c other) :
      Outcome b msg env (b.touch (senderKey msg env) env.now) []
  /-- A call cannot be placed. -/
  | callRefused {w} (C : Cause) (D : Diag) (hpre : prevalidateMessage msg = .unspecified)
      (hw : (b.touch (senderKey msg env) env.now).workers.get? (senderKey msg env) = some w)
      (hrole : w.role = .ready) (hid : msg.id = .callRequest) :
      Outcome b msg env (b.touch (senderKey msg env) env.now) [diagnostic msg.address C D]
  /-- A call is placed. -/
  | callPlaced {w w' other c} (hpre : prevalidateMessage msg = .unspecified)
      (hplace : Placeable (b.touch (senderKey msg env) env.now) (senderKey msg env) w msg other w')
      (hnew : channelCreate env.ynameHi b.lcn w.zaddr w.address w'.zaddr w'.address
        msg.packet.toNat msg.window.toNat msg.throughput.toNat = .ok c) :
      Outcome b msg env
        ((b.touch (senderKey msg env) env.now).placeCall (senderKey msg env) other c)
        [sendAddrCallRequest w'.zaddr msg.callingAddress msg.calledAddress msg.packet msg.window
          msg.throughput msg.data]
  /-- The directory is sent. -/
  | directory {w} (hpre : prevalidateMessage msg = .unspecified)
      (hw : (b.touch (senderKey msg env) env.now).workers.get? (senderKey msg env) = some w)
      (hrole : w.role = .ready) (hid : msg.id = .directoryRequest) :
      Outcome b msg env (b.touch (senderKey msg env) env.now)
        [sendAddrDirectory msg.address
          (workersTableCreateDirectory (b.touch (senderKey msg env) env.now).workers)]
  /-- A worker on no call leaves. -/
  | left {w} (hpre : prevalidateMessage msg = .unspecified)
      (hw : (b.touch (senderKey msg env) env.now).workers.get? (senderKey msg env) = some w)
      (hrole : w.role = .ready) (hid : msg.id = .disconnect) :
      Outcome b msg env
        { b with
          workers := (b.touch (senderKey msg env) env.now).workers.remove (senderKey msg env) } []
  /-- A message of a worker on no call is ignored. -/
  | ignored {w} (hpre : prevalidateMessage msg = .unspecified)
      (hw : (b.touch (senderKey msg env) env.now).workers.get? (senderKey msg env) = some w)
      (hrole : w.role = .ready) :
      Outcome b msg env (b.touch (senderKey msg env) env.now) []
  /-- A connection cannot be made. -/
  | connectRefused (C : Cause) (D : Diag) (hpre : prevalidateMessage msg = .unspecified)
      (hw : b.workers.get? (senderKey msg env) = none) (hid : msg.id = .connect) :
      Outcome b msg env b [diagnostic msg.address C D]
  /-- A worker is registered. -/
  | connected {iodir} (hpre : prevalidateMessage msg = .unspecified)
      (hw : b.workers.get? (senderKey msg env) = none) (hid : msg.id = .connect)
      (hroom : b.workers.size < WORKER_COUNT)
      (hfree : workersTableLookupByAddress b.workers msg.callingAddress = none)
      (hio : IoDir.ofCode msg.directionality.toNat = some iodir) :
      Outcome b msg env
        { b with
          workers := b.workers.set (senderKey msg env)
            (workerCreate msg.address msg.callingAddress msg.hostName iodir env.now) }
        [sendAddrConnectIndication msg.address]
  /-- A message on a connection that is not registered is ignored. -/
  | unknown (hpre : prevalidateMessage msg = .unspecified)
      (hw : b.workers.get? (senderKey msg env) = none) (hid : msg.id ≠ .connect) :
      Outcome b msg env b []

variable {b b' : JozaPoll} {msg : JozaMsg} {env : Env} {outs : List JozaMsg} {w : Worker}

/-! ### The branches of the entry point -/

theorem sProcess_of_malformed (hpre : prevalidateMessage msg ≠ .unspecified) :
    sProcess b msg env =
      .ok (b, [diagnostic msg.address .malformedMessage (prevalidateMessage msg)]) := by
  rw [sProcess, if_pos hpre]

theorem sProcess_of_unspecified (hpre : prevalidateMessage msg = .unspecified) :
    sProcess b msg env =
      match b.workers.get? (senderKey msg env) with
      | some worker => sProcessMsgFromKnownWorker b (senderKey msg env) worker msg env
      | none => sProcessMsgFromUnknownWorker b (senderKey msg env) msg env := by
  rw [sProcess, if_neg (not_not.2 hpre)]
  rfl

theorem sProcess_of_unknown (hpre : prevalidateMessage msg = .unspecified)
    (hw : b.workers.get? (senderKey msg env) = none) :
    sProcess b msg env = sProcessMsgFromUnknownWorker b (senderKey msg env) msg env := by
  rw [sProcess_of_unspecified hpre, hw]

theorem sProcess_of_ready (hpre : prevalidateMessage msg = .unspecified)
    (hw : b.workers.get? (senderKey msg env) = some w) (hrole : w.role = .ready) :
    sProcess b msg env =
      sProcessMsgFromUnconnectedWorker (b.touch (senderKey msg env) env.now) (senderKey msg env)
        (workerUpdateAtime env.now w) msg env := by
  rw [sProcess_of_unspecified hpre, hw]
  simp only [sProcessMsgFromKnownWorker, workerUpdateAtime, hrole]
  rfl

theorem sProcess_of_onCall (hpre : prevalidateMessage msg = .unspecified)
    (hw : b.workers.get? (senderKey msg env) = some w) (hrole : w.role ≠ .ready) :
    sProcess b msg env =
      sProcessMsgFromConnectedWorker (b.touch (senderKey msg env) env.now) (senderKey msg env)
        (workerUpdateAtime env.now w) msg env := by
  rw [sProcess_of_unspecified hpre, hw]
  cases hr : w.role with
  | ready => exact absurd hr hrole
  | xCaller | yCallee =>
    simp only [sProcessMsgFromKnownWorker, workerUpdateAtime, hr]
    rfl

/-! ### The list is complete -/

theorem unknown_outcome (hpre : prevalidateMessage msg = .unspecified)
    (hw : b.workers.get? (senderKey msg env) = none)
    (h : sProcessMsgFromUnknownWorker b (senderKey msg env) msg env = .ok (b', outs)) :
    Outcome b msg env b' outs := by
  unfold sProcessMsgFromUnknownWorker at h
  split_ifs at h with hid hfull hused
  · cases h
    exact .connectRefused _ _ hpre hw hid
  · cases h
    exact .connectRefused _ _ hpre hw hid
  · have hroom : b.workers.size < WORKER_COUNT := by
      simpa [workersTableIsFull] using hfull
    have hfree : workersTableLookupByAddress b.workers msg.callingAddress = none := by
      simpa using hused
    cases hio : IoDir.ofCode msg.directionality.toNat with
    | none =>
      rw [hio] at h
      cases h
    | some iodir =>
      rw [hio] at h
      cases h
      exact .connected hpre hw hid hroom hfree hio
  · cases h
    exact .unknown hpre hw hid

theorem connected_outcome (hpre : prevalidateMessage msg = .unspecified)
    (hw : (b.touch (senderKey msg env) env.now).workers.get? (senderKey msg env) = some w)
    (hrole : w.role ≠ .ready)
    (h : sProcessMsgFromConnectedWorker (b.touch (senderKey msg env) env.now) (senderKey msg env)
      w msg env = .ok (b', outs)) :
    Outcome b msg env b' outs := by
  unfold sProcessMsgFromConnectedWorker at h
  cases hc : (b.touch (senderKey msg env) env.now).channels.get? w.lcn.toNat with
  | none =>
    rw [hc] at h
    cases h
    -- The worker is in no call that can be found.
    refine .stray hpre hw hrole fun c other hcall => ?_
    rw [hcall.channel] at hc
    cases hc
  | some c =>
    cases hother : workersTableLookupOther (b.touch (senderKey msg env) env.now).workers
        (senderKey msg env) w with
    | none =>
      rw [hc, hother] at h
      cases h
      refine .stray hpre hw hrole fun c other hcall => ?_
      obtain ⟨w', hfound⟩ := hcall.other
      rw [hfound] at hother
      cases hother
    | some e =>
      obtain ⟨other, w'⟩ := e
      rw [hc, hother] at h
      obtain ⟨⟨c', outs'⟩, hdisp, h⟩ := bind_eq_ok h
      have hcall : OnCall (b.touch (senderKey msg env) env.now) (senderKey msg env) w c other :=
        ⟨hw, hrole, hc, w', hother⟩
      by_cases hclosed : c'.state = .ready
      · simp only [channelIsClosed, hclosed, decide_true, if_true] at h
        cases h
        exact .closed hpre hcall hdisp hclosed
      · simp only [channelIsClosed, hclosed, decide_false, Bool.false_eq_true, if_false] at h
        cases h
        exact .call hpre hcall hdisp hclosed

/-- The search for a free number returns the one it is given. -/
theorem channelsTableFindFreeLcn_eq_ok {t : ChannelsTable} {lcnAddr : ℕ} {lcn lcn' : Lcn}
    (h : channelsTableFindFreeLcn t lcnAddr lcn = .ok lcn') : lcn = lcn' := by
  unfold channelsTableFindFreeLcn at h
  split_ifs at h
  exact Except.ok.inj h

theorem callRequest_outcome (hpre : prevalidateMessage msg = .unspecified)
    (hw : (b.touch (senderKey msg env) env.now).workers.get? (senderKey msg env) = some w)
    (hrole : w.role = .ready) (hid : msg.id = .callRequest) (hrun : b.shutdownNow = false)
    (h : sProcessCallRequestFromUnconnectedWorker (b.touch (senderKey msg env) env.now)
      (senderKey msg env) w msg env = .ok (b', outs)) :
    Outcome b msg env b' outs := by
  unfold sProcessCallRequestFromUnconnectedWorker at h
  -- The refusals are tried in the order of the source.
  by_cases hfull : channelsTableIsFull (b.touch (senderKey msg env) env.now).channels
  · rw [if_pos hfull] at h
    cases h
    exact .callRefused _ _ hpre hw hrole hid
  rw [if_neg hfull] at h
  by_cases hout : !workerIsAllowedOutgoingCall w
  · rw [if_pos hout] at h
    cases h
    exact .callRefused _ _ hpre hw hrole hid
  · rw [if_neg hout] at h
    cases hother : workersTableLookupByAddress (b.touch (senderKey msg env) env.now).workers
        msg.calledAddress with
    | none =>
      rw [hother] at h
      cases h
      exact .callRefused _ _ hpre hw hrole hid
    | some e =>
      obtain ⟨other, w'⟩ := e
      rw [hother] at h
      simp only at h
      split_ifs at h with hin havail
      · cases h
        exact .callRefused _ _ hpre hw hrole hid
      · cases h
        exact .callRefused _ _ hpre hw hrole hid
      · obtain ⟨lcn, hlcn, h⟩ := bind_eq_ok h
        obtain ⟨channels, hchannels, h⟩ := bind_eq_ok h
        -- The number that is found is the one that was asked about.
        obtain rfl := channelsTableFindFreeLcn_eq_ok hlcn
        obtain ⟨c, hnew, hset⟩ := bind_eq_ok hchannels
        cases hset
        cases h
        refine .callPlaced hpre ⟨hw, hrole, hid, hrun, ?_, ?_, hother, ?_, ?_⟩ hnew
        · simpa [channelsTableIsFull] using hfull
        · simpa using hout
        · simpa using hin
        · simpa using havail

/-- A call that can be placed is placed, on the number that the broker holds. -/
theorem callRequest_of_placeable {key other : ℕ} {w' : Worker}
    (hplace : Placeable b key w msg other w')
    (h : sProcessCallRequestFromUnconnectedWorker b key w msg env = .ok (b', outs)) :
    ∃ c, channelCreate env.ynameHi b.lcn w.zaddr w.address w'.zaddr w'.address msg.packet.toNat
        msg.window.toNat msg.throughput.toNat = .ok c ∧
      b'.channels = b.channels.set b.lcn.toNat { c with state := .xCallRequest } := by
  unfold sProcessCallRequestFromUnconnectedWorker at h
  rw [if_neg (by simpa [channelsTableIsFull] using hplace.room),
    if_neg (by simp [hplace.outgoing]), hplace.other] at h
  simp only at h
  rw [if_neg (by simp [hplace.incoming]), if_neg (by simp [hplace.available])] at h
  obtain ⟨lcn, hlcn, h⟩ := bind_eq_ok h
  obtain ⟨channels, hchannels, h⟩ := bind_eq_ok h
  obtain rfl := channelsTableFindFreeLcn_eq_ok hlcn
  obtain ⟨c, hnew, hset⟩ := bind_eq_ok hchannels
  cases hset
  cases h
  exact ⟨c, hnew, rfl⟩

theorem unconnected_outcome (hpre : prevalidateMessage msg = .unspecified)
    (hw : (b.touch (senderKey msg env) env.now).workers.get? (senderKey msg env) = some w)
    (hrole : w.role = .ready)
    (h : sProcessMsgFromUnconnectedWorker (b.touch (senderKey msg env) env.now)
      (senderKey msg env) w msg env = .ok (b', outs)) :
    Outcome b msg env b' outs := by
  unfold sProcessMsgFromUnconnectedWorker at h
  split_ifs at h with hcall hdir hdisc
  · exact callRequest_outcome hpre hw hrole hcall.1 (by simpa using hcall.2) h
  · cases h
    exact .directory hpre hw hrole hdir.1
  · cases h
    exact .left hpre hw hrole hdisc
  · cases h
    exact .ignored hpre hw hrole

/-- **Inversion of message processing.** -/
theorem sProcess_outcome (h : sProcess b msg env = .ok (b', outs)) :
    Outcome b msg env b' outs := by
  by_cases hpre : prevalidateMessage msg = .unspecified
  · cases hw : b.workers.get? (senderKey msg env) with
    | none =>
      rw [sProcess_of_unknown hpre hw] at h
      exact unknown_outcome hpre hw h
    | some w =>
      -- A worker that is known has its access time set, whatever follows.
      have htouch : (b.touch (senderKey msg env) env.now).workers.get? (senderKey msg env) =
          some (workerUpdateAtime env.now w) := Table.get?_modify_self hw
      by_cases hrole : w.role = .ready
      · rw [sProcess_of_ready hpre hw hrole] at h
        exact unconnected_outcome hpre htouch hrole h
      · rw [sProcess_of_onCall hpre hw hrole] at h
        exact connected_outcome hpre htouch hrole h
  · rw [sProcess_of_malformed hpre] at h
    cases h
    exact .malformed hpre

/-! ### Ticks -/

/-- A worker is swept: it is idle for too long, or the broker shuts down. -/
def JozaPoll.Sweeps (b : JozaPoll) (worker : Worker) (v : Visit) : Prop :=
  idleTime worker v > POLL_WORKER_REMOVAL_TIMEOUT ∨ b.shutdownNow = true

/-- A worker that is not swept stays as it is; one on no call that is swept is
removed. -/
theorem sPingWorker_eq_ok {key : ℕ} {v : Visit} {delete : Bool}
    (h : sPingWorker b key w v = .ok (b', outs, delete)) :
    (b.Sweeps w v ∧ w.role = .ready ∧ b' = b ∧ outs = [] ∧ delete = true) ∨
      (b.Sweeps w v ∧ w.role ≠ .ready ∧ delete = false ∧
        sDisconnectIdleChannel b key w v = .ok (b', outs)) ∨
      (¬ b.Sweeps w v ∧ b' = b ∧ delete = false) := by
  unfold sPingWorker at h
  by_cases hsweep : b.Sweeps w v
  · have hswept := hsweep
    unfold JozaPoll.Sweeps at hswept
    rw [if_pos hswept] at h
    cases hrole : w.role with
    | ready =>
      rw [hrole] at h
      cases h
      exact .inl ⟨hsweep, rfl, rfl, rfl, rfl⟩
    -- A caller or callee is not removed: its call is disconnected instead.
    | xCaller | yCallee =>
      rw [hrole] at h
      obtain ⟨⟨b₁, outs₁⟩, hdisc, h⟩ := bind_eq_ok h
      cases h
      exact .inr (.inl ⟨hsweep, by simp, rfl, hdisc⟩)
  · have hstays := hsweep
    unfold JozaPoll.Sweeps at hstays
    rw [if_neg hstays] at h
    refine .inr (.inr ⟨hsweep, ?_⟩)
    split_ifs at h <;> cases h <;> exact ⟨rfl, rfl⟩

/-- The moves that a tick is made of keep a property of the broker: the dispatch of a
`DISCONNECT`, the removal of a channel, changes to the workers, and the exit. -/
structure KeptByTicks (P : JozaPoll → Prop) : Prop where
  dispatch : ∀ {b l c c' sock isY outs}, P b → b.channels.get? l = some c →
    channelDispatch c sock { id := .disconnect } isY = .ok (c', outs) →
      P { b with channels := b.channels.modify l fun _ => c' }
  removeChannel : ∀ {b} l c other, P b → P (sRemoveChannel b l c other)
  workers : ∀ {b : JozaPoll} {workers}, P b → P { b with workers }
  exit : ∀ {b : JozaPoll}, P b → P { b with exited := true }

namespace KeptByTicks

variable {P : JozaPoll → Prop} (hP : KeptByTicks P)
include hP

theorem sDisconnectIdleChannel {key : ℕ} {v : Visit} (hb : P b)
    (h : Broker.sDisconnectIdleChannel b key w v = .ok (b', outs)) : P b' := by
  unfold Broker.sDisconnectIdleChannel at h
  cases hc : b.channels.get? w.lcn.toNat with
  | none =>
    rw [hc] at h
    cases h
  | some c =>
    rw [hc] at h
    obtain ⟨⟨c', outs'⟩, hdisp, h⟩ := bind_eq_ok h
    have hb' := hP.dispatch hb hc hdisp
    simp only at h
    -- If the channel is closed, it is removed.
    split_ifs at h
    · cases hother : workersTableLookupOther b.workers key w with
      | none =>
        rw [hother] at h
        cases h
      | some e =>
        rw [hother] at h
        cases h
        exact hP.workers (hP.removeChannel _ c' e.1 hb')
    · cases h
      exact hb'

theorem sPingWorkers {visit : ℕ → Visit} {keys : List ℕ} (hb : P b)
    (h : Broker.sPingWorkers visit keys b = .ok (b', outs)) : P b' := by
  induction keys generalizing b outs with
  | nil =>
    cases h
    exact hb
  | cons key keys ih =>
    rw [Broker.sPingWorkers] at h
    cases hw : b.workers.get? key with
    | none =>
      rw [hw] at h
      exact ih hb h
    | some w =>
      rw [hw] at h
      obtain ⟨⟨b₁, outs₁, delete⟩, hworker, h⟩ := bind_eq_ok h
      obtain ⟨⟨b₂, outs₂⟩, hrest, h⟩ := bind_eq_ok h
      cases h
      have hb₁ : P b₁ := by
        rcases sPingWorker_eq_ok hworker with ⟨-, -, rfl, -⟩ | ⟨-, -, -, hdisc⟩ | ⟨-, rfl, -⟩
        · exact hb
        · exact hP.sDisconnectIdleChannel hb hdisc
        · exact hb
      -- The rest of the walk starts without the worker, if that was deleted.
      refine ih ?_ hrest
      split_ifs
      · exact hP.workers hb₁
      · exact hb₁

/-- **What a tick keeps.** -/
theorem sPing {visit : ℕ → Visit} (hb : P b) (h : Broker.sPing b visit = .ok (b', outs)) :
    P b' := by
  obtain ⟨⟨b₁, outs₁⟩, hworkers, h⟩ := bind_eq_ok h
  have hb₁ := hP.sPingWorkers hb hworkers
  simp only at h
  split_ifs at h <;> cases h
  · exact hP.exit hb₁
  · exact hb₁

end KeptByTicks

/-! ### Conversations with the broker -/

/-- Receive messages one after the other, in quiet circumstances. -/
def recvAll : JozaPoll → List JozaMsg → Except Fault JozaPoll
  | b, [] => .ok b
  | b, msg :: msgs => do
    let (b, _) ← sProcess b msg quietEnv
    recvAll b msgs

theorem recvAll_run {msgs : List JozaMsg} (hrun : b.exited = false)
    (h : recvAll b msgs = .ok b') : ∃ es, brokerSystem.Run b es b' := by
  induction msgs generalizing b with
  | nil =>
    cases h
    exact ⟨[], .nil _⟩
  | cons msg msgs ih =>
    obtain ⟨⟨b₁, outs⟩, hproc, h⟩ := bind_eq_ok h
    have hstep : brokerSystem.Step b (.recv msg quietEnv outs) b₁ := ⟨hrun, hproc⟩
    -- No message makes the program exit.
    have hrun₁ : b₁.exited = false := by
      cases sProcess_outcome hproc <;> exact hrun
    obtain ⟨es, hes⟩ := ih hrun₁ h
    exact ⟨_, .cons hstep hes⟩

theorem recvAll_reachable {msgs : List JozaMsg} (hb : brokerSystem.Reachable b)
    (hrun : b.exited = false) (h : recvAll b msgs = .ok b') : brokerSystem.Reachable b' := by
  obtain ⟨es, hes⟩ := recvAll_run hrun h
  exact hb.run hes

/-- `A` connects. -/
def connectA : JozaMsg :=
  { id := .connect, address := [0, 1, 0, 0, 0], callingAddress := .ofBytes [65] }

/-- `B` connects. -/
def connectB : JozaMsg :=
  { id := .connect, address := [0, 2, 0, 0, 0], callingAddress := .ofBytes [66] }

/-- `A` calls `B`. -/
def callAB : JozaMsg :=
  { id := .callRequest, address := [0, 1, 0, 0, 0], callingAddress := .ofBytes [65],
    calledAddress := .ofBytes [66], packet := 7, window := 7, throughput := 10 }

/-- `A` leaves. -/
def disconnectA : JozaMsg :=
  { id := .disconnect, address := [0, 1, 0, 0, 0] }

end Broker
end Jozabad
