import Jozabad.Broker.AbortFree
import Jozabad.Broker.Atomicity
import Jozabad.Broker.Pairing

/-!
# Who may call whom

A worker that is ready asks for a call. The call is to be connected if the tables have room,
the caller may place calls, and the called worker is registered, is somebody else, may
receive calls and is ready itself (`MayCall`). `Gated` says that a call request is connected
or refused accordingly.

Two of the checks are made on the wrong worker or for the wrong direction:
`worker_is_allowed_outgoing_call` asks whether the worker may receive calls, and
`worker_is_available_for_call` is asked about the caller. So the code connects the calls of
`Placeable`, and where the two agree is said by `GatedRight`.

A connected call is also to have a channel of its own. Since every call is given the same
number, it has one only if no call is up.
-/

namespace Jozabad
namespace Broker

open JozaMsg

variable {b b' : JozaPoll} {msg : JozaMsg} {env : Env} {outs : List JozaMsg} {w w' : Worker}
  {c : Channel} {key other : ℕ}

/-! ### What a call request is to do -/

/-- The call that `w` asks for may be connected. -/
structure MayCall (b : JozaPoll) (key : ℕ) (w : Worker) (msg : JozaMsg) (other : ℕ)
    (w' : Worker) : Prop where
  room : b.channels.size < CHAN_COUNT
  outgoing : iodirOutgoingCallsAllowed w.iodir = true
  called : workersTableLookupByAddress b.workers msg.calledAddress = some (other, w')
  ne : other ≠ key
  incoming : iodirIncomingCallsAllowed w'.iodir = true
  ready : w'.role = .ready

/-- The call of `w` to `w'` is connected on the channel `c`. -/
structure Connected (b b' : JozaPoll) (outs : List JozaMsg) (msg : JozaMsg) (key : ℕ) (w : Worker)
    (other : ℕ) (w' : Worker) (c : Channel) : Prop where
  channels : b'.channels = b.channels.set c.lcn.toNat c
  opened : c.state = .xCallRequest
  caller_name : c.xname = w.address ∧ c.xzaddr = w.zaddr
  callee_name : c.yname.text = some w'.address ∧ c.yzaddr = w'.zaddr
  caller : ∃ now, b'.workers.get? key =
    some { w with role := .xCaller, lcn := c.lcn, atime := now }
  callee : b'.workers.get? other = some { w' with role := .yCallee, lcn := c.lcn }
  others : ∀ k, k ≠ key → k ≠ other → b'.workers.get? k = b.workers.get? k
  sent : outs = [sendAddrCallRequest w'.zaddr msg.callingAddress msg.calledAddress msg.packet
    msg.window msg.throughput msg.data]

/-- The call is refused: the sender is told why, and nothing else happens. -/
def Refused (b b' : JozaPoll) (outs : List JozaMsg) (msg : JozaMsg) : Prop :=
  SameButAtime b b' ∧ ∃ C D, outs = [diagnostic msg.address C D]

/-- **The gate.** A call request is connected if it may be, on a channel that is as `isNew`
asks, and refused otherwise. -/
def Gated (b : JozaPoll) (msg : JozaMsg) (env : Env) (w : Worker) (isNew : Channel → Prop) :
    Prop :=
  ∃ b' outs, sProcess b msg env = .ok (b', outs) ∧
    ((∃ other w' c, MayCall b (senderKey msg env) w msg other w' ∧ isNew c ∧
        Connected b b' outs msg (senderKey msg env) w other w' c) ∨
      ((∀ other w', ¬ MayCall b (senderKey msg env) w msg other w') ∧ Refused b b' outs msg))

/-! ### What the code does -/

/-- The broker grants the calls that can be placed, and refuses the others. -/
theorem callRequest_refused (env : Env) (hw : b.workers.get? key = some w) (hrole : w.role = .ready)
    (hid : msg.id = .callRequest) (hrun : b.shutdownNow = false)
    (hno : ∀ other w', ¬ Placeable b key w msg other w') :
    ∃ C D, sProcessCallRequestFromUnconnectedWorker b key w msg env =
      .ok (b, [diagnostic msg.address C D]) := by
  unfold sProcessCallRequestFromUnconnectedWorker
  by_cases hfull : channelsTableIsFull b.channels
  · rw [if_pos hfull]
    exact ⟨_, _, rfl⟩
  rw [if_neg hfull]
  by_cases hout : !workerIsAllowedOutgoingCall w
  · rw [if_pos hout]
    exact ⟨_, _, rfl⟩
  rw [if_neg hout]
  cases hother : workersTableLookupByAddress b.workers msg.calledAddress with
  | none => exact ⟨_, _, rfl⟩
  | some e =>
    obtain ⟨other, w'⟩ := e
    simp only
    split_ifs with hin havail
    · exact ⟨_, _, rfl⟩
    · exact ⟨_, _, rfl⟩
    · -- All checks are passed.
      refine absurd ⟨hw, hrole, hid, hrun, ?_, ?_, hother, ?_, ?_⟩ (hno other w')
      · simpa [channelsTableIsFull] using hfull
      · simpa using hout
      · simpa using hin
      · simpa using havail

/-- The channel of a new call. -/
theorem channelCreate_fields {ynameHi lcn : Lcn} {xzaddr yzaddr : Frame} {xname yname : CString}
    {pkt window tput : ℕ}
    (h : channelCreate ynameHi lcn xzaddr xname yzaddr yname pkt window tput = .ok c) :
    c.lcn = lcn ∧ (c.xname = xname ∧ c.xzaddr = xzaddr) ∧
      (c.yname.text = some yname ∧ c.yzaddr = yzaddr) := by
  unfold channelCreate at h
  obtain ⟨_, -, h⟩ := bind_eq_ok h
  obtain ⟨_, -, h⟩ := bind_eq_ok h
  cases h
  exact ⟨rfl, ⟨rfl, rfl⟩, rfl, rfl⟩

/-- **A call that can be placed** is placed, on the number that the broker holds. -/
theorem callRequest_placed (env : Env) (hvalid : ChannelsValid b.channels) (hpre : Prevalidated msg)
    (hplace : Placeable b key w msg other w') :
    ∃ c, (c.lcn = b.lcn ∧ (c.xname = w.address ∧ c.xzaddr = w.zaddr) ∧
        (c.yname.text = some w'.address ∧ c.yzaddr = w'.zaddr)) ∧
      sProcessCallRequestFromUnconnectedWorker b key w msg env =
        .ok (b.placeCall key other c, [sendAddrCallRequest w'.zaddr msg.callingAddress
          msg.calledAddress msg.packet msg.window msg.throughput msg.data]) := by
  have hid := hplace.callRequest
  obtain ⟨c, hnew⟩ : ∃ c, channelCreate env.ynameHi b.lcn w.zaddr w.address w'.zaddr w'.address
      msg.packet.toNat msg.window.toNat msg.throughput.toNat = .ok c :=
    channelCreate_ok (hpre.packet_ok (.inl hid)) (hpre.tput_ok (.inl hid))
  refine ⟨c, channelCreate_fields hnew, ?_⟩
  rw [sProcessCallRequestFromUnconnectedWorker,
    if_neg (by simpa [channelsTableIsFull] using hplace.room),
    if_neg (by simp [hplace.outgoing]), hplace.other]
  simp only
  rw [if_neg (by simp [hplace.incoming]), if_neg (by simp [hplace.available]),
    channelsTableFindFreeLcn_ok hvalid]
  exact bind_of_eq_ok rfl (bind_of_eq_ok (bind_of_eq_ok hnew rfl) rfl)

/-- Placing a call between two workers connects them. -/
theorem connected_placeCall (b : JozaPoll) (msg : JozaMsg) (hw : b.workers.get? key = some w)
    (hw' : b.workers.get? other = some w') (hne : other ≠ key)
    (hc : c.lcn = b.lcn ∧ (c.xname = w.address ∧ c.xzaddr = w.zaddr) ∧
      (c.yname.text = some w'.address ∧ c.yzaddr = w'.zaddr)) :
    Connected b (b.placeCall key other c) [sendAddrCallRequest w'.zaddr msg.callingAddress
      msg.calledAddress msg.packet msg.window msg.throughput msg.data] msg key w other w'
      { c with state := .xCallRequest } := by
  obtain ⟨hlcn, hx, hy⟩ := hc
  have hcaller : (b.workers.modify key (workerSetRoleToXCaller b.lcn)).get? key =
      some (workerSetRoleToXCaller b.lcn w) := Table.get?_modify_self hw
  have hcallee : (b.workers.modify key (workerSetRoleToXCaller b.lcn)).get? other = some w' := by
    rw [Table.get?_modify_of_ne hne, hw']
  refine ⟨?_, rfl, hx, hy, ⟨w.atime, ?_⟩, ?_, ?_, rfl⟩
  · change b.channels.set b.lcn.toNat _ = b.channels.set c.lcn.toNat _
    rw [hlcn]
  · rw [JozaPoll.placeCall, Table.get?_modify_of_ne hne.symm, hcaller]
    simp only [hlcn]
    rfl
  · rw [JozaPoll.placeCall, Table.get?_modify_self hcallee]
    simp only [hlcn]
    rfl
  · intro k hk hk'
    rw [JozaPoll.placeCall, Table.get?_modify_of_ne hk', Table.get?_modify_of_ne hk]

/-- A call request of a worker that is ready. -/
structure CallRequested (b : JozaPoll) (msg : JozaMsg) (env : Env) (w : Worker) : Prop where
  running : b.shutdownNow = false
  prevalidated : prevalidateMessage msg = .unspecified
  callRequest : msg.id = .callRequest
  worker : b.workers.get? (senderKey msg env) = some w
  ready : w.role = .ready

namespace CallRequested

variable (h : CallRequested b msg env w)
include h

/-- It goes to the handler of call requests. -/
theorem sProcess_eq : sProcess b msg env =
    sProcessCallRequestFromUnconnectedWorker (b.touch (senderKey msg env) env.now)
      (senderKey msg env) (workerUpdateAtime env.now w) msg env := by
  rw [sProcess_of_ready h.prevalidated h.worker h.ready, sProcessMsgFromUnconnectedWorker,
    if_pos ⟨h.callRequest, by simp [h.running]⟩]

/-- **A request that the code grants.** The call is placed to the worker that the search
finds, on the number that the broker holds. If this is the caller itself, the roles are
both written to it. -/
theorem granted (hvalid : ChannelsValid b.channels)
    (hplace : Placeable b (senderKey msg env) w msg other w') :
    ∃ b' c, c.lcn = b.lcn ∧
      sProcess b msg env = .ok (b', [sendAddrCallRequest w'.zaddr msg.callingAddress
        msg.calledAddress msg.packet msg.window msg.throughput msg.data]) ∧
      (other ≠ senderKey msg env → Connected b b' [sendAddrCallRequest w'.zaddr
        msg.callingAddress msg.calledAddress msg.packet msg.window msg.throughput msg.data] msg
        (senderKey msg env) w other w' c) := by
  obtain ⟨w₁', htouch⟩ : ∃ w₁', Placeable (b.touch (senderKey msg env) env.now)
      (senderKey msg env) (workerUpdateAtime env.now w) msg other w₁' := hplace.touch
  -- The worker that is called is the same before and after, but for its access time.
  obtain ⟨hsame, hzaddr⟩ : (other ≠ senderKey msg env → w₁' = w') ∧ w₁'.zaddr = w'.zaddr := by
    obtain ⟨w₀, w₀', -, rfl, hplace₀⟩ := htouch.of_touch
    have hfound := hplace₀.other
    rw [hplace.other] at hfound
    cases hfound
    constructor
    · intro hne
      rw [if_neg hne]
    · split_ifs <;> rfl
  have hvalid' : ChannelsValid (b.touch (senderKey msg env) env.now).channels := hvalid
  obtain ⟨c, hc, hproc⟩ := callRequest_placed env hvalid'
    (prevalidated_of_unspecified h.prevalidated) htouch
  rw [hzaddr] at hproc
  refine ⟨_, { c with state := .xCallRequest }, hc.1, h.sProcess_eq.trans hproc, fun hne => ?_⟩
  obtain rfl := hsame hne
  have hw' : b.workers.get? other = some w₁' := (Table.find_eq_some hplace.other).1
  have hconn := connected_placeCall (b.touch (senderKey msg env) env.now) msg
    (Table.get?_modify_self h.worker) ((Table.get?_modify_of_ne hne).trans hw') hne hc
  obtain ⟨now, hcaller⟩ := hconn.caller
  refine { hconn with caller := ⟨now, hcaller⟩, others := fun k hk hk' => ?_ }
  exact (hconn.others k hk hk').trans (Table.get?_modify_of_ne hk)

/-- **A request that the code refuses.** -/
theorem refused (hno : ∀ other w', ¬ Placeable b (senderKey msg env) w msg other w') :
    ∃ b' outs, sProcess b msg env = .ok (b', outs) ∧ Refused b b' outs msg := by
  have hno' : ∀ other w', ¬ Placeable (b.touch (senderKey msg env) env.now) (senderKey msg env)
      (workerUpdateAtime env.now w) msg other w' := by
    intro other w' hplace
    obtain ⟨w₀, w₀', -, -, hplace₀⟩ := hplace.of_touch
    have hw₀ := hplace₀.worker
    rw [h.worker, Option.some.injEq] at hw₀
    exact hno other w₀' (hw₀ ▸ hplace₀)
  have hw : (b.touch (senderKey msg env) env.now).workers.get? (senderKey msg env) =
      some (workerUpdateAtime env.now w) := Table.get?_modify_self h.worker
  obtain ⟨C, D, hproc⟩ :=
    callRequest_refused env hw h.ready h.callRequest h.running hno'
  exact ⟨_, _, h.sProcess_eq.trans hproc, sameButAtime_touch, C, D, rfl⟩

end CallRequested

/-! ### Where the two agree -/

/-- What is asked of the caller and of a registered worker that may receive calls: the code
asks whether the caller may receive calls, and should ask whether it may place them, and
whether the called worker is somebody else and ready. -/
def GatedRight (b : JozaPoll) (key : ℕ) (w : Worker) (msg : JozaMsg) : Prop :=
  ∀ other w', b.channels.size < CHAN_COUNT →
    workersTableLookupByAddress b.workers msg.calledAddress = some (other, w') →
    iodirIncomingCallsAllowed w'.iodir = true →
    (iodirIncomingCallsAllowed w.iodir = true ↔
      iodirOutgoingCallsAllowed w.iodir = true ∧ other ≠ key ∧ w'.role = .ready)

/-- The call that is asked for can be placed, and the number of the next call is taken. -/
def Overwrites (b : JozaPoll) (key : ℕ) (w : Worker) (msg : JozaMsg) : Prop :=
  ∃ other w', Placeable b key w msg other w' ∧ b.channels.get? b.lcn.toNat ≠ none

namespace CallRequested

variable (h : CallRequested b msg env w)
include h

/-- The code grants a call if the caller may receive calls, and the called worker is
registered and may receive calls. -/
theorem placeable_iff (other : ℕ) (w' : Worker) : Placeable b (senderKey msg env) w msg other w' ↔
    b.channels.size < CHAN_COUNT ∧
      workersTableLookupByAddress b.workers msg.calledAddress = some (other, w') ∧
      iodirIncomingCallsAllowed w'.iodir = true ∧ iodirIncomingCallsAllowed w.iodir = true := by
  constructor
  · intro hplace
    exact ⟨hplace.room, hplace.other, hplace.incoming, hplace.outgoing⟩
  · rintro ⟨hroom, hother, hincoming, houtgoing⟩
    refine ⟨h.worker, h.ready, h.callRequest, h.running, hroom, houtgoing, hother, hincoming, ?_⟩
    simp [workerIsAvailableForCall, workerIsAllowedIncomingCall, houtgoing, h.ready]

/-- The code and the gate agree exactly if they agree on every registered worker. -/
theorem gatedRight_iff : GatedRight b (senderKey msg env) w msg ↔
    ∀ other w', Placeable b (senderKey msg env) w msg other w' ↔
      MayCall b (senderKey msg env) w msg other w' := by
  constructor
  · intro hright other w'
    rw [h.placeable_iff]
    constructor
    · rintro ⟨hroom, hother, hincoming, hin⟩
      obtain ⟨hout, hne, hready⟩ := (hright other w' hroom hother hincoming).1 hin
      exact ⟨hroom, hout, hother, hne, hincoming, hready⟩
    · intro hmay
      refine ⟨hmay.room, hmay.called, hmay.incoming, ?_⟩
      exact (hright other w' hmay.room hmay.called hmay.incoming).2
        ⟨hmay.outgoing, hmay.ne, hmay.ready⟩
  · intro hagree other w' hroom hother hincoming
    have hiff := (h.placeable_iff other w').symm.trans (hagree other w')
    constructor
    · intro hin
      have hmay := hiff.1 ⟨hroom, hother, hincoming, hin⟩
      exact ⟨hmay.outgoing, hmay.ne, hmay.ready⟩
    · rintro ⟨hout, hne, hready⟩
      exact (hiff.2 ⟨hroom, hout, hother, hne, hincoming, hready⟩).2.2.2

/-- A call that the code places is one that the gate grants, if the answer is that of the
gate. -/
theorem mayCall_of_gated (hvalid : ChannelsValid b.channels) {isNew : Channel → Prop}
    {free : Prop} (hnew : ∀ c, c.lcn = b.lcn → (isNew c ↔ free))
    (hgated : Gated b msg env w isNew)
    (hplace : Placeable b (senderKey msg env) w msg other w') :
    MayCall b (senderKey msg env) w msg other w' ∧ free := by
  obtain ⟨b', outs, hproc, hgate⟩ := hgated
  obtain ⟨b₁, c₁, hlcn, hproc₁, hconn₁⟩ := h.granted hvalid hplace
  rw [hproc, Except.ok.injEq, Prod.mk.injEq] at hproc₁
  obtain ⟨rfl, rfl⟩ := hproc₁
  -- What was sent tells which way the code went.
  obtain ⟨other₂, w₂, c, hmay, hisNew, hconn⟩ | ⟨-, -, C, D, hout⟩ := hgate
  · have hfound := hmay.called
    rw [hplace.other] at hfound
    cases hfound
    have hc : c.lcn = b.lcn := by
      have hcallee := hconn.callee
      rw [(hconn₁ hmay.ne).callee, Option.some.injEq, Worker.mk.injEq] at hcallee
      exact hcallee.2.2.2.2.1.symm.trans hlcn
    exact ⟨hmay, (hnew c hc).1 hisNew⟩
  · simp [sendAddrCallRequest, diagnostic] at hout

/-- A call that the gate grants is one that the code places, if the answer is that of the
gate. -/
theorem placeable_of_gated {isNew : Channel → Prop} (hgated : Gated b msg env w isNew)
    (hmay : MayCall b (senderKey msg env) w msg other w') :
    Placeable b (senderKey msg env) w msg other w' := by
  by_contra hno
  -- The worker that the search finds is the only one the call can be placed to.
  have hnone : ∀ other₁ w₁, ¬ Placeable b (senderKey msg env) w msg other₁ w₁ := by
    intro other₁ w₁ hplace₁
    have hfound := hplace₁.other
    rw [hmay.called] at hfound
    cases hfound
    exact hno hplace₁
  obtain ⟨b', outs, hproc, hgate⟩ := hgated
  obtain ⟨b₁, outs₁, hproc₁, -, C, D, hout⟩ := h.refused hnone
  rw [hproc, Except.ok.injEq, Prod.mk.injEq] at hproc₁
  obtain ⟨rfl, rfl⟩ := hproc₁
  obtain ⟨other₂, w₂, c, -, -, hconn⟩ | ⟨hnot, -⟩ := hgate
  · have hsent := hconn.sent
    simp [hout, sendAddrCallRequest, diagnostic] at hsent
  · exact hnot other w' hmay

/-- A request is answered as the gate says exactly if the code and the gate agree, and a
call that is granted has a channel that counts as new. -/
theorem gated_iff (hvalid : ChannelsValid b.channels) {isNew : Channel → Prop} (free : Prop)
    (hnew : ∀ c, c.lcn = b.lcn → (isNew c ↔ free)) :
    Gated b msg env w isNew ↔ GatedRight b (senderKey msg env) w msg ∧
      ((∃ other w', Placeable b (senderKey msg env) w msg other w') → free) := by
  rw [h.gatedRight_iff]
  constructor
  · intro hgated
    constructor
    · intro other w'
      exact ⟨fun hplace => (h.mayCall_of_gated hvalid hnew hgated hplace).1,
        fun hmay => h.placeable_of_gated hgated hmay⟩
    · rintro ⟨other, w', hplace⟩
      exact (h.mayCall_of_gated hvalid hnew hgated hplace).2
  · rintro ⟨hagree, hfree⟩
    by_cases hsome : ∃ other w', Placeable b (senderKey msg env) w msg other w'
    · obtain ⟨other, w', hplace⟩ := hsome
      have hmay := (hagree other w').1 hplace
      obtain ⟨b', c, hlcn, hproc, hconn⟩ := h.granted hvalid hplace
      exact ⟨b', _, hproc, .inl ⟨other, w', c, hmay,
        (hnew c hlcn).2 (hfree ⟨other, w', hplace⟩), hconn hmay.ne⟩⟩
    · have hnone : ∀ other w', ¬ Placeable b (senderKey msg env) w msg other w' :=
        fun other w' hplace => hsome ⟨other, w', hplace⟩
      obtain ⟨b', outs, hproc, hrefused⟩ := h.refused hnone
      exact ⟨b', outs, hproc, .inr
        ⟨fun other w' hmay => hnone other w' ((hagree other w').2 hmay), hrefused⟩⟩

end CallRequested

/-- `A` calls `B`, while nobody is on a call. -/
theorem callAB_requested : ∃ w, CallRequested bothReady callAB quietEnv w :=
  ⟨_, rfl, by decide, rfl, rfl, rfl⟩

/-- `A` connects as a worker that may not place calls. -/
def connectBarredA : JozaMsg :=
  { connectA with directionality := 2 }

end Broker
end Jozabad
