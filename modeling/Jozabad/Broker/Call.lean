import Jozabad.Broker.Process

/-!
# A call as a transition system

Seen from one call, the broker receives messages of the call's two workers in any
order. Each is prevalidated and then dispatched: `callRecv` is this composition, and
`sProcess_onCall` says that it is what `sProcess` does with a message of a worker on
a call, before a closed channel is removed.

`callSystem` is the call as a transition system. Its labels (`Receipt`) hold the
message, the side it came from and everything that was sent in answer, so that a run
is a record of the conversation. It starts with a channel as the broker creates it,
waiting for Y to accept.
-/

namespace Jozabad
namespace Broker

open JozaMsg

/-- What the broker does with a message of side `isY` of a call. -/
def callRecv (c : Channel) (sock : Sock) (msg : JozaMsg) (isY : Bool) :
    Except Fault (Channel × List JozaMsg) :=
  if prevalidateMessage msg ≠ .unspecified then
    .ok (c, [diagnostic msg.address .malformedMessage (prevalidateMessage msg)])
  else channelDispatch c sock msg isY

/-- A message of one side of a call, with what the broker sent in answer. -/
structure Receipt where
  /-- The message came from Y. -/
  isY : Bool
  msg : JozaMsg
  sock : Sock := {}
  outs : List JozaMsg := []

/-- A channel as the broker stores it for a new call. -/
def IsNewCall (c : Channel) : Prop :=
  ∃ ynameHi lcn xzaddr xname yzaddr yname pkt window tput c₀,
    channelCreate ynameHi lcn xzaddr xname yzaddr yname pkt window tput = .ok c₀ ∧
      c = { c₀ with state := .xCallRequest }

/-- A call as a transition system. -/
def callSystem : Lts Channel Receipt where
  Init := IsNewCall
  Step c r c' := callRecv c r.sock r.msg r.isY = .ok (c', r.outs)

variable {c c' : Channel} {r : Receipt}

/-! ### One step of a call -/

/-- **A step of a call** either rejects a malformed message, and then nothing else
happens, or is an effect of the message. -/
theorem callSystem_step_cases (h : callSystem.Step c r c') :
    (prevalidateMessage r.msg ≠ .unspecified ∧ c' = c ∧
        r.outs = [diagnostic r.msg.address .malformedMessage (prevalidateMessage r.msg)]) ∨
      (prevalidateMessage r.msg = .unspecified ∧ Effect c r.sock r.msg r.isY c' r.outs) := by
  change callRecv c r.sock r.msg r.isY = .ok (c', r.outs) at h
  unfold callRecv at h
  split_ifs at h with hpre
  · rw [Except.ok.injEq, Prod.mk.injEq] at h
    exact .inl ⟨hpre, h.1.symm, h.2.symm⟩
  · exact .inr ⟨not_not.1 hpre, channelDispatch_effect h⟩

theorem sameCall_of_step (hstep : callSystem.Step c r c') : SameCall c c' := by
  rcases callSystem_step_cases hstep with ⟨-, rfl, -⟩ | ⟨-, heff⟩
  · exact .refl c'
  · exact heff.sameCall

/-- The number and the parties of a call never change. -/
theorem sameCall_of_run {c₀ : Channel} {rs : List Receipt}
    (hrun : callSystem.Run c₀ rs c) : SameCall c₀ c :=
  hrun.preserves (SameCall c₀) (.refl c₀) fun _ _ _ hI hstep => hI.trans (sameCall_of_step hstep)

/-- A new call has its counters at zero. -/
theorem IsNewCall.counters (h : IsNewCall c) :
    c.state = .xCallRequest ∧ c.xps = 0 ∧ c.xpr = 0 ∧ c.yps = 0 ∧ c.ypr = 0 := by
  obtain ⟨_, _, _, _, _, _, pkt, _, tput, c₀, hcreate, rfl⟩ := h
  unfold channelCreate at hcreate
  obtain ⟨_, _, hcreate⟩ := bind_eq_ok hcreate
  obtain ⟨_, _, hcreate⟩ := bind_eq_ok hcreate
  cases hcreate
  exact ⟨rfl, rfl, rfl, rfl, rfl⟩

/-! ### Replaying a conversation -/

/-- Run a call on a list of messages, each with its side and the result of the send
that is looked at, and record what is sent. -/
def replay (c : Channel) : List (Bool × JozaMsg × Sock) → Except Fault (Channel × List Receipt)
  | [] => .ok (c, [])
  | (isY, msg, sock) :: rest => do
    let (c, outs) ← callRecv c sock msg isY
    let (c, rs) ← replay c rest
    return (c, { isY, msg, sock, outs } :: rs)

theorem replay_run {inputs : List (Bool × JozaMsg × Sock)} {rs : List Receipt}
    (h : replay c inputs = .ok (c', rs)) : callSystem.Run c rs c' := by
  induction inputs generalizing c rs with
  | nil =>
    cases h
    exact .nil _
  | cons input rest ih =>
    obtain ⟨isY, msg, sock⟩ := input
    obtain ⟨⟨c₁, outs⟩, hrecv, h⟩ := bind_eq_ok h
    obtain ⟨⟨c₂, rs'⟩, hrest, h⟩ := bind_eq_ok h
    cases h
    exact .cons hrecv (ih hrest)

/-- The record holds the messages that were sent. -/
theorem replay_msgs {inputs : List (Bool × JozaMsg × Sock)} {rs : List Receipt}
    (h : replay c inputs = .ok (c', rs)) : rs.map (·.msg) = inputs.map (·.2.1) := by
  induction inputs generalizing c rs with
  | nil =>
    cases h
    rfl
  | cons input rest ih =>
    obtain ⟨isY, msg, sock⟩ := input
    obtain ⟨⟨c₁, outs⟩, hrecv, h⟩ := bind_eq_ok h
    obtain ⟨⟨c₂, rs'⟩, hrest, h⟩ := bind_eq_ok h
    cases h
    rw [List.map_cons, List.map_cons, ih hrest]

/-- A new call from `A` to `B`, with a window of seven packets. -/
def newCall : Channel :=
  { lcn := 1, xzaddr := [0, 1, 0, 0, 0], yzaddr := [0, 2, 0, 0, 0],
    xname := .ofBytes [65], yname := ⟨0, some (.ofBytes [66])⟩, state := .xCallRequest,
    xps := 0, xpr := 0, yps := 0, ypr := 0, window := 7, pkt := 7, tput := 10 }

theorem newCall_isNewCall : IsNewCall newCall :=
  ⟨0, 1, _, _, _, _, 7, 7, 10, { newCall with state := .ready }, rfl, rfl⟩

/-- `B` accepts the call as it was requested. -/
def acceptNewCall : Bool × JozaMsg × Sock :=
  (true, { id := .callAccepted, callingAddress := .ofBytes [65],
           calledAddress := .ofBytes [66], packet := 7, window := 7, throughput := 10 }, {})

/-- X sends the data packet with number `ps`. -/
def xData (ps : UInt16) : Bool × JozaMsg × Sock :=
  (false, { id := .data, ps, data := [1] }, {})

/-! ### The call inside the broker -/

/-- **A call inside the broker.** A message of a worker on a call whose channel and
partner are found is received by the call; if the channel is closed after that, it is
removed. -/
theorem sProcess_onCall {b : JozaPoll} {msg : JozaMsg} {env : Env} {w : Worker} {other : ℕ}
    (hpre : prevalidateMessage msg = .unspecified)
    (hcall : OnCall b (senderKey msg env) w c other) :
    sProcess b msg env = (do
      let (c', outs) ← callRecv c env.sock msg w.isY
      let b' := { b.touch (senderKey msg env) env.now with
        channels := b.channels.modify w.lcn.toNat fun _ => c' }
      if channelIsClosed c' then
        return (sRemoveChannel b' w.lcn.toNat c' other, outs)
      else
        return (b', outs)) := by
  have hc : (b.touch (senderKey msg env) env.now).channels.get?
      (workerUpdateAtime env.now w).lcn.toNat = some c := hcall.channel
  obtain ⟨w', hother⟩ := hcall.touch.other
  rw [sProcess_of_onCall hpre hcall.worker hcall.role, sProcessMsgFromConnectedWorker, hc, hother,
    callRecv, if_neg (not_not.2 hpre)]
  rfl

end Broker
end Jozabad
