import Jozabad.Broker.Forwarding

/-!
# Resetting a call

A call in data transfer is reset in two ways. A worker may ask for it: its
`RESET_REQUEST` is forwarded, and its peer is to answer. Or the broker resets the
call because of a message that does not fit the state, and then both workers are to
answer. The states `xResetRequest` and `yResetRequest` are there to wait for the
answer of Y and of X.

* The request of a worker leaves the channel as it is, in data transfer
  (`doIReset`). `reset_handshake` says what this makes of the handshake: data goes
  on being forwarded, and an answer is taken for one only in special circumstances.
* The broker's own reset waits for X alone (`doReset`). The confirmation of Y does
  not fit any state that follows, and calls for the next punishment
  (`broker_reset_never_recovers`).

Both rest on how the state moves: `xResetRequest` is never entered
(`ne_xResetRequest_step`), and a call that is being cleared does not come back
(`Ending.step`).
-/

namespace Jozabad
namespace Broker

open JozaMsg

/-! ### What is seen of a reset -/

/-- The broker resets or clears the call of its own accord. -/
def IsPunishment (o : JozaMsg) : Prop :=
  (o.id = .resetRequest ∨ o.id = .clearRequest) ∧ o.cause ≠ Cause.workerOriginated.code

/-- A `RESET_REQUEST` is forwarded to the peer of its sender. -/
def ForwardsReset (c : Channel) (r : Receipt) : Prop :=
  r.msg.id = .resetRequest ∧
    r.outs = [sendAddrResetRequest (c.otherZaddr r.isY) .workerOriginated .workerOriginated]

/-- Data is forwarded, in either direction. -/
def ForwardsData (r : Receipt) : Prop :=
  ∃ o ∈ r.outs, o.id = .data

/-- The message is `DATA` that the channel has nothing against. -/
structure AdmitsData (c : Channel) (r : Receipt) : Prop where
  prevalidated : prevalidateMessage r.msg = .unspecified
  id : r.msg.id = .data
  state : c.state = .dataTransfer
  admitted : DataAdmitted c r.msg r.isY

/-- Side `isY` answers a request for a reset, with a confirmation or with a request of
its own. -/
structure AnswersReset (isY : Bool) (r : Receipt) : Prop where
  side : r.isY = isY
  prevalidated : prevalidateMessage r.msg = .unspecified
  id : r.msg.id = .resetConfirmation ∨ r.msg.id = .resetRequest

/-- The reset is over: data transfer starts afresh, and nobody was punished on the
way. -/
structure ResetRecovered (c : Channel) (rs : List Receipt) : Prop where
  state : c.state = .dataTransfer
  zero : AllZero c
  unpunished : ∀ r ∈ rs, ∀ o ∈ r.outs, ¬ IsPunishment o

/-- The broker resets the call itself: both workers are sent a `RESET_REQUEST`. -/
def BrokerResets (c : Channel) (r : Receipt) : Prop :=
  ∃ D, r.outs = [sendAddrResetRequest (c.selfZaddr r.isY) .localProcedureError D,
    sendAddrResetRequest (c.otherZaddr r.isY) .remoteProcedureError D]

/-- The confirmations that side `dir` sends. -/
def confirmations (dir : Bool) (rs : List Receipt) : List Receipt :=
  rs.filter fun r => r.isY = dir ∧ r.msg.id = .resetConfirmation

variable {c c' c₀ c₁ c₂ : Channel} {r : Receipt} {rs : List Receipt} {isY : Bool} {sock : Sock}
  {M : JozaMsg} {outs : List JozaMsg}

/-- A step with a message that passes prevalidation is a dispatch. -/
theorem dispatch_of_step (hstep : callSystem.Step c r c')
    (hpre : prevalidateMessage r.msg = .unspecified) :
    channelDispatch c r.sock r.msg r.isY = .ok (c', r.outs) := by
  change callRecv c r.sock r.msg r.isY = .ok (c', r.outs) at hstep
  unfold callRecv at hstep
  rwa [if_neg (not_not.2 hpre)] at hstep

/-- There is nothing in a `RESET_CONFIRMATION` to object to. -/
theorem prevalidate_resetConfirmation (hid : M.id = .resetConfirmation) :
    prevalidateMessage M = .unspecified := by
  unfold prevalidateMessage objections objectQ objectPr objectPs objectData objectCallData
    objectCallingAddress objectCall objectCause objectDirectionality
  simp [hid]

theorem isPunishment_local {A : Frame} {D : Diag} :
    IsPunishment (sendAddrResetRequest A .localProcedureError D) := by
  refine ⟨.inl rfl, ?_⟩
  show Cause.localProcedureError.code ≠ Cause.workerOriginated.code
  decide

/-! ### How the state moves -/

/-- No step takes the channel to `xResetRequest`. -/
theorem ne_xResetRequest_step (h : Effect c sock M isY c' outs) (hs : c.state ≠ .xResetRequest) :
    c'.state ≠ .xResetRequest := by
  intro hs'
  -- What keeps the state starts in this state, and what changes it leads elsewhere.
  cases h with
  | discard | refused | resetRequested => exact hs hs'
  | data | rr | rnr =>
    rw [Channel.setSelf_state] at hs'
    exact hs hs'
  | clearRequested => cases isY <;> cases hs'
  | reset | clear | disconnect | disconnectFailed | collision | accepted | clearConfirmed
      | resetConfirmed => cases hs'

theorem ne_xResetRequest_of_run (hrun : callSystem.Run c rs c') (hs : c.state ≠ .xResetRequest) :
    c'.state ≠ .xResetRequest := by
  refine hrun.preserves (fun c => c.state ≠ .xResetRequest) hs ?_
  intro c r c' hI hstep
  rcases callSystem_step_cases hstep with ⟨-, rfl, -⟩ | ⟨-, heff⟩
  · exact hI
  · exact ne_xResetRequest_step heff hI

/-- The call is over, or is being cleared. -/
def Ending (s : State) : Prop :=
  s = .ready ∨ s = .xClearRequest ∨ s = .yClearRequest

/-- A call that is being cleared does not come back. -/
theorem Ending.step (hs : Ending c.state) (h : Effect c sock M isY c' outs) : Ending c'.state := by
  have hne : c.state ≠ .dataTransfer ∧ c.state ≠ .xResetRequest ∧ c.state ≠ .yResetRequest ∧
      c.state ≠ .xCallRequest ∧ c.state ≠ .callCollision := by
    rcases hs with hs | hs | hs <;> simp [hs]
  obtain ⟨hdata, hx, hy, hcall, hcollision⟩ := hne
  -- No effect leads from here back to a call, since those start in other states.
  cases h with
  | discard | refused => exact hs
  | clear | disconnect | disconnectFailed | clearConfirmed => exact .inl rfl
  | clearRequested =>
    cases isY
    · exact .inr (.inl rfl)
    · exact .inr (.inr rfl)
  | reset _ hs' =>
    rcases hs' with hs' | hs' | hs'
    · exact absurd hs' hdata
    · exact absurd hs' hx
    · exact absurd hs' hy
  | accepted _ _ hs' =>
    rcases hs' with hs' | hs'
    · exact absurd hs' hcall
    · exact absurd hs' hcollision
  | collision _ _ hs' => exact absurd hs' hcall
  | data _ hs' | rr _ hs' | rnr _ hs' | resetRequested _ hs' => exact absurd hs' hdata
  | resetConfirmed hs' =>
    cases isY
    · exact absurd hs' hy
    · exact absurd hs' hx

/-! ### The reset that a worker asks for -/

/-- Data is forwarded exactly if the channel admits it. -/
theorem forwardsData_iff (hstep : callSystem.Step c r c') : ForwardsData r ↔ AdmitsData c r := by
  constructor
  · -- Only one effect sends a data packet.
    rintro ⟨o, ho, hid⟩
    rcases callSystem_step_cases hstep with ⟨-, -, houts⟩ | ⟨hpre, heff⟩
    · rw [houts, List.mem_singleton] at ho
      subst ho
      cases hid
    generalize r.outs = outs at ho heff
    cases heff with
    | data hid hs hM => exact ⟨hpre, hid, hs, hM⟩
    | discard => cases ho
    | reset | clear | disconnectFailed =>
      simp only [List.mem_cons, List.not_mem_nil, or_false] at ho
      rcases ho with rfl | rfl <;> cases hid
    | disconnect | refused | collision | accepted | clearRequested | clearConfirmed | rr | rnr
        | resetRequested | resetConfirmed =>
      rw [List.mem_singleton] at ho
      subst ho
      cases hid
  · intro hM
    have hvalid := hM.admitted.validButWindow hM.id hM.prevalidated
    have hwin := hM.admitted.in_window
    rw [hM.admitted.ps_eq] at hwin
    -- A valid packet in the window is forwarded.
    rcases hvalid.cases hM.state hstep with ⟨hno, -⟩ | ⟨-, houts⟩
    · rw [hno] at hwin
      cases hwin
    · exact ⟨_, by rw [houts]; exact List.mem_singleton_self _, rfl⟩

/-- A request that is forwarded leaves the channel as it is. -/
theorem eq_of_forwardsReset (hstep : callSystem.Step c r c') (hs : c.state = .dataTransfer)
    (hid : r.msg.id = .resetRequest) : c' = c := by
  rcases callSystem_step_cases hstep with ⟨-, hc, -⟩ | ⟨hpre, -⟩
  · exact hc
  have hdispatch := dispatch_of_step hstep hpre
  obtain ⟨-, yname, hname⟩ := channelDispatch_named hdispatch
  rw [channelDispatch_resetRequest hname hs hid] at hdispatch
  exact (congrArg Prod.fst (Except.ok.inj hdispatch)).symm

/-- In data transfer, a `RESET_REQUEST` punishes nobody. -/
theorem doIReset_unpunished {self other : Frame} :
    ∀ o ∈ doIReset self other M, ¬ IsPunishment o := by
  intro o ho hbad
  unfold doIReset at ho
  split_ifs at ho with h₁ h₂ <;> rw [List.mem_singleton] at ho <;> subst ho
  · rcases hbad.1 with h | h <;> cases h
  · rcases hbad.1 with h | h <;> cases h
  · exact hbad.2 rfl

/-- **When an answer settles a reset**: data transfer with counters that are zero already
is not touched by another request, and X ends the wait for X. -/
theorem resetRecovered_iff (hx : c.state ≠ .xResetRequest) (hans : AnswersReset isY r)
    (hstep : callSystem.Step c r c') :
    ResetRecovered c' [r] ↔
      c.state = .dataTransfer ∧ AllZero c ∧ r.msg.id = .resetRequest ∨
        c.state = .yResetRequest ∧ isY = false := by
  have hdispatch := dispatch_of_step hstep hans.prevalidated
  obtain ⟨hcode, yname, hname⟩ := channelDispatch_named hdispatch
  rw [hans.side] at hdispatch
  constructor
  · rintro ⟨hs', hzero, -⟩
    -- In data transfer, a confirmation would have reset the call.
    have hid : c.state = .dataTransfer → r.msg.id = .resetRequest := by
      intro hs
      refine hans.id.resolve_left fun hid => ?_
      have hcell : actionTable c.state r.msg.id.code isY = .reset := by
        rw [hs, hid]
        cases isY <;> rfl
      rw [channelDispatch_reset hcode hname hcell, Except.ok.injEq, Prod.mk.injEq] at hdispatch
      rw [← hdispatch.1] at hs'
      cases hs'
    have heff := channelDispatch_effect hdispatch
    generalize r.outs = outs at heff
    cases heff with
    -- The state stays, so it was data transfer, with counters at zero.
    | discard | refused | resetRequested => exact .inl ⟨hs', hzero, hid hs'⟩
    | resetConfirmed hs =>
      cases isY
      · exact .inr ⟨hs, rfl⟩
      · exact absurd hs hx
    -- These end in another state than data transfer.
    | reset | clear | disconnect | disconnectFailed | collision | clearConfirmed => cases hs'
    | clearRequested => cases isY <;> cases hs'
    | accepted _ hid' | data hid' | rr hid' | rnr hid' =>
      rcases hans.id with h | h <;> rw [h] at hid' <;> cases hid'
  · -- Conversely, both cells of the table can be read off.
    rintro (⟨hs, hzero, hid⟩ | ⟨hs, rfl⟩)
    · rw [channelDispatch_resetRequest hname hs hid, Except.ok.injEq, Prod.mk.injEq] at hdispatch
      refine ⟨hdispatch.1 ▸ hs, hdispatch.1 ▸ hzero, List.forall_mem_singleton.2 ?_⟩
      rw [← hdispatch.2]
      exact doIReset_unpunished
    · rw [channelDispatch_resetConfirmation hname hs hans.id, Except.ok.injEq,
        Prod.mk.injEq] at hdispatch
      rw [← hdispatch.1]
      refine ⟨rfl, ⟨rfl, rfl, rfl, rfl⟩, List.forall_mem_singleton.2 ?_⟩
      rw [← hdispatch.2, List.forall_mem_singleton]
      rintro ⟨h | h, -⟩ <;> cases h

/-- **The handshake of a reset.** A `RESET_REQUEST` is forwarded in data transfer. It
leaves the channel as it is. Whatever the workers send after it, no data is forwarded
exactly if none comes that the channel admits; and an answer of the peer takes the call
back to data transfer, with its counters at zero and nobody punished, exactly if it is
another request and the counters are zero anyway, or if it comes from X while the channel
waits for X. -/
theorem reset_handshake {c c₀ c₁ : Channel} {r : Receipt} {rs : List Receipt}
    (hs : c.state = .dataTransfer) (hstep : callSystem.Step c r c₀) (hfwd : ForwardsReset c r)
    (hrun : callSystem.Run c₀ rs c₁) :
    c₀ = c ∧
      ((∀ r' ∈ rs, ¬ ForwardsData r') ↔
        (callSystem.restrict fun c r => ¬ AdmitsData c r).Run c₀ rs c₁) ∧
      ∀ r' c₂, AnswersReset (!r.isY) r' → callSystem.Step c₁ r' c₂ →
        (ResetRecovered c₂ [r'] ↔
          c₁.state = .dataTransfer ∧ AllZero c₁ ∧ r'.msg.id = .resetRequest ∨
            c₁.state = .yResetRequest ∧ r.isY = true) := by
  have hc : c₀ = c := eq_of_forwardsReset hstep hs hfwd.1
  have hx : c₁.state ≠ .xResetRequest := ne_xResetRequest_of_run hrun (by simp [hc, hs])
  refine ⟨hc, ?_, fun r' c₂ hans hstep' => ?_⟩
  · refine (Lts.Run.restrict_iff (fun c r c' hstep => ?_) hrun).symm
    rw [forwardsData_iff hstep]
  · rw [resetRecovered_iff hx hans hstep', Bool.not_eq_eq_eq_not, Bool.not_false]

/-- X requests a reset, and the request is forwarded. -/
def requestReceipt : Receipt :=
  { isY := false, msg := { id := .resetRequest, cause := 1, diagnostic := 1 },
    outs := [sendAddrResetRequest wideCall.yzaddr .workerOriginated .workerOriginated] }

theorem requestReceipt_step : callSystem.Step wideCall requestReceipt wideCall :=
  rfl

/-- Side `isY` confirms a reset. -/
def confirmReset (isY : Bool) : Bool × JozaMsg × Sock :=
  (isY, { id := .resetConfirmation }, {})

/-- X requests a reset and then sends a packet of data, which is forwarded. -/
theorem reset_handshake_wideCall : ∃ c r, replay wideCall [xData 0] = .ok (c, [r]) ∧
    ((∀ r' ∈ [r], ¬ ForwardsData r') ↔
      (callSystem.restrict fun c r => ¬ AdmitsData c r).Run wideCall [r] c) := by
  have hplay : ∃ c r, replay wideCall [xData 0] = .ok (c, [r]) := ⟨_, _, rfl⟩
  obtain ⟨c, r, hreplay⟩ := hplay
  exact ⟨c, r, hreplay,
    (reset_handshake rfl requestReceipt_step ⟨rfl, rfl⟩ (replay_run hreplay)).2.1⟩

/-- The confirmation that X has asked for makes the broker reset the call. -/
theorem reset_handshake_broken : ¬ ∀ (c c₀ c₁ : Channel) (r : Receipt) (rs : List Receipt),
    c.state = .dataTransfer → callSystem.Step c r c₀ → ForwardsReset c r →
    callSystem.Run c₀ rs c₁ → (∀ r' ∈ rs, ¬ AnswersReset (!r.isY) r') →
    (∀ r' ∈ rs, ¬ ForwardsData r') ∧
      ∀ r' c₂, AnswersReset (!r.isY) r' → callSystem.Step c₁ r' c₂ → ResetRecovered c₂ [r'] := by
  intro hall
  -- The confirmation of Y is the answer, and the broker resets the call instead.
  have hplay : ∃ c r, replay wideCall [confirmReset true] = .ok (c, [r]) ∧ r.isY = true ∧
      r.msg.id = .resetConfirmation ∧ c.state = .yResetRequest := ⟨_, _, rfl, rfl, rfl, rfl⟩
  obtain ⟨c, r, hreplay, hside, hid, hstate⟩ := hplay
  have hrun := replay_run hreplay
  rw [Lts.Run.cons_iff] at hrun
  obtain ⟨c', hstep, hnil⟩ := hrun
  rw [Lts.Run.nil_iff] at hnil
  subst hnil
  have hrec := (hall wideCall wideCall wideCall requestReceipt [] rfl requestReceipt_step ⟨rfl, rfl⟩
    (.nil _) (by simp)).2 r c ⟨hside, prevalidate_resetConfirmation hid, .inl hid⟩ hstep
  rw [hrec.state] at hstate
  cases hstate

/-! ### The broker's own reset -/

/-- The broker resets a call by waiting for X. -/
theorem yResetRequest_of_brokerResets (hstep : callSystem.Step c r c') (hreset : BrokerResets c r) :
    c'.state = .yResetRequest := by
  -- Two reset requests are sent by one effect only.
  have hids : r.outs.map (·.id) = [.resetRequest, .resetRequest] := by
    obtain ⟨D, houts⟩ := hreset
    rw [houts]
    rfl
  rcases callSystem_step_cases hstep with ⟨-, -, houts⟩ | ⟨-, heff⟩
  · rw [houts] at hids
    cases hids
  generalize r.outs = outs at hids heff
  cases heff with
  | reset => rfl
  | discard | clear | disconnect | disconnectFailed | refused | collision | accepted
      | clearRequested | clearConfirmed | data | rr | rnr | resetRequested | resetConfirmed =>
    cases hids

/-- The states between a reset of the broker's and the next punishment. -/
def Settling (s : State) : Prop :=
  s = .dataTransfer ∨ s = .yResetRequest

/-- While the call settles, the confirmation of Y makes the broker reset it again. -/
theorem Settling.reset_again (hs : Settling c.state) (hid : M.id = .resetConfirmation)
    (h : channelDispatch c sock M true = .ok (c', outs)) : ∃ o ∈ outs, IsPunishment o := by
  obtain ⟨hcode, yname, hname⟩ := channelDispatch_named h
  have hcell : actionTable c.state M.id.code true = .reset := by
    rcases hs with hs | hs <;> rw [hs, hid] <;> rfl
  rw [channelDispatch_reset hcode hname hcell] at h
  cases h
  exact ⟨_, List.mem_cons_self, isPunishment_local⟩

/-- **One step while the call settles**: as long as nobody is punished, the call goes on
settling, and the message is not the confirmation of Y; or the call comes to its end. -/
theorem Settling.step (hs : Settling c.state) (hstep : callSystem.Step c r c')
    (hpun : ∀ o ∈ r.outs, ¬ IsPunishment o) :
    Settling c'.state ∧ ¬ (r.isY = true ∧ r.msg.id = .resetConfirmation) ∨ Ending c'.state := by
  by_cases hconf : r.isY = true ∧ r.msg.id = .resetConfirmation
  · -- A confirmation of Y is punished here, in any of the two states.
    obtain ⟨hy, hid⟩ := hconf
    have hdispatch := dispatch_of_step hstep (prevalidate_resetConfirmation hid)
    rw [hy] at hdispatch
    obtain ⟨o, ho, hbad⟩ := hs.reset_again hid hdispatch
    exact absurd hbad (hpun o ho)
  rcases callSystem_step_cases hstep with ⟨-, rfl, -⟩ | ⟨-, heff⟩
  · exact .inl ⟨hs, hconf⟩
  generalize r.outs = outs at heff
  -- Every other effect keeps to the two states, or ends the call.
  cases heff with
  | discard | refused | resetRequested => exact .inl ⟨hs, hconf⟩
  | data | rr | rnr => exact .inl ⟨by rwa [Channel.setSelf_state], hconf⟩
  | reset => exact .inl ⟨.inr rfl, hconf⟩
  | resetConfirmed | accepted => exact .inl ⟨.inl rfl, hconf⟩
  | clear | disconnect | disconnectFailed | clearConfirmed => exact .inr (.inl rfl)
  | collision _ _ hs' => rcases hs with hs | hs <;> rw [hs] at hs' <;> cases hs'
  | clearRequested =>
    cases r.isY
    · exact .inr (.inr (.inl rfl))
    · exact .inr (.inr (.inr rfl))

/-- **A run while the call settles.** -/
theorem Settling.run (hs : Settling c.state) (hrun : callSystem.Run c rs c')
    (hpun : ∀ r ∈ rs, ∀ o ∈ r.outs, ¬ IsPunishment o) :
    Settling c'.state ∧ (∀ r ∈ rs, ¬ (r.isY = true ∧ r.msg.id = .resetConfirmation)) ∨
      Ending c'.state := by
  induction hrun with
  | nil => exact .inl ⟨hs, by simp⟩
  | cons hstep hrest ih =>
    rw [List.forall_mem_cons] at hpun
    -- The first step keeps to the two states or ends the call, and then the rest follows.
    rcases hs.step hstep hpun.1 with ⟨hs', hno⟩ | hend
    · rcases ih hs' hpun.2 with ⟨hs'', hrest⟩ | hend
      · exact .inl ⟨hs'', List.forall_mem_cons.2 ⟨hno, hrest⟩⟩
      · exact .inr hend
    · refine .inr (hrest.preserves (fun c => Ending c.state) hend ?_)
      intro c r c' hI hstep
      rcases callSystem_step_cases hstep with ⟨-, rfl, -⟩ | ⟨-, heff⟩
      · exact hI
      · exact hI.step heff

/-- **The broker's reset never recovers.** Once the broker has reset a call, the two
workers confirm that, each of them once, whatever else they send: the call does not get
back to data transfer with its counters at zero and without a further punishment. -/
theorem broker_reset_never_recovers {c c₁ c₂ : Channel} {r : Receipt} {rs : List Receipt}
    (hstep : callSystem.Step c r c₁) (hreset : BrokerResets c r) (hrun : callSystem.Run c₁ rs c₂)
    (hconf : ∀ dir, (confirmations dir rs).length = 1) :
    ¬ ResetRecovered c₂ rs := by
  intro hrec
  have hsettling : Settling c₁.state := .inr (yResetRequest_of_brokerResets hstep hreset)
  rcases hsettling.run hrun hrec.unpunished with ⟨-, hno⟩ | hend
  · -- The confirmation of Y is among the messages.
    obtain ⟨r', hr'⟩ := List.exists_mem_of_length_pos (by rw [hconf true]; exact Nat.one_pos)
    rw [confirmations, List.mem_filter, decide_eq_true_eq] at hr'
    exact hno r' hr'.1 hr'.2
  · rw [hrec.state] at hend
    rcases hend with h | h | h <;> cases h

/-- A call that the broker has reset because of a confirmation that nobody asked for. -/
def resetCall : Channel :=
  { wideCall with state := .yResetRequest }

/-- What X gets the broker to do with such a confirmation. -/
def unaskedReceipt : Receipt :=
  { isY := false, msg := { id := .resetConfirmation },
    outs := [sendAddrResetRequest wideCall.xzaddr .localProcedureError
        .invalidMessageForStateDataTransfer,
      sendAddrResetRequest wideCall.yzaddr .remoteProcedureError
        .invalidMessageForStateDataTransfer] }

theorem resetCall_step : callSystem.Step wideCall unaskedReceipt resetCall :=
  rfl

/-- X and then Y confirm the reset. -/
theorem broker_reset_never_recovers_resetCall : ∃ c rs,
    replay resetCall [confirmReset false, confirmReset true] = .ok (c, rs) ∧
      ¬ ResetRecovered c rs := by
  have hplay : ∃ c rs, replay resetCall [confirmReset false, confirmReset true] = .ok (c, rs) ∧
      ∀ dir, (confirmations dir rs).length = 1 := by
    refine ⟨_, _, rfl, fun dir => ?_⟩
    cases dir <;> rfl
  obtain ⟨c, rs, hreplay, hconf⟩ := hplay
  exact ⟨c, rs, hreplay,
    broker_reset_never_recovers resetCall_step ⟨_, rfl⟩ (replay_run hreplay) hconf⟩

/-- After the two confirmations the broker has reset the call once more. -/
theorem broker_reset_unrecovered : ¬ ∀ (c c₁ c₂ : Channel) (r r₁ r₂ : Receipt),
    c.state = .dataTransfer → callSystem.Step c r c₁ → BrokerResets c r →
    callSystem.Run c₁ [r₁, r₂] c₂ → r₁.msg.id = .resetConfirmation →
    r₂.msg.id = .resetConfirmation → r₂.isY = !r₁.isY → ResetRecovered c₂ [r₁, r₂] := by
  intro hall
  -- X confirms the reset, and the confirmation of Y is answered by another reset.
  have hplay : ∃ c₂ r₁ r₂, replay resetCall [confirmReset false, confirmReset true] =
      .ok (c₂, [r₁, r₂]) ∧ r₁.msg.id = .resetConfirmation ∧ r₂.msg.id = .resetConfirmation ∧
        r₂.isY = (!r₁.isY) ∧ c₂.state = .yResetRequest := ⟨_, _, _, rfl, rfl, rfl, rfl, rfl⟩
  obtain ⟨c₂, r₁, r₂, hreplay, hid₁, hid₂, hside, hstate⟩ := hplay
  have hrec := hall wideCall resetCall c₂ unaskedReceipt r₁ r₂ rfl resetCall_step ⟨_, rfl⟩
    (replay_run hreplay) hid₁ hid₂ hside
  rw [hrec.state] at hstate
  cases hstate

end Broker
end Jozabad
