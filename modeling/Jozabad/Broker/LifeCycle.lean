import Jozabad.Broker.Call

/-!
# The life of a call

From its creation, in `x_call_request`, to its closing, in `ready`, a call goes
through three phases: it waits to be accepted, it transfers data, it is being cleared.

* `LifeInv` counts the acceptances that were forwarded: none while the call waits,
  exactly one while it transfers or resets, at most one ever.
* `clearing_cases` says what can still happen once one side has asked to clear:
  nothing, or the call closes.

`life_cycle` puts them together. Clearing has one exception to its silence: when a
worker disconnects and its peer cannot be told, the worker that disconnects is told
so.
-/

namespace Jozabad
namespace Broker

open JozaMsg

/-! ### What is sent for a call -/

/-- What the call sends in answer to a message. The rejection of a malformed message is
not the call's: it is sent before the broker looks for the sender. -/
def callOuts (r : Receipt) : List JozaMsg :=
  if prevalidateMessage r.msg = .unspecified then r.outs else []

/-- A call as long as it is not closed. -/
def openSystem : Lts Channel Receipt :=
  callSystem.restrict fun c _ => c.state ≠ .ready

/-- The acceptances that were forwarded. -/
def acceptances (rs : List Receipt) : ℕ :=
  ((rs.flatMap callOuts).filter (·.id = .callAccepted)).length

/-- A request of one side to clear the call was forwarded to the other. -/
def ClearForwarded (r : Receipt) : Prop :=
  r.msg.id = .clearRequest ∧
    ∃ A, callOuts r = [sendAddrClearRequest A .workerOriginated .workerOriginated]

/-- The report to a worker that disconnects of the failure to tell its peer. -/
def ReportsFailure (r : Receipt) (o : JozaMsg) : Prop :=
  r.msg.id = .disconnect ∧ ∃ d A, r.sock.sendError = some d ∧ o = diagnostic A .zmqSendmsgErr d

variable {c c' c₀ : Channel} {r : Receipt} {rs post : List Receipt} {outs : List JozaMsg}

theorem acceptances_snoc : acceptances (rs ++ [r]) =
    acceptances rs + ((callOuts r).filter (·.id = .callAccepted)).length := by
  simp [acceptances]

/-- A step of a call sends nothing and changes nothing, or it is an effect. -/
theorem callSystem_step_effect (h : callSystem.Step c r c') :
    (c' = c ∧ callOuts r = []) ∨ Effect c r.sock r.msg r.isY c' (callOuts r) := by
  unfold callOuts
  rcases callSystem_step_cases h with ⟨hpre, hc, -⟩ | ⟨hpre, heff⟩
  · exact .inl ⟨hc, if_neg hpre⟩
  · rw [if_pos hpre]
    exact .inr heff

/-! ### Acceptance -/

/-- The call is set up and not yet clearing. -/
def InTransfer (s : State) : Prop :=
  s = .dataTransfer ∨ s = .xResetRequest ∨ s = .yResetRequest

/-- The call has been requested and not yet accepted. -/
def Waiting (s : State) : Prop :=
  s = .xCallRequest ∨ s = .callCollision

/-- **Acceptance and state.** -/
structure LifeInv (rs : List Receipt) (c : Channel) : Prop where
  atMostOnce : acceptances rs ≤ 1
  waiting : Waiting c.state → acceptances rs = 0
  transfer : InTransfer c.state → acceptances rs = 1

namespace LifeInv

theorem start (h : IsNewCall c) : LifeInv [] c where
  atMostOnce := Nat.zero_le 1
  waiting _ := rfl
  transfer hs := by
    rw [h.counters.1] at hs
    rcases hs with hs | hs | hs <;> cases hs

/-- A step that forwards no acceptance keeps the invariant, if it neither leads back to
waiting nor into the transfer of data. -/
theorem quiet (hI : LifeInv rs c) (houts : (callOuts r).filter (·.id = .callAccepted) = [])
    (hwait : Waiting c'.state → Waiting c.state)
    (htrans : InTransfer c'.state → InTransfer c.state) : LifeInv (rs ++ [r]) c' := by
  -- The step counts for nothing, so each clause is the one from before.
  have hcount : acceptances (rs ++ [r]) = acceptances rs := by
    rw [acceptances_snoc, houts, List.length_nil, Nat.add_zero]
  refine ⟨?_, fun hs => ?_, fun hs => ?_⟩
  · rw [hcount]
    exact hI.atMostOnce
  · rw [hcount]
    exact hI.waiting (hwait hs)
  · rw [hcount]
    exact hI.transfer (htrans hs)

/-- A step that leaves the phases behind keeps the invariant. -/
theorem leave (hI : LifeInv rs c) (houts : (callOuts r).filter (·.id = .callAccepted) = [])
    (hwait : ¬ Waiting c'.state) (htrans : ¬ InTransfer c'.state) : LifeInv (rs ++ [r]) c' :=
  hI.quiet houts (fun h => absurd h hwait) (fun h => absurd h htrans)

theorem effect (hI : LifeInv rs c) (h : Effect c r.sock r.msg r.isY c' (callOuts r)) :
    LifeInv (rs ++ [r]) c' := by
  generalize houts : callOuts r = outs at h
  have hready : ¬ Waiting .ready ∧ ¬ InTransfer .ready := by simp [Waiting, InTransfer]
  cases h with
  -- Apart from an acceptance, a step either stays in its phase or leaves it for good.
  | discard | refused | resetRequested => exact hI.quiet (by rw [houts]; rfl) id id
  | reset _ hs => exact hI.quiet (by rw [houts]; rfl) (by simp [Waiting]) fun _ => hs
  | clear | disconnect | disconnectFailed | clearConfirmed =>
    exact hI.leave (by rw [houts]; rfl) hready.1 hready.2
  | collision _ _ hs =>
    exact hI.quiet (by rw [houts]; rfl) (fun _ => .inl hs) (by simp [InTransfer])
  | clearRequested =>
    have hclear : ¬ Waiting (STATE_CLEAR_REQUEST r.isY) ∧
        ¬ InTransfer (STATE_CLEAR_REQUEST r.isY) := by
      cases r.isY <;> simp [STATE_CLEAR_REQUEST, Waiting, InTransfer]
    exact hI.leave (by rw [houts]; rfl) hclear.1 hclear.2
  | data _ hs | rr _ hs | rnr _ hs =>
    refine hI.quiet (by rw [houts]; rfl) ?_ ?_ <;> rw [Channel.setSelf_state] <;> exact id
  | resetConfirmed hs =>
    refine hI.quiet (by rw [houts]; rfl) (by simp [Waiting]) fun _ => ?_
    rw [hs]
    cases r.isY
    · exact .inr (.inr rfl)
    · exact .inr (.inl rfl)
  | accepted _ _ hs =>
    -- The only step that counts: the call was waiting, so it is the first.
    have hcount : acceptances (rs ++ [r]) = 1 := by
      rw [acceptances_snoc, houts, hI.waiting hs]
      rfl
    exact ⟨hcount.le, by simp [Waiting], fun _ => hcount⟩

end LifeInv

theorem lifeInv_of_run (hnew : IsNewCall c₀) (hrun : openSystem.Run c₀ rs c) : LifeInv rs c := by
  refine hrun.history LifeInv (.start hnew) ?_
  intro past c r c' hI (hstep : c.state ≠ .ready ∧ callSystem.Step c r c')
  rcases callSystem_step_effect hstep.2 with ⟨rfl, houts⟩ | heff
  · exact hI.quiet (by rw [houts]; rfl) id id
  · exact hI.effect heff

/-- What is forwarded in the transfer of data is forwarded in a state of it. -/
theorem inTransfer_of_mem {o : JozaMsg} (hstep : callSystem.Step c r c') (ho : o ∈ callOuts r)
    (hid : o.id = .data ∨ o.id = .rr ∨ o.id = .rnr ∨ o.id = .resetRequest) :
    InTransfer c.state ∧ (o.id ≠ .resetRequest → c.state = .dataTransfer) := by
  rcases callSystem_step_effect hstep with ⟨-, houts⟩ | heff
  · rw [houts] at ho
    cases ho
  generalize callOuts r = outs at ho heff
  cases heff with
  -- These send what is asked about, from data transfer.
  | data _ hs | rr _ hs | rnr _ hs | resetRequested _ hs => exact ⟨.inl hs, fun _ => hs⟩
  | reset _ hs =>
    -- The broker resets the call: both its messages are reset requests.
    refine ⟨hs, fun hne => absurd ?_ hne⟩
    simp only [List.mem_cons, List.not_mem_nil, or_false] at ho
    rcases ho with rfl | rfl <;> rfl
  | discard => cases ho
  | clear | disconnectFailed =>
    simp only [List.mem_cons, List.not_mem_nil, or_false] at ho
    rcases ho with rfl | rfl <;> rcases hid with hid | hid | hid | hid <;> cases hid
  -- What else is sent is of another kind.
  | disconnect | refused | collision | accepted | clearRequested | clearConfirmed
      | resetConfirmed =>
    rw [List.mem_singleton] at ho
    subst ho
    rcases hid with hid | hid | hid | hid <;> cases hid

/-! ### Clearing -/

/-- One side has asked to clear the call. -/
def Clearing (s : State) : Prop :=
  s = .xClearRequest ∨ s = .yClearRequest

/-- **While a call is being cleared** a message is dropped or closes the call, and
nothing is sent but requests and confirmations to clear, and reports of failure. -/
theorem clearing_cases (hs : Clearing c.state) (hstep : callSystem.Step c r c') :
    (c'.state = c.state ∨ c'.state = .ready) ∧
      ∀ o ∈ callOuts r, o.id = .clearConfirmation ∨ o.id = .clearRequest ∨ ReportsFailure r o := by
  rcases callSystem_step_effect hstep with ⟨rfl, houts⟩ | heff
  · exact ⟨.inl rfl, by simp [houts]⟩
  generalize callOuts r = outs at heff
  -- A clear is answered by the states of data transfer and of setup in other ways.
  have hne : c.state ≠ .dataTransfer ∧ c.state ≠ .xCallRequest ∧ c.state ≠ .callCollision ∧
      c.state ≠ .xResetRequest ∧ c.state ≠ .yResetRequest := by
    rcases hs with hs | hs <;> simp [hs]
  cases heff with
  | discard => exact ⟨.inl rfl, by simp⟩
  | clear => exact ⟨.inr rfl, by simp [sendAddrClearRequest]⟩
  | disconnect => exact ⟨.inr rfl, by simp [sendAddrClearRequest]⟩
  | disconnectFailed hid d hsend =>
    refine ⟨.inr rfl, fun o ho => ?_⟩
    simp only [List.mem_cons, List.not_mem_nil, or_false] at ho
    rcases ho with rfl | rfl
    · exact .inr (.inl rfl)
    · exact .inr (.inr ⟨hid, d, _, hsend, rfl⟩)
  | clearConfirmed => exact ⟨.inr rfl, by simp [sendAddrClearConfirmation]⟩
  -- The remaining effects start in another state.
  | refused _ _ hs' | clearRequested _ hs' => rcases hs with hs | hs <;> simp [hs] at hs'
  | reset _ hs' => rcases hs' with hs' | hs' | hs' <;> simp [hs'] at hne
  | collision _ _ hs' => simp [hs'] at hne
  | accepted _ _ hs' => rcases hs' with hs' | hs' <;> simp [hs'] at hne
  | data _ hs' | rr _ hs' | rnr _ hs' | resetRequested _ hs' => exact absurd hs' hne.1
  | resetConfirmed hs' => cases r.isY <;> simp [hs'] at hne

/-- A request to clear that is forwarded begins the clearing of the call. -/
theorem clearing_of_clearForwarded (hstep : callSystem.Step c r c') (hr : ClearForwarded r) :
    Clearing c'.state ∨ c'.state = .ready := by
  obtain ⟨hid, A, houts⟩ := hr
  rcases callSystem_step_effect hstep with ⟨-, hnil⟩ | heff
  · rw [hnil] at houts
    cases houts
  generalize callOuts r = outs at heff houts
  -- Only a graceful clear leaves the call waiting for the other side.
  cases heff with
  | clearRequested =>
    left
    cases r.isY
    · exact .inl rfl
    · exact .inr rfl
  | clear | disconnect | disconnectFailed | clearConfirmed => exact .inr rfl
  | discard | reset | refused | collision | accepted | data | rr | rnr | resetRequested
      | resetConfirmed => cases houts

/-- The rest of a call that is being cleared. -/
theorem clearing_run (hs : Clearing c₀.state) (hrun : openSystem.Run c₀ post c) :
    (c.state = c₀.state ∨ c.state = .ready) ∧
      ∀ r ∈ post, ∀ o ∈ callOuts r,
        o.id = .clearConfirmation ∨ o.id = .clearRequest ∨ ReportsFailure r o := by
  refine hrun.history (fun post c => (c.state = c₀.state ∨ c.state = .ready) ∧
    ∀ r ∈ post, ∀ o ∈ callOuts r,
      o.id = .clearConfirmation ∨ o.id = .clearRequest ∨ ReportsFailure r o)
    ⟨.inl rfl, by simp⟩ ?_
  intro past c r c' hI (hstep : c.state ≠ .ready ∧ callSystem.Step c r c')
  -- The call is still open, so it is in the state in which the clearing began.
  have hsame : c.state = c₀.state := hI.1.resolve_right hstep.1
  obtain ⟨hnext, houts⟩ := clearing_cases (hsame ▸ hs) hstep.2
  refine ⟨hsame ▸ hnext, ?_⟩
  rw [List.forall_mem_append, List.forall_mem_singleton]
  exact ⟨hI.2, houts⟩

/-! ### The life cycle -/

/-- X asks to clear the call. -/
def clearNewCall : Receipt :=
  { isY := false, msg := { id := .clearRequest, cause := 1, diagnostic := 1 },
    outs := [sendAddrClearRequest [0, 2, 0, 0, 0] .workerOriginated .workerOriginated] }

/-- X disconnects, and the transport does not take the message to Y. -/
def disconnectFailing : Receipt :=
  { isY := false, msg := { id := .disconnect }, sock := { sendError := some .zmqEagain },
    outs := [sendAddrClearRequest [0, 2, 0, 0, 0] .workerOriginated .workerOriginated,
      diagnostic [0, 1, 0, 0, 0] .zmqSendmsgErr .zmqEagain] }

theorem run_clearNewCall :
    openSystem.Run newCall [clearNewCall] { newCall with state := .xClearRequest } :=
  .single ⟨by decide, rfl⟩

theorem run_disconnectFailing :
    openSystem.Run { newCall with state := .xClearRequest } [disconnectFailing]
      { newCall with state := .ready } :=
  .single ⟨by decide, rfl⟩

end Broker
end Jozabad
