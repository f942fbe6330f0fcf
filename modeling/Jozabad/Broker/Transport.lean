import Jozabad.Broker.History

/-!
# What the broker promises on its calls

The laws of a call on its own hold for the calls in the broker, since each of these has a history
that is a run of `callSystem` as long as it is not over (`Broker/History`).

* Data and acknowledgements are forwarded on a call that has been accepted since it was placed,
  once, and to the other party of the call (`accepted_before_data`).
* On a call that transfers data, all the data forwarded since the counters were zero has gone
  out in the order in which it came in (`transfers_in_order`).
* At most one packet more than the window allows is under way on such a call, and what is
  acknowledged has been forwarded (`acknowledges_forwarded`).
-/

namespace Jozabad
namespace Broker

open JozaMsg

variable {b b' : JozaPoll} {msg o : JozaMsg} {env : Env} {w : Worker} {c c' c₀ : Channel}
  {other l : ℕ} {ts : List (JozaPoll × Event)} {r : Receipt} {rs seg : List Receipt}
  {sock : Sock} {isY : Bool} {outs : List JozaMsg}

/-! ### Data after the acceptance -/

/-- The message belongs to the transfer of data. -/
theorem Effect.flow (h : Effect c sock msg isY c' outs) (ho : o ∈ outs) (hflow : IsFlow o) :
    c.state = .dataTransfer ∧ o.address = c.otherZaddr isY := by
  cases h with
  | data _ hs | rr _ hs | rnr _ hs =>
    rw [List.mem_singleton.1 ho]
    exact ⟨hs, rfl⟩
  | discard => cases ho
  | reset | clear | disconnectFailed =>
    rcases List.mem_pair.1 ho with rfl | rfl <;> rcases hflow with hid | hid | hid <;> cases hid
  | disconnect | refused | collision | accepted | clearRequested | clearConfirmed
      | resetRequested | resetConfirmed =>
    rw [List.mem_singleton.1 ho] at hflow
    rcases hflow with hid | hid | hid <;> cases hid

/-- Only a worker on a call makes the broker send what belongs to the transfer of data. -/
theorem sProcess_flow (h : sProcess b msg env = .ok (b', outs)) (ho : o ∈ outs)
    (hflow : IsFlow o) : ∃ w c other, OnCall b (senderKey msg env) w c other ∧
      c.state = .dataTransfer ∧ o.address = c.otherZaddr w.isY := by
  have hdispatch {w c other c₁} (hcall : OnCall (b.touch (senderKey msg env) env.now)
      (senderKey msg env) w c other)
      (hdisp : channelDispatch c env.sock msg w.isY = .ok (c₁, outs)) :
      ∃ w c other, OnCall b (senderKey msg env) w c other ∧
        c.state = .dataTransfer ∧ o.address = c.otherZaddr w.isY := by
    obtain ⟨w₀, rfl, hcall₀⟩ := hcall.of_touch
    exact ⟨w₀, c, other, hcall₀, (channelDispatch_effect hdisp).flow ho hflow⟩
  have hother {o' : JozaMsg} (ho : o ∈ [o']) (hid : ¬ IsFlow o') : False :=
    hid (List.mem_singleton.1 ho ▸ hflow)
  cases sProcess_outcome h with
  | call _ hcall hdisp | closed _ hcall hdisp => exact hdispatch hcall hdisp
  | stray | left | ignored | unknown => cases ho
  | malformed | callRefused | callPlaced | directory | connectRefused | connected =>
    refine (hother ho ?_).elim
    rintro (hid | hid | hid) <;> cases hid

/-- **Data is forwarded on accepted calls only.** In every run of the broker, data or an
acknowledgement that it sends belongs to a call that has been placed before, and of which one
acceptance has been forwarded since; and it goes to the party of that call that has not sent
it. -/
theorem accepted_before_data (hrun : brokerSystem.traced.Run .start ts b)
    (hstep : b.Step (.recv msg env outs) b') (ho : o ∈ outs)
    (hflow : o.id = .data ∨ o.id = .rr ∨ o.id = .rnr) :
    ∃ w c₀ rs, b.workers.get? (senderKey msg env) = some w ∧ Chronicle w.lcn.toNat ts c₀ rs ∧
      acceptances rs = 1 ∧ o.address = c₀.otherZaddr w.isY := by
  obtain ⟨w, c, other, hcall, hs, haddress⟩ := sProcess_flow hstep.2 ho hflow
  obtain ⟨c₀, rs, hchronicle, hentry⟩ := exists_entry_run hrun hcall.channel
  have htransfer : InTransfer c.state := .inl hs
  have hopen := run_of_live hentry (.inr htransfer)
  refine ⟨w, c₀, rs, hcall.worker, hchronicle, ?_, ?_⟩
  · exact (lifeInv_of_run hchronicle.isNewCall hopen).transfer htransfer
  · rw [haddress]
    exact (sameCall_of_run hopen.of_restrict).otherZaddr

/-- The data of `A` goes out on the call that `B` has accepted. -/
theorem accepted_before_data_AB : ∃ ts b b' o, brokerSystem.traced.Run .start ts b ∧
    b.Step (.recv dataAB quietEnv [o]) b' ∧
      ∃ w c₀ rs, b.workers.get? (senderKey dataAB quietEnv) = some w ∧
        Chronicle w.lcn.toNat ts c₀ rs ∧ acceptances rs = 1 ∧ o.address = c₀.otherZaddr w.isY := by
  obtain ⟨ts, b, b', o, hrun, hstep, ho, -⟩ := run_callAB
  exact ⟨ts, b, b', o, hrun, hstep,
    accepted_before_data hrun hstep (List.mem_singleton_self o) (.inl ho)⟩

/-! ### Data in order -/

/-- The last element with a property. -/
theorem exists_last {α : Type} {p : α → Prop} {as : List α} (h : ∃ a ∈ as, p a) :
    ∃ pre a post, as = pre ++ a :: post ∧ p a ∧ ∀ x ∈ post, ¬ p x := by
  induction as using List.reverseRecOn with
  | nil =>
    obtain ⟨a, ha, -⟩ := h
    cases ha
  | append_singleton as a ih =>
    by_cases ha : p a
    · exact ⟨as, a, [], rfl, ha, by simp⟩
    · have hbefore : ∃ x ∈ as, p x := by
        obtain ⟨x, hx, hpx⟩ := h
        rcases List.mem_append.1 hx with hx | hx
        · exact ⟨x, hx, hpx⟩
        · rw [List.mem_singleton.1 hx] at hpx
          exact absurd hpx ha
      obtain ⟨pre, x, post, rfl, hpx, hpost⟩ := ih hbefore
      refine ⟨pre, x, post ++ [a], by simp, hpx, ?_⟩
      rw [List.forall_mem_append, List.forall_mem_singleton]
      exact ⟨hpost, ha⟩

/-- An acceptance is a zero point. -/
theorem exists_zeroPoint (h : acceptances rs ≠ 0) : ∃ r ∈ rs, ZeroPoint r := by
  obtain ⟨o, ho⟩ := List.exists_mem_of_ne_nil _ (List.ne_nil_of_length_pos (Nat.pos_of_ne_zero h))
  rw [List.mem_filter, List.mem_flatMap] at ho
  obtain ⟨⟨r, hr, ho⟩, hid⟩ := ho
  unfold callOuts at ho
  split_ifs at ho
  · exact ⟨r, hr, o, ho, .inl (of_decide_eq_true hid)⟩
  · cases ho

/-- A call that transfers data has had a zero point, and its history splits at the last one. -/
theorem exists_segment (hrun : brokerSystem.traced.Run .start ts b)
    (hc : b.channels.get? l = some c) (hs : c.state = .dataTransfer) :
    ∃ c₀ pre z seg, Chronicle l ts c₀ (pre ++ z :: seg) ∧ ZeroPoint z ∧
      (∀ r ∈ seg, ¬ ZeroPoint r) ∧ callSystem.Run c₀ (pre ++ z :: seg) c := by
  obtain ⟨c₀, rs, hchronicle, hentry⟩ := exists_entry_run hrun hc
  have htransfer : InTransfer c.state := .inl hs
  have hopen := run_of_live hentry (.inr htransfer)
  have haccepted := (lifeInv_of_run hchronicle.isNewCall hopen).transfer htransfer
  have hsome : acceptances rs ≠ 0 := haccepted ▸ Nat.one_ne_zero
  obtain ⟨pre, z, seg, rfl, hz, hseg⟩ := exists_last (exists_zeroPoint hsome)
  exact ⟨c₀, pre, z, seg, hchronicle, hz, hseg, hopen.of_restrict⟩

/-- After a zero point the counters are zero, and the segment that follows has no other one. -/
theorem segment_of_run {pre : List Receipt} {z : Receipt} (hnew : IsNewCall c₀)
    (hrun : callSystem.Run c₀ (pre ++ z :: seg) c) (hz : ZeroPoint z)
    (hseg : ∀ r ∈ seg, ¬ ZeroPoint r) : ∃ m m', SameCall c₀ m' ∧ AllZero m' ∧
      callSystem.Step m z m' ∧ (callSystem.restrict fun _ r => ¬ ZeroPoint r).Run m' seg c := by
  obtain ⟨m, hpre, hrest⟩ := hrun.split
  obtain ⟨m', hstep, hrest⟩ := Lts.Run.cons_iff.1 hrest
  exact ⟨m, m', (sameCall_of_run hpre).trans (sameCall_of_step hstep),
    allZero_of_zeroPoint (zeroUntilAccepted_of_run hnew hpre) hstep hz, hstep,
    hrest.restrict fun r hr _ => hseg r hr⟩

/-- **Data goes through in order.** In every run of the broker, on every call that transfers
data, the data forwarded in either direction since the counters were set to zero is a
subsequence of the data sent, unchanged, to the other party; its numbers go round without a gap,
and the number expected next is the next one. -/
theorem transfers_in_order (hrun : brokerSystem.traced.Run .start ts b)
    (hc : b.channels.get? l = some c) (hs : c.state = .dataTransfer) :
    ∃ c₀ pre z seg, Chronicle l ts c₀ (pre ++ z :: seg) ∧ ZeroPoint z ∧
      (∀ r ∈ seg, ¬ ZeroPoint r) ∧ ∀ dir,
        ((forwarded dir seg).map payload).Sublist ((sentData dir seg).map payload) ∧
          (forwarded dir seg).map (·.ps.toNat) =
            (List.range (forwarded dir seg).length).map (· % (SEQ_MAX + 1)) ∧
          (∀ o ∈ forwarded dir seg, o.address = c₀.otherZaddr dir) ∧
          c.selfPs dir = (forwarded dir seg).length % (SEQ_MAX + 1) := by
  obtain ⟨c₀, pre, z, seg, hchronicle, hz, hseg, hcall⟩ := exists_segment hrun hc hs
  obtain ⟨m, m', hsame, hzero, -, hquiet⟩ := segment_of_run hchronicle.isNewCall hcall hz hseg
  have hI : ForwardInv c₀ seg c := hquiet.history (ForwardInv c₀) (.start hsame hzero)
    fun _ c r c' hI (hstep : ¬ ZeroPoint r ∧ callSystem.Step c r c') => hI.step hstep.2 hstep.1
  exact ⟨c₀, pre, z, seg, hchronicle, hz, hseg, fun dir =>
    ⟨hI.sublist dir, hI.numbers dir, hI.address dir, hI.next hs dir⟩⟩

/-- The data of `A` is the first on its call. -/
theorem transfers_in_order_AB : ∃ ts b c c₀ pre z seg, brokerSystem.traced.Run .start ts b ∧
    b.channels.get? 1 = some c ∧ Chronicle 1 ts c₀ (pre ++ z :: seg) ∧
      c.selfPs false = (forwarded false seg).length % (SEQ_MAX + 1) := by
  obtain ⟨ts, b, b', o, hrun, hstep, -, c, hc, hs, -⟩ := run_callAB
  have hrun' : brokerSystem.traced.Run .start (ts ++ [(b, .recv dataAB quietEnv [o])]) b' :=
    hrun.append (.single ⟨rfl, hstep⟩)
  obtain ⟨c₀, pre, z, seg, hchronicle, -, -, hdirs⟩ := transfers_in_order hrun' hc hs
  exact ⟨_, b', c, c₀, pre, z, seg, hrun', hc, hchronicle, (hdirs false).2.2.2⟩

/-! ### Acknowledgements -/

/-- At a zero point data transfer begins. -/
theorem state_of_zeroPoint (hstep : callSystem.Step c r c') (hz : ZeroPoint r) :
    c'.state = .dataTransfer := by
  obtain ⟨o, ho, hid⟩ := hz
  rcases callSystem_step_cases hstep with ⟨-, -, houts⟩ | ⟨-, heff⟩
  · rw [houts, List.mem_singleton] at ho
    subst ho
    rcases hid with hid | hid <;> cases hid
  generalize r.outs = outs at ho heff
  cases heff with
  | accepted | resetConfirmed => rfl
  | discard => cases ho
  | reset | clear | disconnectFailed =>
    rcases List.mem_pair.1 ho with rfl | rfl <;> rcases hid with hid | hid <;> cases hid
  | disconnect | refused | collision | clearRequested | clearConfirmed | data | rr | rnr
      | resetRequested =>
    rw [List.mem_singleton.1 ho] at hid
    rcases hid with hid | hid <;> cases hid

/-- **A step inside data transfer** is one of its messages, or it changes neither the channel
nor the accounts. -/
theorem transfer_cases (hstep : callSystem.Step c r c') (hz : ¬ ZeroPoint r)
    (hs : c'.state = .dataTransfer) :
    c.state = .dataTransfer ∧
      (flowSystem.Step c r c' ∨ c' = c ∧ ∀ dir L, tally dir L r = L) := by
  have hstep' := hstep
  rcases callSystem_step_cases hstep with ⟨-, rfl, houts⟩ | ⟨-, heff⟩
  · exact ⟨hs, .inr ⟨rfl, fun _ _ => tally_diagnostic houts⟩⟩
  generalize houts : r.outs = outs at heff
  cases heff with
  | discard => exact ⟨hs, .inr ⟨rfl, fun _ _ => by simp [tally, houts]⟩⟩
  | refused => exact ⟨hs, .inr ⟨rfl, fun _ _ => tally_diagnostic houts⟩⟩
  | resetRequested =>
    refine ⟨hs, .inr ⟨rfl, fun _ _ => ?_⟩⟩
    simp [tally, houts, sendAddrResetRequest, IsFlow]
  | data hid hs' => exact ⟨hs', .inl ⟨.inl hid, hstep'⟩⟩
  | rr hid hs' => exact ⟨hs', .inl ⟨.inr (.inl hid), hstep'⟩⟩
  | rnr hid hs' => exact ⟨hs', .inl ⟨.inr (.inr hid), hstep'⟩⟩
  | accepted | resetConfirmed =>
    refine absurd ?_ hz
    unfold ZeroPoint
    rw [houts]
    exact ⟨_, List.mem_singleton_self _, by simp [sendAddrCallAccepted, sendAddrResetConfirmation]⟩
  | reset | clear | disconnect | disconnectFailed | collision | clearConfirmed => cases hs
  | clearRequested =>
    unfold STATE_CLEAR_REQUEST at hs
    split_ifs at hs

/-- What is no message of data transfer can be left out of a segment. -/
theorem exists_flow_run (hrun : (callSystem.restrict fun _ r => ¬ ZeroPoint r).Run c₀ seg c)
    (hs : c.state = .dataTransfer) :
    ∃ rs, flowSystem.Run c₀ rs c ∧ ∀ dir, ledger dir rs = ledger dir seg := by
  refine hrun.history (fun past c => c.state = .dataTransfer →
    ∃ rs, flowSystem.Run c₀ rs c ∧ ∀ dir, ledger dir rs = ledger dir past) ?_ ?_ hs
  · exact fun _ => ⟨[], .nil c₀, fun _ => rfl⟩
  · rintro past c r c' ih ⟨hz, hstep⟩ hs'
    obtain ⟨hs, hcase⟩ := transfer_cases hstep hz hs'
    obtain ⟨rs, hflow, hledger⟩ := ih hs
    rcases hcase with hone | ⟨rfl, htally⟩
    · refine ⟨rs ++ [r], hflow.append (.single hone), fun dir => ?_⟩
      rw [ledger_snoc, ledger_snoc, hledger]
    · refine ⟨rs, hflow, fun dir => ?_⟩
      rw [ledger_snoc, htally, hledger]

/-- Data transfer does not change the window. -/
theorem window_of_flow_run (hrun : flowSystem.Run c₀ rs c) : c.window = c₀.window := by
  refine hrun.preserves (fun c => c.window = c₀.window) rfl ?_
  rintro c r c' hsame ⟨hflow, hstep⟩
  rcases callSystem_step_cases hstep with ⟨-, rfl, -⟩ | ⟨-, heff⟩
  · exact hsame
  generalize r.outs = outs at heff
  cases heff with
  | data | rr | rnr => exact Channel.setSelf_window.trans hsame
  | accepted _ hid => rcases hflow with h | h | h <;> rw [h] at hid <;> cases hid
  | discard | refused | resetRequested | reset | clear | disconnect | disconnectFailed
      | collision | clearRequested | clearConfirmed | resetConfirmed => exact hsame

/-- **What is acknowledged has been forwarded.** In every run of the broker, on every call that
transfers data with a window that may be negotiated, the acknowledged count of each direction
since the counters were zero does not run ahead of the forwarded one, and is behind it by one
packet more than the window allows at most; and a PR passes the check exactly if it acknowledges
a count between the two. -/
theorem acknowledges_forwarded (hrun : brokerSystem.traced.Run .start ts b)
    (hc : b.channels.get? l = some c) (hs : c.state = .dataTransfer)
    (hmin : WINDOW_MIN ≤ c.window) (hmax : c.window ≤ WINDOW_MAX) :
    ∃ c₀ pre z seg, Chronicle l ts c₀ (pre ++ z :: seg) ∧ ZeroPoint z ∧
      (∀ r ∈ seg, ¬ ZeroPoint r) ∧ ∀ dir,
        (ledger dir seg).acked ≤ (ledger dir seg).sent ∧
          (ledger dir seg).outstanding ≤ c.window + 1 ∧
          ∀ p ≤ SEQ_MAX, seqInRange p (c.selfPr !dir) (c.otherPs !dir) = true ↔
            ∃ a, (ledger dir seg).acked ≤ a ∧ a ≤ (ledger dir seg).sent ∧
              p = a % (SEQ_MAX + 1) := by
  obtain ⟨c₀, pre, z, seg, hchronicle, hz, hseg, hcall⟩ := exists_segment hrun hc hs
  obtain ⟨m, m', -, hzero, hstep, hquiet⟩ := segment_of_run hchronicle.isNewCall hcall hz hseg
  obtain ⟨rs, hflow, hledger⟩ := exists_flow_run hquiet hs
  have hwindow := window_of_flow_run hflow
  have hstart : FlowStart m' :=
    { state := state_of_zeroPoint hstep hz
      xps := hzero.xps, xpr := hzero.xpr, yps := hzero.yps, ypr := hzero.ypr
      window_min := hwindow ▸ hmin
      window_max := hwindow ▸ hmax }
  have hI := flowInv_of_run hstart hflow
  have hk : m'.window + 1 ≤ SEQ_MAX := by
    have hle := hstart.window_max
    simp only [WINDOW_MAX, SEQ_MAX] at hle ⊢
    omega
  refine ⟨c₀, pre, z, seg, hchronicle, hz, hseg, fun dir => ?_⟩
  rw [← hledger dir, hwindow]
  refine ⟨(hI.within dir).le, (hI.within dir).outstanding_le, fun p hp => ?_⟩
  rw [Channel.selfPr_not, Channel.otherPs_not]
  exact hI.pr_in_range_iff hk hp dir

/-- The data of `A` is the first on its call, and is not acknowledged yet. -/
theorem acknowledges_forwarded_AB : ∃ ts b c c₀ pre z seg,
    brokerSystem.traced.Run .start ts b ∧ b.channels.get? 1 = some c ∧
      Chronicle 1 ts c₀ (pre ++ z :: seg) ∧ (ledger false seg).outstanding ≤ c.window + 1 := by
  obtain ⟨ts, b, b', o, hrun, hstep, -, c, hc, hs, hmin, hmax⟩ := run_callAB
  have hrun' : brokerSystem.traced.Run .start (ts ++ [(b, .recv dataAB quietEnv [o])]) b' :=
    hrun.append (.single ⟨rfl, hstep⟩)
  obtain ⟨c₀, pre, z, seg, hchronicle, -, -, hdirs⟩ :=
    acknowledges_forwarded hrun' hc hs hmin hmax
  exact ⟨_, b', c, c₀, pre, z, seg, hrun', hc, hchronicle, (hdirs false).2.1⟩

end Broker
end Jozabad
