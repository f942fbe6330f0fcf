import Jozabad.Broker.FlowControl
import Mathlib.Data.List.Range

/-!
# Data is forwarded in order and at most once

The counters of a call are zeroed when the call is accepted and whenever a reset is
confirmed (`ZeroPoint`). Between two such points the data that the broker forwards in
one direction is a subsequence of the data that the sender sent, each message at most
once and unchanged, and its numbers are `0, 1, …, SEQ_MAX, 0, 1, …` without a gap
(`forwarding_in_order`).

The invariant behind this (`ForwardInv`) relates the data forwarded since the zero
point to the channel: in data transfer the number expected next from a side is the
count of its forwarded packets, modulo `SEQ_MAX + 1`.
-/

namespace Jozabad
namespace Broker

open JozaMsg

/-! ### What is read off a conversation -/

/-- The data that the broker forwarded from side `dir`. -/
def forwarded (dir : Bool) (rs : List Receipt) : List JozaMsg :=
  rs.flatMap fun r => if r.isY = dir then r.outs.filter (·.id = .data) else []

/-- The data that side `dir` sent. -/
def sentData (dir : Bool) (rs : List Receipt) : List JozaMsg :=
  (rs.filter fun r => r.isY = dir ∧ r.msg.id = .data).map (·.msg)

/-- What a `DATA` message carries. -/
def payload (m : JozaMsg) : UInt8 × UInt16 × UInt16 × Frame :=
  (m.q, m.pr, m.ps, m.data)

/-- The counters are set to zero: a `CALL_ACCEPTED` or a `RESET_CONFIRMATION` is
forwarded. -/
def ZeroPoint (r : Receipt) : Prop :=
  ∃ o ∈ r.outs, o.id = .callAccepted ∨ o.id = .resetConfirmation

instance (r : Receipt) : Decidable (ZeroPoint r) :=
  inferInstanceAs (Decidable (∃ o ∈ r.outs, _))

variable {c c' c₀ : Channel} {r : Receipt} {rs seg : List Receipt} {dir isY : Bool}
  {sock : Sock} {M : JozaMsg} {outs : List JozaMsg}

theorem forwarded_snoc : forwarded dir (rs ++ [r]) =
    forwarded dir rs ++ if r.isY = dir then r.outs.filter (·.id = .data) else [] := by
  simp [forwarded]

theorem sentData_snoc : sentData dir (rs ++ [r]) =
    sentData dir rs ++ if r.isY = dir ∧ r.msg.id = .data then [r.msg] else [] := by
  unfold sentData
  rw [List.filter_append, List.map_append]
  by_cases h : r.isY = dir ∧ r.msg.id = .data <;> simp [h]

/-! ### Zero points -/

/-- All four counters are zero. -/
structure AllZero (c : Channel) : Prop where
  xps : c.xps = 0
  xpr : c.xpr = 0
  yps : c.yps = 0
  ypr : c.ypr = 0

theorem AllZero.selfPs (h : AllZero c) : c.selfPs isY = 0 := by
  cases isY
  · exact h.xps
  · exact h.yps

/-- Until the call is accepted its counters are zero. -/
def ZeroUntilAccepted (c : Channel) : Prop :=
  c.state = .xCallRequest ∨ c.state = .callCollision → AllZero c

theorem ZeroUntilAccepted.effect (hI : ZeroUntilAccepted c) (h : Effect c sock M isY c' outs) :
    ZeroUntilAccepted c' := by
  intro hs'
  cases h with
  | discard | refused => exact hI hs'
  -- The call still waits, and its counters are not written.
  | collision _ _ hs =>
    have hzero := hI (.inl hs)
    exact ⟨hzero.xps, hzero.xpr, hzero.yps, hzero.ypr⟩
  -- These do not lead to a state of the setup.
  | reset | clear | disconnect | disconnectFailed => rcases hs' with hs' | hs' <;> cases hs'
  | accepted | clearConfirmed | resetConfirmed => rcases hs' with hs' | hs' <;> cases hs'
  | clearRequested => cases isY <;> rcases hs' with hs' | hs' <;> cases hs'
  | data _ hs | rr _ hs | rnr _ hs =>
    rw [Channel.setSelf_state, hs] at hs'
    rcases hs' with hs' | hs' <;> cases hs'
  | resetRequested => exact hI hs'

theorem zeroUntilAccepted_of_run (hnew : IsNewCall c₀) (hrun : callSystem.Run c₀ rs c) :
    ZeroUntilAccepted c := by
  obtain ⟨-, hxps, hxpr, hyps, hypr⟩ := hnew.counters
  refine Lts.Run.preserves ZeroUntilAccepted (fun _ => ⟨hxps, hxpr, hyps, hypr⟩) ?_ hrun
  intro c r c' hI hstep
  rcases callSystem_step_cases hstep with ⟨-, rfl, -⟩ | ⟨-, heff⟩
  · exact hI
  · exact hI.effect heff

/-- Right after a zero point the counters are zero. -/
theorem allZero_of_zeroPoint (hI : ZeroUntilAccepted c) (hstep : callSystem.Step c r c')
    (hz : ZeroPoint r) : AllZero c' := by
  obtain ⟨o, ho, hid⟩ := hz
  -- Of what a step sends, only two messages are of this kind.
  rcases callSystem_step_cases hstep with ⟨-, -, houts⟩ | ⟨-, heff⟩
  · rw [houts, List.mem_singleton] at ho
    subst ho
    rcases hid with hid | hid <;> cases hid
  · generalize r.outs = outs at ho heff
    cases heff with
    | accepted _ _ hs =>
      -- An acceptance leaves the counters alone, but before it they are zero.
      have hzero := hI hs
      exact ⟨hzero.xps, hzero.xpr, hzero.yps, hzero.ypr⟩
    | resetConfirmed => exact ⟨rfl, rfl, rfl, rfl⟩
    | discard => cases ho
    | reset | clear | disconnectFailed =>
      simp only [List.mem_cons, List.not_mem_nil, or_false] at ho
      rcases ho with rfl | rfl <;> rcases hid with hid | hid <;> cases hid
    | disconnect | refused | collision | clearRequested | clearConfirmed | data | rr | rnr
        | resetRequested =>
      rw [List.mem_singleton] at ho
      subst ho
      rcases hid with hid | hid <;> cases hid

/-! ### The invariant between zero points -/

/-- The data forwarded in one direction since the last zero point. -/
structure ForwardInv (c₀ : Channel) (seg : List Receipt) (c : Channel) : Prop where
  sameCall : SameCall c₀ c
  next : c.state = .dataTransfer → ∀ dir, c.selfPs dir = (forwarded dir seg).length % (SEQ_MAX + 1)
  numbers : ∀ dir, (forwarded dir seg).map (·.ps.toNat) =
    (List.range (forwarded dir seg).length).map (· % (SEQ_MAX + 1))
  sublist : ∀ dir, ((forwarded dir seg).map payload).Sublist ((sentData dir seg).map payload)
  address : ∀ dir, ∀ o ∈ forwarded dir seg, o.address = c₀.otherZaddr dir

namespace ForwardInv

theorem start (hcall : SameCall c₀ c) (h : AllZero c) : ForwardInv c₀ [] c where
  sameCall := hcall
  next _ dir := by rw [h.selfPs]; rfl
  numbers _ := rfl
  sublist _ := List.Sublist.slnil
  address _ _ ho := absurd ho List.not_mem_nil

/-- A step that forwards no data keeps the invariant, as long as it does not bring the
call into data transfer. -/
theorem silent (hI : ForwardInv c₀ seg c) (hcall : SameCall c c')
    (hsilent : r.outs.filter (·.id = .data) = [])
    (hnext : c'.state = .dataTransfer → c.state = .dataTransfer ∧
      ∀ dir, c'.selfPs dir = c.selfPs dir) : ForwardInv c₀ (seg ++ [r]) c' := by
  -- The record of what is forwarded does not change.
  have hforwarded : ∀ dir, forwarded dir (seg ++ [r]) = forwarded dir seg := by
    intro dir
    rw [forwarded_snoc, hsilent, ite_self, List.append_nil]
  refine ⟨hI.sameCall.trans hcall, fun hs dir => ?_, fun dir => ?_, fun dir => ?_, fun dir => ?_⟩
  · rw [hforwarded, (hnext hs).2]
    exact hI.next (hnext hs).1 dir
  · rw [hforwarded]
    exact hI.numbers dir
  · rw [hforwarded, sentData_snoc, List.map_append]
    exact (hI.sublist dir).trans (List.sublist_append_left _ _)
  · rw [hforwarded]
    exact hI.address dir

/-- Forwarding the packet that is expected next keeps the invariant. -/
theorem forward (hI : ForwardInv c₀ seg c) (hid : r.msg.id = .data) (hs : c.state = .dataTransfer)
    (hps : r.msg.ps.toNat = c.selfPs r.isY)
    (houts : r.outs =
      [sendAddrData (c.otherZaddr r.isY) r.msg.q r.msg.pr r.msg.ps r.msg.data]) :
    ForwardInv c₀ (seg ++ [r])
      (c.setSelf r.isY ((c.selfPs r.isY + 1) % (SEQ_MAX + 1)) r.msg.pr.toNat) := by
  -- What the step adds to the record, on either side.
  have hself : forwarded r.isY (seg ++ [r]) = forwarded r.isY seg ++
      [sendAddrData (c.otherZaddr r.isY) r.msg.q r.msg.pr r.msg.ps r.msg.data] := by
    rw [forwarded_snoc, if_pos rfl, houts]
    rfl
  have hother : forwarded (!r.isY) (seg ++ [r]) = forwarded (!r.isY) seg := by
    rw [forwarded_snoc, if_neg (by simp), List.append_nil]
  have hsent : sentData r.isY (seg ++ [r]) = sentData r.isY seg ++ [r.msg] := by
    rw [sentData_snoc, if_pos ⟨rfl, hid⟩]
  have hsent' : sentData (!r.isY) (seg ++ [r]) = sentData (!r.isY) seg := by
    rw [sentData_snoc, if_neg (by simp), List.append_nil]
  have hnext := hI.next hs
  refine ⟨hI.sameCall.trans ⟨by simp, by simp, by simp, by simp, by simp⟩, fun _ dir => ?_,
    fun dir => ?_, fun dir => ?_, fun dir => ?_⟩
  · -- The counter: that of the sender has moved on by one, modulo eight.
    rcases Bool.eq_or_eq_not dir r.isY with rfl | rfl
    · rw [hself, Channel.setSelf_selfPs, hnext, List.length_append, List.length_singleton,
        Nat.mod_add_mod]
    · rw [hother, Channel.selfPs_not, Channel.setSelf_otherPs, ← Channel.selfPs_not, hnext]
  · -- The numbers: the new packet has the number that was expected.
    rcases Bool.eq_or_eq_not dir r.isY with rfl | rfl
    · rw [hself, List.map_append, hI.numbers, List.length_append, List.length_singleton,
        List.range_succ, List.map_append, List.map_singleton, List.map_singleton, ← hnext, ← hps]
      rfl
    · rw [hother]
      exact hI.numbers _
  · -- What is forwarded is still a part of what was sent, in its order.
    rcases Bool.eq_or_eq_not dir r.isY with rfl | rfl
    · rw [hself, hsent, List.map_append, List.map_append]
      exact (hI.sublist r.isY).append (List.Sublist.refl _)
    · rw [hother, hsent']
      exact hI.sublist _
  · -- The packet has gone to the other side.
    rcases Bool.eq_or_eq_not dir r.isY with rfl | rfl
    · rw [hself, List.forall_mem_append, List.forall_mem_singleton]
      exact ⟨hI.address _, hI.sameCall.otherZaddr⟩
    · rw [hother]
      exact hI.address _

/-- **One step** between zero points. -/
theorem step (hI : ForwardInv c₀ seg c) (hstep : callSystem.Step c r c') (hz : ¬ ZeroPoint r) :
    ForwardInv c₀ (seg ++ [r]) c' := by
  rcases callSystem_step_cases hstep with ⟨-, rfl, houts⟩ | ⟨-, heff⟩
  · exact hI.silent (.refl _) (by rw [houts]; rfl) fun hs => ⟨hs, fun _ => rfl⟩
  have hcall := heff.sameCall
  generalize houts : r.outs = outs at heff
  cases heff with
  | data hid hs hM => exact hI.forward hid hs hM.ps_eq houts
  | discard | refused | resetRequested =>
    -- Nothing is forwarded, and the state and the counters are as they were.
    exact hI.silent hcall (by rw [houts]; rfl) fun hs => ⟨hs, fun _ => rfl⟩
  | reset | clear | disconnect | disconnectFailed | collision | clearConfirmed =>
    -- Nothing is forwarded, and the call leaves data transfer.
    exact hI.silent hcall (by rw [houts]; rfl) fun hs => by cases hs
  | clearRequested =>
    refine hI.silent hcall (by rw [houts]; rfl) fun hs => ?_
    unfold STATE_CLEAR_REQUEST at hs
    split_ifs at hs
  | rr _ hs | rnr _ hs =>
    -- An acknowledgement sets `pr` only, and the numbers are those of `ps`.
    refine hI.silent hcall (by rw [houts]; rfl) fun _ => ⟨hs, fun dir => ?_⟩
    rcases Bool.eq_or_eq_not dir r.isY with rfl | rfl <;> simp
  | accepted | resetConfirmed =>
    -- Here the counters start again, which the segment excludes.
    refine absurd ?_ hz
    unfold ZeroPoint
    rw [houts]
    exact ⟨_, List.mem_singleton_self _, by simp [sendAddrCallAccepted, sendAddrResetConfirmation]⟩

end ForwardInv

/-! ### The law -/

/-- Data received in data transfer is forwarded to the peer, and the next number
expected from its sender moves on by one, or its sender is told that it is not
acceptable, and nothing changes. -/
theorem data_answered (hstep : callSystem.Step c r c') (hs : c.state = .dataTransfer)
    (hid : r.msg.id = .data) :
    (r.outs = [sendAddrData (c.otherZaddr r.isY) r.msg.q r.msg.pr r.msg.ps r.msg.data] ∧
        c'.selfPs r.isY = (c.selfPs r.isY + 1) % (SEQ_MAX + 1)) ∨
      ∃ A C D, r.outs = [diagnostic A C D] ∧ (A = r.msg.address ∨ A = c.selfZaddr r.isY) ∧
        c' = c := by
  rcases callSystem_step_cases hstep with ⟨-, hc, houts⟩ | ⟨-, heff⟩
  · exact .inr ⟨_, _, _, houts, .inl rfl, hc⟩
  rcases flow_cases hs (.inl hid) heff with
    ⟨hc, C, D, houts⟩ | ⟨-, -, rfl, houts⟩ | ⟨hne, -⟩
  · exact .inr ⟨_, _, _, houts, .inr rfl, hc⟩
  · exact .inl ⟨houts, Channel.setSelf_selfPs⟩
  · exact absurd hid hne

/-- **In order and at most once.** In every run of a call, between two zero points, the
data forwarded in either direction is a subsequence of the data sent, unchanged, to the
other worker, and its numbers go round without a gap. In every state of data transfer,
data is either forwarded or refused without effect. -/
theorem forwarding_in_order {c₀ c : Channel} {rs : List Receipt} (hnew : IsNewCall c₀)
    (hrun : callSystem.Run c₀ rs c) :
    (∀ pre z seg post, rs = pre ++ z :: (seg ++ post) → ZeroPoint z →
      (∀ r ∈ seg, ¬ ZeroPoint r) → ∀ dir,
        ((forwarded dir seg).map payload).Sublist ((sentData dir seg).map payload) ∧
          (forwarded dir seg).map (·.ps.toNat) =
            (List.range (forwarded dir seg).length).map (· % (SEQ_MAX + 1)) ∧
          ∀ o ∈ forwarded dir seg, o.address = c₀.otherZaddr dir) ∧
      ∀ r c', callSystem.Step c r c' → c.state = .dataTransfer → r.msg.id = .data →
        (r.outs = [sendAddrData (c.otherZaddr r.isY) r.msg.q r.msg.pr r.msg.ps r.msg.data] ∧
            c'.selfPs r.isY = (c.selfPs r.isY + 1) % (SEQ_MAX + 1)) ∨
          ∃ A C D, r.outs = [diagnostic A C D] ∧ (A = r.msg.address ∨ A = c.selfZaddr r.isY) ∧
            c' = c := by
  refine ⟨?_, fun r c' hstep hs hid => data_answered hstep hs hid⟩
  rintro pre z seg post rfl hz hseg dir
  obtain ⟨m, hpre, hrest⟩ := hrun.split
  cases hrest with
  | @cons _ _ m' _ _ hstep hrest =>
    obtain ⟨c₁, hrun₁, -⟩ := hrest.split
    -- The segment starts in a channel of this call, with all counters at zero.
    have hcall : SameCall c₀ m' := (sameCall_of_run hpre).trans (sameCall_of_step hstep)
    have hzero := allZero_of_zeroPoint (zeroUntilAccepted_of_run hnew hpre) hstep hz
    have hstart := ForwardInv.start hcall hzero
    have hquiet : (callSystem.restrict fun _ r => ¬ ZeroPoint r).Run m' seg c₁ :=
      hrun₁.restrict fun r hr _ => hseg r hr
    have hI := hquiet.history (ForwardInv c₀) hstart
      fun _ c r c' hI (hs : ¬ ZeroPoint r ∧ callSystem.Step c r c') => hI.step hs.2 hs.1
    exact ⟨hI.sublist dir, hI.numbers dir, hI.address dir⟩

/-- A call that Y accepts and over which X sends two packets. -/
theorem forwarding_in_order_newCall : ∃ c z seg,
    replay newCall [acceptNewCall, xData 0, xData 1] = .ok (c, z :: seg) ∧
      (forwarded false seg).map (·.ps.toNat) =
        (List.range (forwarded false seg).length).map (· % (SEQ_MAX + 1)) := by
  have hshape : ((replay newCall [acceptNewCall, xData 0, xData 1]).toOption.map fun p =>
      (p.2.map fun r => decide (ZeroPoint r))) = some [true, false, false] := by decide +kernel
  obtain ⟨⟨c, rs⟩, hreplay, hrs⟩ := toOption_map_eq_some hshape
  cases rs with
  | nil => cases hrs
  | cons z seg =>
    rw [List.map_cons, List.cons.injEq, decide_eq_true_eq] at hrs
    have hseg : ∀ r ∈ seg, ¬ ZeroPoint r := by
      intro r hr
      have hmem : decide (ZeroPoint r) ∈ [false, false] := hrs.2 ▸ List.mem_map_of_mem hr
      simpa using hmem
    have hrun := replay_run hreplay
    exact ⟨c, z, seg, hreplay, ((forwarding_in_order newCall_isNewCall hrun).1 [] z seg []
      (by simp) hrs.1 hseg false).2.1⟩

end Broker
end Jozabad
