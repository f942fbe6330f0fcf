import Jozabad.Application10.Completion
import Jozabad.Application10.FlowControl

/-!
# Which packets a channel accepts

A channel in data transfer is to accept a packet that fits the packet size, has the number that
comes next, lies in the window, and acknowledges what the peer has sent (`Admissible`). All
numbers are taken on the circle from 0 to `SEQ_MAX`. Any other packet is to reset both sides.

The code compares with `Passes` instead. It takes a full packet for too long, and it puts the
end of the window on the circle that leaves out `SEQ_MAX`, so that the range check may let one
number more through. A range that wraps has all numbers beyond the circle as well. The counter
of the packets returns to 0 one number too early.

* `passes_iff`: the checks of the code.
* `data_acceptance`: when a packet is dealt with as it should be (`DataAsMeant`).
* `data_full_refused`: a packet of the full size resets the call.
-/

namespace Jozabad
namespace Application10

open Cyclic

/-! ### The rule -/

/-- The window, the packet size and the counters of the channel are in range. -/
structure JzChannel.InRange (X : JzChannel) : Prop where
  window : seqRngchk X.window.toNat = 0
  packet : packetRngchk X.packet.toNat = 0
  clientPs : seqRngchk X.clientPs.toNat = 0
  clientPr : seqRngchk X.clientPr.toNat = 0
  peerPs : seqRngchk X.peerPs.toNat = 0
  peerPr : seqRngchk X.peerPr.toNat = 0

/-- Steps forward in the sequence space. -/
def seqDist (lo x : UInt16) : ℕ :=
  dist (SEQ_MAX + 1) lo.toNat x.toNat

/-- **A packet that is to be accepted.** -/
structure Admissible (X : JzChannel) (msg : JzMsg) : Prop where
  packet : ∃ n, packetBytes X.packet.toNat = .ok n ∧ msg.data.length ≤ n
  nonempty : 1 ≤ msg.data.length
  next : msg.ps = X.clientPs
  window : seqDist X.peerPr msg.ps < X.window.toNat
  valid : seqRngchk msg.pr.toNat = 0
  pr : seqDist X.clientPr msg.pr ≤ seqDist X.clientPr X.peerPs

/-- **A packet that the code accepts.** -/
structure Passes (X : JzChannel) (msg : JzMsg) : Prop where
  packet : ∃ n, packetBytes X.packet.toNat = .ok n ∧ msg.data.length < n
  nonempty : 1 ≤ msg.data.length
  next : msg.ps = X.clientPs
  /-- The window has one number more where it wraps, and all numbers if it is empty. -/
  window : seqDist X.peerPr msg.ps < X.window.toNat ∨ X.window.toNat = 0 ∨
    (seqDist X.peerPr msg.ps = X.window.toNat ∧ SEQ_MAX < X.peerPr.toNat + X.window.toNat)
  /-- A range that wraps has all numbers above `SEQ_MAX`. -/
  pr : (seqRngchk msg.pr.toNat = 0 ∧ seqDist X.clientPr msg.pr ≤ seqDist X.clientPr X.peerPs) ∨
    (seqRngchk msg.pr.toNat ≠ 0 ∧ X.peerPs < X.clientPr)

/-- The channels have the same counters. -/
structure SameCounters (X X' : JzChannel) : Prop where
  clientPs : X'.clientPs = X.clientPs
  clientPr : X'.clientPr = X.clientPr
  peerPs : X'.peerPs = X.peerPs
  peerPr : X'.peerPr = X.peerPr

/-- The channel at `x` has counted the packet and its acknowledgement, and stays in data
transfer. -/
def Counted (x : ℕ) (X : JzChannel) (msg : JzMsg) (σ' : Server) : Prop :=
  ∃ X', σ'.heap.get? x = some X' ∧ X'.state = .d1FlowControlReady ∧
    X'.clientPs.toNat = (X.clientPs.toNat + 1) % (SEQ_MAX + 1) ∧ X'.clientPr = msg.pr

/-- The channel `Z` at `z` has been put through a reset and has kept its counters. -/
structure PutThroughReset (z : ℕ) (Z : JzChannel) (σ σ' : Server) : Prop where
  channel : ∃ Z', σ'.heap.get? z = some Z' ∧ Z'.state = .d3ServerResetIndication ∧
    SameCounters Z Z'
  told : ∃ new, σ'.sent = σ.sent ++ new ∧
    ∃ s ∈ new, s.client = Z.parent ∧ s.channel = some z ∧ s.msg.id = .resetRequest

/-- Both sides of the call have been put through a reset. -/
def CallReset (x : ℕ) (X : JzChannel) (σ σ' : Server) : Prop :=
  PutThroughReset x X σ σ' ∧
    ∀ y, X.peer = some y → ∃ Y, σ.heap.get? y = some Y ∧ PutThroughReset y Y σ σ'

/-- **The packet is dealt with as it should be.** -/
def DealtWith (now x : ℕ) (X : JzChannel) (msg : JzMsg) (σ : Server) : Prop :=
  ∃ σ', jzChannelDoClientData now x msg σ = .ok σ' ∧
    (Admissible X msg → Counted x X msg σ') ∧ (¬ Admissible X msg → CallReset x X σ σ')

/-- The peer at `y` does not stop the server over the packet. A peer in data transfer takes it,
and any other leaves it aside. -/
def Server.PassesOn (σ : Server) (msg : JzMsg) (y : ℕ) : Prop :=
  ∃ Y, σ.heap.get? y = some Y ∧ σ.Linked Y ∧
    (Y.state = .d1FlowControlReady → TakesData Y msg ∧ σ.Named Y.parent)

/-- The peer at `y` is in data transfer as well, and can be reset. -/
def Server.Resettable (σ : Server) (y : ℕ) : Prop :=
  ∃ Y, σ.heap.get? y = some Y ∧ σ.Linked Y ∧ Y.state = .d1FlowControlReady ∧ σ.Named Y.parent

/-- **When the code does as it should.** -/
inductive DataAsMeant (σ : Server) (X : JzChannel) (msg : JzMsg) : Prop
  /-- The packet is not full, and the number that comes next is the same on both circles. -/
  | accepted (hadmissible : Admissible X msg)
      (hshort : ∃ n, packetBytes X.packet.toNat = .ok n ∧ msg.data.length < n)
      (hnext : X.clientPs.toNat + 1 < SEQ_MAX) (hpeer : ∀ y, X.peer = some y → σ.PassesOn msg y)
  /-- The code refuses the packet too. -/
  | rejected (hnot : ¬ Admissible X msg) (hrefused : ¬ Passes X msg) (hname : σ.Named X.parent)
      (hpeer : ∀ y, X.peer = some y → σ.Resettable y)

section

variable {σ σ' : Server} {now x y : ℕ} {X X' Y Y' : JzChannel} {msg : JzMsg}

/-! ### The range checks -/

theorem seqRngchk_eq_zero {n : ℕ} : seqRngchk n = 0 ↔ n ≤ SEQ_MAX := by
  unfold seqRngchk
  split_ifs with h
  · exact iff_of_false (by decide) (by omega)
  · exact iff_of_true rfl (by omega)

theorem windowEnd_zero (pr : ℕ) :
    windowEnd pr 0 = if pr = 0 then 2 ^ 16 - 1 else (pr - 1) % SEQ_MAX := by
  split_ifs with h
  · subst h
    rfl
  · have hcast : (pr : ℤ) + (0 : ℕ) - 1 = ((pr - 1 : ℕ) : ℤ) := by omega
    rw [windowEnd, hcast, Int.tmod_eq_emod_of_nonneg (by omega)]
    simp only [SEQ_MAX]
    omega

/-- **The window check** of the code, where both ends are numbers of the circle. -/
theorem windowCheck_iff {ps pr w : ℕ} (hps : ps ≤ SEQ_MAX) (hpr : pr ≤ SEQ_MAX) (hw : w ≤ SEQ_MAX) :
    seqInRange ps pr (windowEnd pr w) = true ↔
      dist (SEQ_MAX + 1) pr ps < w ∨ w = 0 ∨
        (dist (SEQ_MAX + 1) pr ps = w ∧ SEQ_MAX < pr + w) := by
  obtain rfl | hpos := Nat.eq_zero_or_pos w
  · rw [windowEnd_zero]
    simp only [SEQ_MAX] at *
    unfold seqInRange
    split_ifs <;> simp <;> omega
  · rw [windowEnd_of_pos hpos]
    simp only [SEQ_MAX] at *
    unfold seqInRange Cyclic.dist
    split_ifs <;> simp <;> omega

/-- **The check of an acknowledgement.** -/
theorem prCheck_iff {p lo hi : ℕ} (hlo : lo ≤ SEQ_MAX) (hhi : hi ≤ SEQ_MAX) :
    seqInRange p lo hi = true ↔
      (p ≤ SEQ_MAX ∧ dist (SEQ_MAX + 1) lo p ≤ dist (SEQ_MAX + 1) lo hi) ∨
        (SEQ_MAX < p ∧ hi < lo) := by
  by_cases hp : p ≤ SEQ_MAX
  · rw [seqInRange_iff_dist (n := SEQ_MAX + 1) (by omega) (by omega) (by omega)]
    simp only [hp, true_and, not_lt.2 hp, false_and, or_false]
  · simp only [hp, false_and, false_or, not_le.1 hp, true_and]
    unfold seqInRange
    split_ifs <;> simp <;> omega

/-- **The checks of the code.** -/
theorem passes_iff (hX : X.InRange) : Passes X msg ↔ clientDataError X msg = .ok none := by
  obtain ⟨hwindow, -, hclientPs, hclientPr, hpeerPs, hpeerPr⟩ := hX
  rw [seqRngchk_eq_zero] at hwindow hclientPs hclientPr hpeerPs hpeerPr
  have hpr : ((seqRngchk msg.pr.toNat = 0 ∧ seqDist X.clientPr msg.pr ≤
      seqDist X.clientPr X.peerPs) ∨ (seqRngchk msg.pr.toNat ≠ 0 ∧ X.peerPs < X.clientPr)) ↔
      seqInRange msg.pr.toNat X.clientPr.toNat X.peerPs.toNat = true := by
    rw [prCheck_iff hclientPr hpeerPs, Ne, seqRngchk_eq_zero, not_le, UInt16.lt_iff_toNat_lt]
    rfl
  constructor
  · rintro ⟨⟨n, hn, hlt⟩, hnonempty, hnext, hin, hack⟩
    refine clientDataError_of hn hlt (Nat.one_le_iff_ne_zero.1 hnonempty) hnext ?_ (hpr.1 hack)
    exact (windowCheck_iff (hnext ▸ hclientPs) hpeerPr hwindow).2 hin
  · intro h
    obtain ⟨hshort, hnonempty, hnext, hin, hack⟩ := clientDataError_eq_none h
    exact ⟨hshort, Nat.one_le_iff_ne_zero.2 hnonempty, hnext,
      (windowCheck_iff (hnext ▸ hclientPs) hpeerPr hwindow).1 hin, hpr.2 hack⟩

/-- The code refuses full packets only of those that are to be accepted. -/
theorem Admissible.passes_iff (h : Admissible X msg) :
    Passes X msg ↔ ∃ n, packetBytes X.packet.toNat = .ok n ∧ msg.data.length < n :=
  ⟨fun hpasses => hpasses.packet,
    fun hshort => ⟨hshort, h.nonempty, h.next, .inl h.window, .inl ⟨h.valid, h.pr⟩⟩⟩

/-- What is wrong with a packet that is not accepted. -/
theorem exists_error (hX : X.InRange) (h : ¬ Passes X msg) :
    ∃ diagnostic, clientDataError X msg = .ok (some diagnostic) := by
  rw [passes_iff hX] at h
  cases herr : clientDataError X msg with
  | error e => exact absurd herr (clientDataError_ne hX.packet e)
  | ok err =>
    cases err with
    | none => exact absurd herr h
    | some diagnostic => exact ⟨diagnostic, rfl⟩

/-- The counter of the packets is right as long as it does not wrap. -/
theorem nextPs_iff (hps : X.clientPs.toNat ≤ SEQ_MAX) :
    (X.accepting msg).clientPs.toNat = (X.clientPs.toNat + 1) % (SEQ_MAX + 1) ↔
      X.clientPs.toNat + 1 < SEQ_MAX := by
  have hlt : (X.clientPs.toNat + 1) % SEQ_MAX < UInt16.size :=
    (Nat.mod_lt _ (by decide)).trans (by decide)
  change (UInt16.ofNat ((X.clientPs.toNat + 1) % SEQ_MAX)).toNat = _ ↔ _
  rw [UInt16.toNat_ofNat_of_lt' hlt]
  simp only [SEQ_MAX] at *
  omega

/-! ### An accepted packet -/

theorem doClientData_of_passes (hX : σ.heap.get? x = some X)
    (hvalid : clientDataError X msg = .ok none) : jzChannelDoClientData now x msg σ =
      X.toPeer now (dataFor msg) (σ.setChannel x (X.accepting msg)) :=
  bind_of_eq_ok (channel_of_get hX) (bind_of_eq_ok hvalid (bind_of_eq_ok (update_of_get hX) rfl))

/-- **The peer is told of a packet** without a fault. -/
theorem tellData_iff (hσ : σ.Homed) (hY : σ.heap.get? y = some Y) (hlength : msg.data.length ≠ 0) :
    (∃ σ', jzChannelProcessServerMessage now y (dataFor msg Y) σ = .ok σ') ↔
      σ.Linked Y ∧ (Y.state = .d1FlowControlReady → TakesData Y msg ∧ σ.Named Y.parent) := by
  simp only [processServerMessage_eq_ok_iff hσ hY]
  by_cases hs : Y.state = .d1FlowControlReady
  · constructor
    · rintro ⟨σ', Y', out, hstate, hname, hlinked, rfl⟩
      have htold := (processServerMessage_eq_ok_iff hσ hY).2
        ⟨Y', out, hstate, hname, hlinked, rfl⟩
      obtain ⟨rfl, rfl⟩ := (inState_effect hstate).takes_data hs
      exact ⟨hlinked, fun _ => takes_of_processServerMessage hY hs htold⟩
    · rintro ⟨hlinked, htakes⟩
      obtain ⟨htakes, hname⟩ := htakes hs
      exact ⟨_, _, _, inState_of_takes hs htakes hlength, fun _ => hname, hlinked, rfl⟩
  · constructor
    · rintro ⟨σ', Y', out, hstate, hname, hlinked, rfl⟩
      obtain ⟨rfl, rfl⟩ := (inState_effect hstate).leaves_data hs
      exact ⟨hlinked, fun hs' => absurd hs' hs⟩
    · rintro ⟨hlinked, -⟩
      obtain ⟨Y', out, hstate⟩ :
          ∃ Y' out, jzChannelProcessServerMessageInState now Y (dataFor msg Y) = .ok (Y', out) :=
        exists_inState fun hs' => absurd hs' hs
      obtain ⟨rfl, rfl⟩ := (inState_effect hstate).leaves_data hs
      exact ⟨_, _, _, hstate, fun h => (by cases h), hlinked, rfl⟩

/-- **A packet that passes the checks** is counted, and the peer must not stop the server. -/
theorem passed_iff (hσ : σ.Registered) (hX : σ.heap.get? x = some X)
    (hlength : msg.data.length ≠ 0) :
    (∃ σ', X.toPeer now (dataFor msg) (σ.setChannel x (X.accepting msg)) = .ok σ') ↔
      ∀ y, X.peer = some y → σ.PassesOn msg y := by
  have hhomed : (σ.setChannel x (X.accepting msg)).Homed := hσ.homed.setChannel hX rfl
  have hget {y : ℕ} (hy : X.peer = some y) :
      (σ.setChannel x (X.accepting msg)).heap.get? y = σ.heap.get? y :=
    get_setChannel_of_ne (hσ.ne_of_peer hX hy).symm
  simp only [toPeer_eq_ok_iff]
  constructor
  · rintro ⟨σ', ⟨hnone, -⟩ | ⟨z, Y, hz, hY, htold⟩⟩ y hy
    · rw [hnone] at hy
      cases hy
    · obtain rfl : z = y := Option.some.inj (hz.symm.trans hy)
      obtain ⟨hlinked, htakes⟩ := (tellData_iff hhomed hY hlength).1 ⟨σ', htold⟩
      exact ⟨Y, (hget hy).symm.trans hY, linked_setChannel.1 hlinked, htakes⟩
  · intro h
    cases hpeer : X.peer with
    | none => exact ⟨_, .inl ⟨rfl, rfl⟩⟩
    | some y =>
      obtain ⟨Y, hY, hlinked, htakes⟩ := h y hpeer
      have hY₁ := (hget hpeer).trans hY
      obtain ⟨σ', htold⟩ := (tellData_iff hhomed hY₁ hlength).2
        ⟨linked_setChannel.2 hlinked, htakes⟩
      exact ⟨σ', .inr ⟨y, Y, rfl, hY₁, htold⟩⟩

/-- The peer does not touch the channel. -/
theorem get_of_toPeer {f : JzChannel → JzMsg} (hne : X.peer ≠ some x)
    (h : X.toPeer now f σ = .ok σ') : σ'.heap.get? x = σ.heap.get? x := by
  obtain ⟨-, rfl⟩ | ⟨y, Y, hy, -, h⟩ := toPeer_eq_ok_iff.1 h
  · rfl
  · obtain ⟨Y₀, Y', out, -, -, rfl⟩ := processServerMessage_eq_ok h
    refine get_setChannel_of_ne ?_
    rintro rfl
    exact hne hy

/-! ### A refused packet -/

/-- The server after the channel `Z` at `z` has been reset, and its client has been told. -/
def Server.resettingAt (σ : Server) (now z : ℕ) (Z : JzChannel) (m : JzMsg) : Server :=
  { σ.setChannel z (Z.resetting now) with sent := σ.sent ++ [⟨Z.parent, some z, m⟩] }

/-- **A reset by the server** of a channel in data transfer. -/
theorem tellReset_iff {z : ℕ} {Z : JzChannel} {lcn : UInt16} {cause diagnostic : UInt8}
    (hσ : σ.Homed) (hZ : σ.heap.get? z = some Z) (hs : Z.state = .d1FlowControlReady) :
    jzChannelProcessServerMessage now z (jzMsgNewResetRequest lcn cause diagnostic) σ = .ok σ' ↔
      σ.Named Z.parent ∧ σ.Linked Z ∧
        σ' = σ.resettingAt now z Z (jzMsgNewResetRequest lcn cause diagnostic) := by
  have hstate : jzChannelProcessServerMessageInState now Z
      (jzMsgNewResetRequest lcn cause diagnostic) =
      .ok (Z.resetting now, some (jzMsgNewResetRequest lcn cause diagnostic)) := by
    unfold jzChannelProcessServerMessageInState
    rw [hs]
    rfl
  rw [processServerMessage_iff_of_inState hσ hZ hstate]
  exact and_congr_left' ⟨fun h => h rfl, fun h _ => h⟩

/-- **The punishment** resets the channel, and then tells its peer. -/
theorem punishReset_iff {cause : ResetCause} {diagnostic : Diag} (hσ : σ.Homed)
    (hX : σ.heap.get? x = some X) (hs : X.state = .d1FlowControlReady) :
    jzChannelDoPunishmentResetRequest now x cause diagnostic σ = .ok σ' ↔
      σ.Named X.parent ∧ σ.Linked X ∧
        X.toPeer now (fun Y => jzMsgNewResetRequest Y.lcn
            (if cause = .localProcedureError then .remoteProcedureError else cause).code
            diagnostic.code)
          (σ.resettingAt now x X (jzMsgNewResetRequest X.lcn cause.code diagnostic.code)) =
          .ok σ' := by
  constructor
  · intro h
    obtain ⟨_, -, h⟩ := bind_eq_ok h
    obtain ⟨σ₁, hown, h⟩ := bind_eq_ok (channel_bind_eq_ok hX h)
    obtain ⟨hname, hlinked, rfl⟩ := (tellReset_iff hσ hX hs).1 hown
    exact ⟨hname, hlinked, h⟩
  · rintro ⟨hname, hlinked, h⟩
    refine bind_of_eq_ok ((dump_eq_ok_iff hσ hX).2 hlinked) (bind_of_eq_ok (channel_of_get hX) ?_)
    exact bind_of_eq_ok ((tellReset_iff hσ hX hs).2 ⟨hname, hlinked, rfl⟩) h

theorem putThroughReset_resettingAt {z : ℕ} {Z : JzChannel} {m : JzMsg}
    (hZ : σ.heap.get? z = some Z) (hid : m.id = .resetRequest) :
    PutThroughReset z Z σ (σ.resettingAt now z Z m) where
  channel := ⟨_, get_setChannel_self hZ, rfl, rfl, rfl, rfl, rfl⟩
  told := ⟨_, rfl, _, List.mem_singleton_self _, rfl, rfl, hid⟩

/-- The reset of one channel is still there after the reset of another. -/
theorem PutThroughReset.frame {z : ℕ} {Z : JzChannel} {σ₁ : Server} {new : List Sent}
    (h : PutThroughReset z Z σ σ₁) (hget : σ'.heap.get? z = σ₁.heap.get? z)
    (hsent : σ'.sent = σ₁.sent ++ new) : PutThroughReset z Z σ σ' where
  channel := by
    rw [hget]
    exact h.channel
  told := by
    obtain ⟨old, hold, s, hs, hmsg⟩ := h.told
    exact ⟨old ++ new, by rw [hsent, hold, List.append_assoc], s, List.mem_append_left _ hs, hmsg⟩

/-- The same of another channel, before which something else was sent. -/
theorem PutThroughReset.later {z : ℕ} {Z : JzChannel} {σ₁ : Server} {old : List Sent}
    (h : PutThroughReset z Z σ₁ σ') (hsent : σ₁.sent = σ.sent ++ old) :
    PutThroughReset z Z σ σ' where
  channel := h.channel
  told := by
    obtain ⟨new, hnew, s, hs, hmsg⟩ := h.told
    exact ⟨old ++ new, by rw [hnew, hsent, List.append_assoc], s, List.mem_append_right _ hs, hmsg⟩

/-- Only a channel in data transfer passes a reset on. -/
theorem ServerEffect.state_of_reset {o : JzMsg} (h : ServerEffect now Y msg Y' (some o))
    (hid : msg.id = .resetRequest) (ho : o.id = .resetRequest) :
    Y.state = .d1FlowControlReady := by
  cases h with
  | reset _ hs => exact hs
  | confirmReset => cases ho
  | clear hid' | incomingCall hid' | connected hid' | data hid' | rr hid' | rnr hid' =>
    rw [hid] at hid'
    cases hid'
  | confirmClear hid' =>
    rw [hid] at hid'
    obtain hid' | hid' := hid' <;> cases hid'

/-- A peer that has been put through a reset was in data transfer. -/
theorem resettable_of_told {σ₁ : Server} {s : Sent} (hσ : σ₁.Homed)
    (hY : σ₁.heap.get? y = some Y) (hid : msg.id = .resetRequest)
    (h : jzChannelProcessServerMessage now y msg σ₁ = .ok σ') (hne : x ≠ y)
    (hsent : σ₁.sent = σ.sent ++ [s]) (hs : s.channel = some x)
    (hreset : PutThroughReset y Y σ σ') :
    σ₁.Linked Y ∧ Y.state = .d1FlowControlReady ∧ σ₁.Named Y.parent := by
  obtain ⟨Y', out, hstate, hname, hlinked, rfl⟩ := (processServerMessage_eq_ok_iff hσ hY).1 h
  have heff := inState_effect hstate
  obtain ⟨new, hnew, t, ht, -, hchannel, htid⟩ := hreset.told
  -- What has been sent is the message to `x`, and then what the peer has sent.
  have hnew : new = s :: post Y y out := by
    change σ₁.sent ++ post Y y out = σ.sent ++ new at hnew
    rw [hsent, List.append_assoc] at hnew
    exact (List.append_cancel_left hnew).symm
  rw [hnew] at ht
  obtain rfl | ht := List.mem_cons.1 ht
  · rw [hs] at hchannel
    exact absurd (Option.some.inj hchannel) hne
  · obtain ⟨-, -, rfl⟩ := mem_post ht
    have hd1 := heff.state_of_reset hid htid
    obtain ⟨rfl, -⟩ := heff.resets hid hd1
    exact ⟨hlinked, hd1, hname rfl⟩

/-- **A packet that is refused** resets both sides exactly if the peer is in data transfer. -/
theorem refused_iff {diagnostic : Diag} (hσ : σ.Registered) (hX : σ.heap.get? x = some X)
    (hs : X.state = .d1FlowControlReady) :
    (∃ σ', jzChannelDoPunishmentResetRequest now x .localProcedureError diagnostic σ = .ok σ' ∧
        CallReset x X σ σ') ↔
      σ.Named X.parent ∧ ∀ y, X.peer = some y → σ.Resettable y := by
  simp only [punishReset_iff hσ.homed hX hs, toPeer_eq_ok_iff]
  set σ₁ := σ.resettingAt now x X (jzMsgNewResetRequest X.lcn
    ResetCause.localProcedureError.code diagnostic.code)
  have hhomed : σ₁.Homed := hσ.homed.setChannel (N := X.resetting now) hX rfl
  have hfirst : PutThroughReset x X σ σ₁ := putThroughReset_resettingAt hX rfl
  have hne {y : ℕ} (hy : X.peer = some y) : x ≠ y := hσ.ne_of_peer hX hy
  have hget {y : ℕ} (hy : X.peer = some y) : σ₁.heap.get? y = σ.heap.get? y :=
    get_setChannel_of_ne (N := X.resetting now) (hne hy).symm
  constructor
  · rintro ⟨σ', ⟨hname, hlinked, htold⟩, -, hpeer⟩
    refine ⟨hname, fun y hy => ?_⟩
    obtain ⟨Y, hY, hreset⟩ := hpeer y hy
    obtain ⟨hnone, -⟩ | ⟨z, Y₁, hz, hY₁, htold⟩ := htold
    · rw [hnone] at hy
      cases hy
    · obtain rfl : z = y := Option.some.inj (hz.symm.trans hy)
      rw [hget hy, hY] at hY₁
      cases hY₁
      obtain ⟨hlinked, hd1, hnamed⟩ := resettable_of_told hhomed ((hget hy).trans hY) rfl htold
        (hne hy) rfl rfl hreset
      exact ⟨Y, hY, linked_setChannel.1 hlinked, hd1, hnamed⟩
  · rintro ⟨hname, hpeer⟩
    cases hp : X.peer with
    | none =>
      refine ⟨σ₁, ⟨hname, linked_of_none hp, .inl ⟨rfl, rfl⟩⟩, hfirst, fun y hy => ?_⟩
      rw [hp] at hy
      cases hy
    | some y =>
      obtain ⟨Y, hY, hlinked, hd1, hnamed⟩ := hpeer y hp
      have hY₁ := (hget hp).trans hY
      have htold : jzChannelProcessServerMessage now y (jzMsgNewResetRequest Y.lcn
          ResetCause.remoteProcedureError.code diagnostic.code) σ₁ = .ok _ :=
        (tellReset_iff hhomed hY₁ hd1).2 ⟨hnamed, linked_setChannel.2 hlinked, rfl⟩
      have hlinkedX : σ.Linked X := by
        intro z hz
        obtain rfl : y = z := Option.some.inj (hp.symm.trans hz)
        exact ⟨Y, hY⟩
      refine ⟨_, ⟨hname, hlinkedX, .inr ⟨y, Y, rfl, hY₁, htold⟩⟩, ?_, fun z hz => ?_⟩
      · exact hfirst.frame (get_setChannel_of_ne (N := Y.resetting now) (hne hp)) rfl
      · obtain rfl : y = z := Option.some.inj (hp.symm.trans hz)
        exact ⟨Y, hY, (putThroughReset_resettingAt hY₁ rfl).later rfl⟩

/-! ### The theorem -/

/-- A packet that the code accepts. It has to be admissible, and to be counted and passed on as
it should be. -/
theorem dealtWith_of_passes (hσ : σ.Registered) (hX : σ.heap.get? x = some X)
    (hs : X.state = .d1FlowControlReady) (hrange : X.InRange) (hpasses : Passes X msg) :
    DealtWith now x X msg σ ↔ Admissible X msg ∧ X.clientPs.toNat + 1 < SEQ_MAX ∧
      ∀ y, X.peer = some y → σ.PassesOn msg y := by
  have hvalid := (passes_iff hrange).1 hpasses
  have hlength := (clientDataError_eq_none hvalid).2.1
  have hps := seqRngchk_eq_zero.1 hrange.clientPs
  rw [DealtWith, doClientData_of_passes hX hvalid]
  have hself {σ' : Server} (h : X.toPeer now (dataFor msg) (σ.setChannel x (X.accepting msg)) =
      .ok σ') : σ'.heap.get? x = some (X.accepting msg) :=
    (get_of_toPeer (hσ.peer_ne hX) h).trans (get_setChannel_self hX)
  constructor
  · rintro ⟨σ', h, hcounted, hreset⟩
    by_cases hadmissible : Admissible X msg
    · obtain ⟨X', hX', -, hnext, -⟩ := hcounted hadmissible
      rw [hself h] at hX'
      cases hX'
      exact ⟨hadmissible, (nextPs_iff hps).1 hnext, (passed_iff hσ hX hlength).1 ⟨σ', h⟩⟩
    · -- It is still in data transfer.
      obtain ⟨X', hX', hd3, -⟩ := (hreset hadmissible).1.channel
      rw [hself h] at hX'
      cases hX'
      rw [show (X.accepting msg).state = X.state from rfl, hs] at hd3
      cases hd3
  · rintro ⟨hadmissible, hnext, hpeer⟩
    obtain ⟨σ', h⟩ := (passed_iff hσ hX hlength).2 hpeer
    exact ⟨σ', h, fun _ => ⟨_, hself h, hs, (nextPs_iff hps).2 hnext, rfl⟩,
      fun hnot => absurd hadmissible hnot⟩

/-- A packet that the code refuses. It has to be inadmissible, and both sides have to be
reset. -/
theorem dealtWith_of_refused (hσ : σ.Registered) (hX : σ.heap.get? x = some X)
    (hs : X.state = .d1FlowControlReady) (hrange : X.InRange) (hrefused : ¬ Passes X msg) :
    DealtWith now x X msg σ ↔ ¬ Admissible X msg ∧ σ.Named X.parent ∧
      ∀ y, X.peer = some y → σ.Resettable y := by
  obtain ⟨diagnostic, herr⟩ := exists_error hrange hrefused
  have hrefuse : jzChannelDoClientData now x msg σ =
      jzChannelDoPunishmentResetRequest now x .localProcedureError diagnostic σ :=
    bind_of_eq_ok (channel_of_get hX) (bind_of_eq_ok herr rfl)
  rw [DealtWith, hrefuse]
  constructor
  · rintro ⟨σ', h, hcounted, hreset⟩
    by_cases hadmissible : Admissible X msg
    · -- It has left data transfer.
      obtain ⟨X', hX', hd1, -⟩ := hcounted hadmissible
      obtain ⟨-, -, htold⟩ := (punishReset_iff hσ.homed hX hs).1 h
      rw [get_of_toPeer (hσ.peer_ne hX) htold] at hX'
      obtain rfl := Option.some.inj ((get_setChannel_self (N := X.resetting now) hX).symm.trans
        hX')
      cases hd1
    · exact ⟨hadmissible, (refused_iff hσ hX hs).1 ⟨σ', h, hreset hadmissible⟩⟩
  · rintro ⟨hnot, hboth⟩
    obtain ⟨σ', h, hreset⟩ := (refused_iff hσ hX hs).2 hboth
    exact ⟨σ', h, fun hadmissible => absurd hadmissible hnot, fun _ => hreset⟩

/-- **Which packets are dealt with as they should be.** -/
theorem data_acceptance (hσ : σ.Registered) (hX : σ.heap.get? x = some X)
    (hs : X.state = .d1FlowControlReady) (hrange : X.InRange) :
    DealtWith now x X msg σ ↔ DataAsMeant σ X msg := by
  by_cases hpasses : Passes X msg
  · rw [dealtWith_of_passes hσ hX hs hrange hpasses]
    constructor
    · rintro ⟨hadmissible, hnext, hpeer⟩
      exact .accepted hadmissible hpasses.packet hnext hpeer
    · rintro (⟨hadmissible, -, hnext, hpeer⟩ | ⟨-, hrefused, -, -⟩)
      · exact ⟨hadmissible, hnext, hpeer⟩
      · exact absurd hpasses hrefused
  · rw [dealtWith_of_refused hσ hX hs hrange hpasses]
    constructor
    · rintro ⟨hnot, hname, hpeer⟩
      exact .rejected hnot hpasses hname hpeer
    · rintro (⟨hadmissible, hshort, -, -⟩ | ⟨hnot, -, hname, hpeer⟩)
      · exact absurd (hadmissible.passes_iff.2 hshort) hpasses
      · exact ⟨hnot, hname, hpeer⟩

/-- The first packet of a call. -/
theorem data_acceptance_first : DealtWith 0 0
    { parent := 0, lcn := 1, peer := some 1, state := .d1FlowControlReady, window := 2,
      throughput := 10, packet := 6 } firstData (afterEvents talkEvents) := by
  have hplay : ({} : Server).play talkEvents = some (afterEvents talkEvents) := rfl
  refine (data_acceptance (registered_of_reachable (reachable_of_play hplay)) rfl rfl
    ⟨rfl, rfl, rfl, rfl, rfl, rfl⟩).2 (.accepted ⟨⟨_, rfl, by decide⟩, by decide, rfl, by decide,
      rfl, by decide⟩ ⟨_, rfl, by decide⟩ (by decide) ?_)
  rintro y ⟨⟩
  refine ⟨_, rfl, ?_, fun _ => ⟨⟨⟨_, rfl, by decide⟩, rfl⟩, ⟨_, rfl, rfl⟩⟩⟩
  rintro y ⟨⟩
  exact ⟨_, rfl⟩

/-- A packet of 64 bytes. -/
def fullData : JzMsg :=
  jzMsgNewData 1 0 0 0 (List.replicate 64 1)

/-- **A full packet resets the call.** The packet size of the call is 64 bytes. -/
theorem data_full_refused : ¬ ∀ now σ x X msg, serverSystem.Reachable σ →
    σ.heap.get? x = some X → X.state = .d1FlowControlReady → X.InRange →
    DealtWith now x X msg σ := by
  intro hclaim
  have hplay : ({} : Server).play talkEvents = some (afterEvents talkEvents) := rfl
  obtain ⟨σ', h, hcounted, -⟩ := hclaim 0 _ 0 _ fullData (reachable_of_play hplay) rfl rfl
    ⟨rfl, rfl, rfl, rfl, rfl, rfl⟩
  obtain ⟨X', hX', hd1, -⟩ := hcounted ⟨⟨_, rfl, by decide⟩, by decide, rfl, by decide, rfl,
    by decide⟩
  have hdone : jzChannelDoClientData 0 0 fullData (afterEvents talkEvents) = .ok _ := rfl
  rw [hdone] at h
  cases h
  cases hX'
  cases hd1

end

end Application10
end Jozabad
