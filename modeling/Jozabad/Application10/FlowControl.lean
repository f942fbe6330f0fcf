import Jozabad.Application10.Counters
import Jozabad.Application10.Numbers
import Jozabad.Lib.Window

/-!
# Flow control between two clients

Two joined channels in data transfer pass on `DATA`, `RR` and `RNR`. Each direction has a true
account, its `Ledger`: how many packets the receiving client has been sent, and up to which
count it has acknowledged them. `account` computes it from what the server sends alone.

A direction uses four counters, two on each channel. `Direction` says what they mean for the
account. The sender's two are the residues of the counts, as they should be. The receiver's
channel remembers the number of the last packet, and not of the next one, and so at least one
packet is always outstanding after the first.

* `FlowInv.account_bounded`: the window bounds the outstanding packets, if it is one that
  `windowRngchk` accepts. A call may have the windows 0 and 8 as well, which bound nothing.
* `flow_control`: besides this, which messages of a client that keeps to the rules are reset.
* `flow_control_unbounded`: a call with the window 0.
-/

namespace Jozabad
namespace Application10

open Cyclic

/-! ### The range checks and the counts -/

section

variable {lo hi p w : ℕ} {L : Ledger}

/-- The range check compares distances round the circle. A bound of the range may be `SEQ_MAX`,
which counts as zero. -/
theorem seqInRange_iff (hp : p < SEQ_MAX) (hlo : lo ≤ SEQ_MAX) (hhi : hi < SEQ_MAX) :
    seqInRange p lo hi = true ↔
      dist SEQ_MAX (lo % SEQ_MAX) p ≤ dist SEQ_MAX (lo % SEQ_MAX) hi := by
  obtain rfl | hlo := hlo.eq_or_lt
  · -- The range wraps, and has all numbers up to its end.
    rw [Nat.mod_self, dist_of_le (Nat.zero_le p) hp, dist_of_le (Nat.zero_le hi) hhi, seqInRange]
    split_ifs <;> simp <;> omega
  · rw [Nat.mod_eq_of_lt hlo]
    exact seqInRange_iff_dist hp hlo hhi

/-- The same of the number `SEQ_MAX`, which passes the check only where zero does. -/
theorem dist_le_of_seqInRange (hp : p ≤ SEQ_MAX) (hlo : lo ≤ SEQ_MAX) (hhi : hi < SEQ_MAX)
    (h : seqInRange p lo hi = true) :
    dist SEQ_MAX (lo % SEQ_MAX) (p % SEQ_MAX) ≤ dist SEQ_MAX (lo % SEQ_MAX) hi := by
  simp only [SEQ_MAX] at *
  unfold seqInRange at h
  unfold Cyclic.dist
  split_ifs at h <;> omega

theorem window_range (hw : windowRngchk w = 0) : 1 ≤ w ∧ w < SEQ_MAX := by
  obtain ⟨hmin, hmax⟩ := windowRngchk_eq_zero.1 hw
  simp only [WINDOW_MIN, WINDOW_MAX, SEQ_MAX] at *
  omega

/-- The end of a window that starts at `lo`. -/
theorem windowEnd_eq (hw : windowRngchk w = 0) : windowEnd lo w = (lo + (w - 1)) % SEQ_MAX := by
  have hpos := (window_range hw).1
  rw [windowEnd_of_pos hpos, Nat.add_sub_assoc hpos]

end

/-! ### The counters of a direction -/

/-- **The counters agree with the account** of the packets from `X` to `Y`, of which `w` may be
outstanding. -/
structure Direction (X Y : JzChannel) (L : Ledger) (w : ℕ) : Prop where
  ps : X.clientPs.toNat = L.sent % SEQ_MAX
  pr : X.peerPr.toNat % SEQ_MAX = L.acked % SEQ_MAX
  pr_le : X.peerPr.toNat ≤ SEQ_MAX
  /-- What the receiver has acknowledged is what the sender has been told. -/
  told : Y.clientPr = X.peerPr
  /-- The receiver's channel has the number of the last packet. -/
  last : Y.peerPs.toNat = (L.sent - 1) % SEQ_MAX
  /-- So the last packet cannot be acknowledged. -/
  behind : L.acked ≤ L.sent - 1
  bound : L.sent ≤ L.acked + w

namespace Direction

variable {X X' Y Y' : JzChannel} {L : Ledger} {w : ℕ} {msg : JzMsg} {p : UInt16}

theorem start (hX : X.Fresh) (hY : Y.Fresh) : Direction X Y {} w where
  ps := by rw [hX.clientPs]; rfl
  pr := by rw [hX.peerPr]; rfl
  pr_le := by rw [hX.peerPr]; decide
  told := hY.clientPr.trans hX.peerPr.symm
  last := by rw [hY.peerPs]; rfl
  behind := le_rfl
  bound := Nat.zero_le _

theorem within (h : Direction X Y L w) : L.Within w :=
  ⟨h.behind.trans (Nat.sub_le _ _), h.bound⟩

/-- Only the four counters matter. -/
theorem congr (h : Direction X Y L w) (hps : X'.clientPs = X.clientPs)
    (hpr : X'.peerPr = X.peerPr) (htold : Y'.clientPr = Y.clientPr) (hlast : Y'.peerPs = Y.peerPs) :
    Direction X' Y' L w where
  ps := by rw [hps, h.ps]
  pr := by rw [hpr, h.pr]
  pr_le := by rw [hpr]; exact h.pr_le
  told := by rw [htold, hpr, h.told]
  last := by rw [hlast, h.last]
  behind := h.behind
  bound := h.bound

/-- **The window check**: fewer packets are outstanding than the window allows. -/
theorem in_window_iff (h : Direction X Y L w) (hw : windowRngchk w = 0) :
    seqInRange (L.sent % SEQ_MAX) X.peerPr.toNat (windowEnd X.peerPr.toNat w) = true ↔
      L.outstanding < w := by
  obtain ⟨hpos, hlt⟩ := window_range hw
  have hle := h.within.le
  have hbound := h.bound
  have hpr := h.pr
  have hend : windowEnd X.peerPr.toNat w = (L.acked + (w - 1)) % SEQ_MAX := by
    rw [windowEnd_eq hw, Nat.add_mod, hpr, ← Nat.add_mod]
  have hpositive : 0 < SEQ_MAX := by decide
  rw [hend, seqInRange_iff (Nat.mod_lt _ hpositive) h.pr_le (Nat.mod_lt _ hpositive), hpr,
    dist_mod hle (by omega), dist_mod (Nat.le_add_right _ _) (by omega), Ledger.outstanding]
  omega

/-- What the receiver's channel compares an acknowledgement with. -/
theorem dist_last (h : Direction X Y L w) (hw : w < SEQ_MAX) :
    dist SEQ_MAX (Y.clientPr.toNat % SEQ_MAX) Y.peerPs.toNat = L.sent - 1 - L.acked := by
  have hbound := h.bound
  rw [h.told, h.pr, h.last, dist_mod h.behind (by omega)]

/-- **The check of acknowledgements** passes those of all packets but the last. -/
theorem pr_in_range_iff (h : Direction X Y L w) (hw : w < SEQ_MAX) {a : ℕ} (hlo : L.acked ≤ a)
    (hhi : a ≤ L.sent) :
    seqInRange (a % SEQ_MAX) Y.clientPr.toNat Y.peerPs.toNat = true ↔ a ≤ L.sent - 1 := by
  have hbound := h.bound
  have hpositive : 0 < SEQ_MAX := by decide
  have hlast : Y.peerPs.toNat < SEQ_MAX := h.last ▸ Nat.mod_lt _ hpositive
  have hpr : Y.clientPr.toNat ≤ SEQ_MAX := h.told ▸ h.pr_le
  rw [seqInRange_iff (Nat.mod_lt _ hpositive) hpr hlast, h.dist_last hw, h.told, h.pr,
    dist_mod hlo (by omega)]
  have hbehind := h.behind
  omega

/-- The sender sends a packet for which there is room. -/
theorem send (h : Direction X Y L w) (hps : msg.ps = X.clientPs) (hroom : L.outstanding < w) :
    Direction (X.accepting msg) (Y.taking msg) L.send w where
  ps := by
    have hlt : (L.sent + 1) % SEQ_MAX < UInt16.size :=
      (Nat.mod_lt _ (by decide)).trans (by decide)
    change (UInt16.ofNat ((X.clientPs.toNat + 1) % SEQ_MAX)).toNat = (L.sent + 1) % SEQ_MAX
    rw [h.ps, Nat.mod_add_mod, UInt16.toNat_ofNat_of_lt' hlt]
  pr := h.pr
  pr_le := h.pr_le
  told := h.told
  last := by
    change msg.ps.toNat = (L.sent + 1 - 1) % SEQ_MAX
    rw [hps, h.ps, Nat.add_sub_cancel]
  behind := by
    have hle := h.within.le
    simp only [Ledger.send_acked, Ledger.send_sent]
    omega
  bound := (h.within.send hroom).bound

/-- The receiver acknowledges what its channel's check passes. -/
theorem ack (h : Direction X Y L w) (hw : w < SEQ_MAX) (hp : p.toNat ≤ SEQ_MAX)
    (hin : seqInRange p.toNat Y.clientPr.toNat Y.peerPs.toNat = true)
    (hps : X'.clientPs = X.clientPs) (hpr : X'.peerPr = p) (htold : Y'.clientPr = p)
    (hlast : Y'.peerPs = Y.peerPs) :
    Direction X' Y' (L.ack SEQ_MAX (p.toNat % SEQ_MAX)) w := by
  have hpositive : 0 < SEQ_MAX := by decide
  have hlt : Y.peerPs.toNat < SEQ_MAX := h.last ▸ Nat.mod_lt _ hpositive
  have hmod : p.toNat % SEQ_MAX < SEQ_MAX := Nat.mod_lt _ hpositive
  -- The acknowledged count moves forward, and not beyond the last packet but one.
  have hstep : dist SEQ_MAX (L.acked % SEQ_MAX) (p.toNat % SEQ_MAX) ≤ L.sent - 1 - L.acked := by
    rw [← h.dist_last hw, ← h.pr, ← h.told]
    exact dist_le_of_seqInRange hp (h.told ▸ h.pr_le) hlt hin
  have hbehind := h.behind
  have hbound := h.bound
  refine ⟨by rw [hps, h.ps]; rfl, ?_, by rw [hpr]; exact hp, by rw [htold, hpr],
    by rw [hlast, h.last]; rfl, ?_, ?_⟩
  · rw [hpr, Ledger.ack_acked_mod hmod]
  · simp only [Ledger.ack]
    omega
  · simp only [Ledger.ack]
    omega

end Direction

/-! ### What a message of data transfer does -/

/-- A message of the data-transfer phase. -/
def IsFlow (msg : JzMsg) : Prop :=
  msg.id = .data ∨ msg.id = .rr ∨ msg.id = .rnr

instance (msg : JzMsg) : Decidable (IsFlow msg) :=
  inferInstanceAs (Decidable (_ ∨ _))

/-- The channel accepts the message: it goes on to the peer instead of resetting the call. -/
def Accepts (X : JzChannel) (msg : JzMsg) : Prop :=
  AcceptsData X msg ∨ ∃ new, AcceptsReceipt new X msg

/-- The channels `X` at `x` and `Y` at `y` are each other's peers. -/
structure Pair (σ : Server) (x y : ℕ) (X Y : JzChannel) : Prop where
  own : σ.heap.get? x = some X
  other : σ.heap.get? y = some Y
  peer : X.peer = some y
  back : Y.peer = some x

/-- A channel after a reset by the server. -/
def JzChannel.resetting (now : ℕ) (X : JzChannel) : JzChannel :=
  { X with state := .d3ServerResetIndication }.startTimer now .resetIndication
    TIMER_RESET_INDICATION_DURATION_IN_SECONDS

/-- The channel after it has accepted an acknowledgement. -/
def JzChannel.acking (msg : JzMsg) (X : JzChannel) : JzChannel :=
  { X with clientPr := msg.pr }

/-- The peer after it has taken the acknowledgement. -/
def JzChannel.noting (msg : JzMsg) (Y : JzChannel) : JzChannel :=
  { Y with peerPr := msg.pr }

/-- **What a message to `X` does** when both channels are in `D1`. -/
inductive FlowEffect (x y : ℕ) (X Y : JzChannel) (msg : JzMsg) :
    JzChannel → JzChannel → List Sent → Prop
  /-- The call is reset. -/
  | refused (now : ℕ) (o p : JzMsg) (hrefuse : ¬ Accepts X msg) (ho : o.id = .resetRequest)
      (hp : p.id = .resetRequest) :
      FlowEffect x y X Y msg (X.resetting now) (Y.resetting now)
        [⟨X.parent, some x, o⟩, ⟨Y.parent, some y, p⟩]
  /-- The packet is counted on both sides. -/
  | data (haccept : AcceptsData X msg) :
      FlowEffect x y X Y msg (X.accepting msg) (Y.taking msg)
        [⟨Y.parent, some y, dataFor msg Y⟩]
  /-- The acknowledgement is noted on both sides. -/
  | receipt (o : JzMsg) (new : UInt16 → UInt16 → JzMsg) (haccept : AcceptsReceipt new X msg)
      (ho : o.id = .rr ∨ o.id = .rnr) (hpr : o.pr = msg.pr) :
      FlowEffect x y X Y msg (X.acking msg) (Y.noting msg) [⟨Y.parent, some y, o⟩]

section

variable {σ σ₁ σ' : Server} {now x y : ℕ} {X X' Y Y' : JzChannel} {msg m : JzMsg} {e : Event}
  {out : Option JzMsg}

theorem Pair.symm (h : Pair σ x y X Y) : Pair σ y x Y X :=
  ⟨h.other, h.own, h.back, h.peer⟩

/-- A reset resets a channel in `D1`. -/
theorem ServerEffect.resets (h : ServerEffect now X m X' out) (hid : m.id = .resetRequest)
    (hs : X.state = .d1FlowControlReady) :
    X' = X.resetting now ∧ ∃ o, out = some o ∧ o.id = .resetRequest := by
  cases h with
  | reset => exact ⟨rfl, _, rfl, rfl⟩
  | ignored hs' =>
    rw [hs, hid] at hs'
    cases hs'
  | confirmReset _ hs' =>
    rw [hs] at hs'
    cases hs'
  | clear hid' | incomingCall hid' | collision hid' | connected hid' | data hid' | rr hid'
    | rnr hid' =>
    rw [hid] at hid'
    cases hid'
  | confirmClear hid' =>
    rw [hid] at hid'
    obtain hid' | hid' := hid' <;> cases hid'

/-- A channel in `D1` notes an acknowledgement, and passes it on. -/
theorem ServerEffect.notes (h : ServerEffect now Y m Y' out) (hid : m.id = .rr ∨ m.id = .rnr)
    (hpr : m.pr = msg.pr) (hs : Y.state = .d1FlowControlReady) :
    Y' = Y.noting msg ∧ ∃ o, out = some o ∧ (o.id = .rr ∨ o.id = .rnr) ∧ o.pr = msg.pr := by
  cases h with
  | rr => exact ⟨by rw [JzChannel.noting, hpr], _, rfl, .inl rfl, hpr⟩
  | rnr => exact ⟨by rw [JzChannel.noting, hpr], _, rfl, .inr rfl, hpr⟩
  | ignored hs' =>
    rw [hs] at hs'
    obtain hid | hid := hid <;> rw [hid] at hs' <;> cases hs'
  | clear hid' | incomingCall hid' | collision hid' | connected hid' | reset hid' | data hid' =>
    obtain hid | hid := hid <;> rw [hid] at hid' <;> cases hid'
  | confirmClear hid' | confirmReset hid' =>
    obtain hid | hid := hid <;> rw [hid] at hid' <;> obtain hid' | hid' := hid' <;> cases hid'

/-- The message has been refused, so the call is reset. -/
theorem refused_of_plays (hpair : Pair σ x y X Y) (hX : X.state = .d1FlowControlReady)
    (hY : Y.state = .d1FlowControlReady) {cause : ResetCause} {diagnostic : Diag}
    (hplays : Plays now x X (punishResetActs X.lcn cause diagnostic ++ timerActs X.state) σ σ') :
    ∃ o p : JzMsg, o.id = .resetRequest ∧ p.id = .resetRequest ∧
      Pair σ' x y (X.resetting now) (Y.resetting now) ∧
      σ'.sent = σ.sent ++ [⟨X.parent, some x, o⟩, ⟨Y.parent, some y, p⟩] := by
  obtain ⟨d, hd, hshows⟩ := hplays.shows
  have hduo : σ.duo X = ⟨X, some Y, []⟩ := by
    rw [Server.duo, hpair.peer, Option.bind_some, hpair.other]
  rw [hduo, hX] at hd
  simp only [punishResetActs, timerActs, List.append_nil, Lts.Run.cons_iff,
    Lts.Run.nil_iff] at hd
  obtain ⟨d₁, h₁, d₂, h₂, rfl⟩ := hd
  obtain ⟨X', out, heff, rfl⟩ := step_self h₁
  obtain ⟨rfl, o, rfl, ho⟩ := heff.resets rfl hX
  obtain ⟨Y', out', heff', rfl⟩ := step_tell hpair.peer rfl h₂
  obtain ⟨rfl, p, rfl, hp⟩ := heff'.resets rfl hY
  exact ⟨o, p, ho, hp, ⟨hshows.own, hshows.other y hpair.peer, hpair.peer, hpair.back⟩,
    hshows.sent⟩

/-- A message of data transfer that is not accepted has the script of a reset. -/
theorem MessageScript.punished {as : List Act} (h : MessageScript X msg as)
    (hs : X.state = .d1FlowControlReady) (hflow : IsFlow msg) (hrefuse : ¬ Accepts X msg) :
    ∃ cause diagnostic, as = punishResetActs X.lcn cause diagnostic := by
  cases h with
  | punishReset cause diagnostic => exact ⟨cause, diagnostic, rfl⟩
  | data hid _ hvalid => exact absurd (.inl ⟨hid, hs, hvalid⟩) hrefuse
  | rr hid _ hvalid => exact absurd (.inr ⟨_, .inl ⟨hid, rfl⟩, hs, hvalid⟩) hrefuse
  | rnr hid _ hvalid => exact absurd (.inr ⟨_, .inr ⟨hid, rfl⟩, hs, hvalid⟩) hrefuse
  | ignored hleft =>
    rw [hs] at hleft
    cases hleft
  | punishClear _ _ hs' =>
    rw [hs] at hs'
    obtain hs' | hs' | hs' | hs' | hs' := hs' <;> cases hs'
  | accept _ hs' | collide _ hs' | confirmClear _ hs' | confirmReset _ hs' =>
    rw [hs] at hs'
    cases hs'
  | clear hid | reset hid =>
    obtain hid' | hid' | hid' := hflow <;> rw [hid'] at hid <;> cases hid

/-- The message has come to a channel that was there. -/
theorem Got.same (h : Got now x X msg σ e σ₁ σ') (hpeer : X.peer = some y) :
    σ₁ = { σ with sent := [] } := by
  obtain hsame | ⟨-, hnew⟩ := h.opened
  · exact hsame
  · rw [hnew] at hpeer
    cases hpeer

/-- The peer notes what the channel accepts. -/
theorem noted_of_receipt {new : UInt16 → UInt16 → JzMsg} (hpair : Pair σ x y X Y) (hne : x ≠ y)
    (hY : Y.state = .d1FlowControlReady) (haccept : AcceptsReceipt new X msg)
    (h : jzChannelProcessMessage now x msg σ = .ok σ') :
    ∃ o : JzMsg, (o.id = .rr ∨ o.id = .rnr) ∧ o.pr = msg.pr ∧
      Pair σ' x y (X.acking msg) (Y.noting msg) ∧
      σ'.sent = σ.sent ++ [⟨Y.parent, some y, o⟩] := by
  have hto : X.toPeer now (fun _ => new msg.lcn msg.pr) (σ.setChannel x (X.acking msg)) =
      .ok σ' := toPeer_of_receipt hpair.own haccept h
  simp only [JzChannel.toPeer, hpair.peer] at hto
  obtain ⟨_, -, hto⟩ := bind_eq_ok hto
  have hX₁ : (σ.setChannel x (X.acking msg)).heap.get? x = some (X.acking msg) :=
    get_setChannel_self hpair.own
  have hY₁ : (σ.setChannel x (X.acking msg)).heap.get? y = some Y :=
    (get_setChannel_of_ne hne.symm).trans hpair.other
  obtain ⟨Y₀, Y', out, hY₀, hstate, rfl⟩ := processServerMessage_eq_ok hto
  obtain rfl : Y = Y₀ := Option.some.inj (hY₁.symm.trans hY₀)
  have hnew : (new msg.lcn msg.pr).pr = msg.pr := by
    obtain ⟨-, rfl⟩ | ⟨-, rfl⟩ := haccept.kind
    · rfl
    · rfl
  obtain ⟨rfl, o, rfl, ho, hpr⟩ := (inState_effect hstate).notes (haccept.new_id _ _) hnew hY
  exact ⟨o, ho, hpr, ⟨(get_setChannel_of_ne hne).trans hX₁, get_setChannel_self hY₁, hpair.peer,
    hpair.back⟩, rfl⟩

/-- **A step with a message of data transfer** has one of the effects. -/
theorem flow_step (hσ : σ.Registered) (hpair : Pair σ x y X Y)
    (hX : X.state = .d1FlowControlReady) (hY : Y.state = .d1FlowControlReady)
    (hflow : IsFlow msg) (hgives : e.Gives σ x X msg) (hstep : serverSystem.Step σ e σ') :
    ∃ X' Y', FlowEffect x y X Y msg X' Y' σ'.sent ∧ Pair σ' x y X' Y' := by
  by_cases hdata : AcceptsData X msg
  · obtain ⟨now, Y', out, heff, hX', hY', hsent⟩ :=
      accepted_step hσ hgives hdata hpair.peer hpair.other hstep
    obtain ⟨rfl, rfl⟩ := heff.takes_data hY
    exact ⟨_, _, hsent ▸ .data hdata, hX', hY', hpair.peer, hpair.back⟩
  obtain ⟨now, σ₁, hgot⟩ := hgives.got hσ hstep
  obtain rfl := hgot.same hpair.peer
  have hpair₁ : Pair { σ with sent := [] } x y X Y :=
    ⟨hpair.own, hpair.other, hpair.peer, hpair.back⟩
  have hne : x ≠ y := hσ.ne_of_peer hpair.own hpair.peer
  by_cases hreceipt : ∃ new, AcceptsReceipt new X msg
  · obtain ⟨new, haccept⟩ := hreceipt
    obtain ⟨o, ho, hpr, hpair', hsent⟩ := noted_of_receipt hpair₁ hne hY haccept hgot.processed
    exact ⟨_, _, hsent ▸ .receipt o new haccept ho hpr, hpair'⟩
  -- What is not accepted is punished.
  have hrefuse : ¬ Accepts X msg := not_or.2 ⟨hdata, hreceipt⟩
  obtain ⟨as, hscript, hplays⟩ | ⟨hs, -⟩ :=
    processMessage_cases hgot.registered hgot.found hgot.processed
  · obtain ⟨cause, diagnostic, rfl⟩ := hscript.punished hX hflow hrefuse
    obtain ⟨o, p, ho, hp, hpair', hsent⟩ := refused_of_plays hpair₁ hX hY hplays
    exact ⟨_, _, hsent ▸ .refused now o p hrefuse ho hp, hpair'⟩
  · rw [hX] at hs
    cases hs

/-- A channel that waits for the confirmation of a reset leaves the message aside. -/
theorem flow_ignored (hσ : σ.Registered) (hpair : Pair σ x y X Y)
    (hX : X.state = .d3ServerResetIndication) (hflow : IsFlow msg) (hgives : e.Gives σ x X msg)
    (hstep : serverSystem.Step σ e σ') : Pair σ' x y X Y ∧ σ'.sent = [] := by
  obtain ⟨now, σ₁, hgot⟩ := hgives.got hσ hstep
  obtain rfl := hgot.same hpair.peer
  obtain ⟨as, hscript, hplays⟩ | ⟨hs, -⟩ :=
    processMessage_cases hgot.registered hgot.found hgot.processed
  · have hleft : leaves X.state msg.id = true := by
      obtain hid | hid | hid := hflow <;> rw [hX, hid] <;> rfl
    obtain rfl := hscript.eq_nil hleft
    obtain ⟨d, hd, hshows⟩ := hplays.shows
    rw [hX] at hd
    simp only [timerActs, resetTimerAct, List.nil_append, Lts.Run.cons_iff, Lts.Run.nil_iff,
      step_own] at hd
    obtain ⟨_, rfl, rfl⟩ := hd
    -- The timer runs on, since the channel is still in `D3`.
    have hown := hshows.own
    simp only [Server.duo, hX, ne_eq, not_true_eq_false, false_and, if_false] at hown
    have hother := hshows.other y hpair.peer
    simp only [Server.duo, hpair.peer, Option.bind_some] at hother
    exact ⟨⟨hown, hother.trans hpair.other, hpair.peer, hpair.back⟩, hshows.sent⟩
  · rw [hX] at hs
    cases hs

end

/-! ### Accounts of a conversation -/

/-- A message of one of two clients, and what the server sends for it. -/
structure Exchange where
  /-- The channel that gets the message. -/
  channel : ℕ
  msg : JzMsg
  sent : List Sent

/-- A client is told of a reset. -/
def Exchange.Resets (r : Exchange) : Prop :=
  ∃ s ∈ r.sent, s.msg.id = .resetRequest

/-- The channel accepts an acknowledgement with a number that no packet has. -/
def Exchange.Strays (σ : Server) (r : Exchange) : Prop :=
  SEQ_MAX < r.msg.pr.toNat ∧ ∃ X, σ.heap.get? r.channel = some X ∧ Accepts X r.msg

/-- The beginning of data transfer: all counters are zero. -/
structure FlowStart (σ : Server) (x y : ℕ) (X Y : JzChannel) : Prop where
  pair : Pair σ x y X Y
  state : X.state = .d1FlowControlReady
  stateBack : Y.state = .d1FlowControlReady
  fresh : X.Fresh
  freshBack : Y.Fresh

/-- The server as long as the clients of `x` and `y` send `DATA`, `RR` and `RNR`. -/
def conversation (x y : ℕ) : Lts Server Exchange where
  Init σ := ∃ X Y, FlowStart σ x y X Y
  Step σ r σ' := (r.channel = x ∨ r.channel = y) ∧ IsFlow r.msg ∧ r.sent = σ'.sent ∧
    ∃ e X, Event.Gives σ r.channel X r.msg e ∧ serverSystem.Step σ e σ'

/-- Enter an exchange in the account of the packets from `x` to `y`. `DATA` that the client of
`y` is sent counts as sent, and whatever goes from there to the client of `x` acknowledges. -/
def tally (x y : ℕ) (L : Ledger) (r : Exchange) : Ledger :=
  r.sent.foldl (fun L s =>
    if s.channel = some y ∧ s.msg.id = .data then L.send
    else if s.channel = some x ∧ IsFlow s.msg then
      L.ack SEQ_MAX (s.msg.pr.toNat % SEQ_MAX)
    else L) L

/-- The account of the packets from `x` to `y`. -/
def account (x y : ℕ) (rs : List Exchange) : Ledger :=
  rs.foldl (tally x y) {}

/-- A message that keeps to the rules. `L` is the account of the packets that its client has
sent, `B` that of the packets that it has got, and `X` is its channel. -/
structure Conforms (X : JzChannel) (L B : Ledger) (msg : JzMsg) : Prop where
  pr : ∃ a, B.acked ≤ a ∧ a ≤ B.sent ∧ msg.pr.toNat = a % SEQ_MAX
  size : msg.id = .data → msg.data.length ≠ 0 ∧
    ∃ n, packetBytes X.packet.toNat = .ok n ∧ msg.data.length ≤ n
  ps : msg.id = .data → msg.ps.toNat = L.sent % SEQ_MAX
  room : msg.id = .data → L.outstanding < X.window.toNat

/-- **The message oversteps what the checks let pass**: it is a packet of the full size, or it
acknowledges the last packet that its client has got. -/
def Oversteps (X : JzChannel) (B : Ledger) (msg : JzMsg) : Prop :=
  (msg.id = .data ∧ packetBytes X.packet.toNat = .ok msg.data.length) ∨
    (0 < B.sent ∧ msg.pr.toNat = B.sent % SEQ_MAX)

section

variable {σ σ₀ σ' : Server} {x y : ℕ} {X X' X₁ Y Y' Y₁ : JzChannel} {msg : JzMsg}
  {r : Exchange} {rs : List Exchange} {L B : Ledger} {sent : List Sent}

@[simp] theorem account_snoc : account x y (rs ++ [r]) = tally x y (account x y rs) r := by
  simp [account]

/-- The call is reset exactly by what is not accepted. -/
theorem FlowEffect.resets_iff (h : FlowEffect x y X Y msg X' Y' sent) :
    (∃ s ∈ sent, s.msg.id = .resetRequest) ↔ ¬ Accepts X msg := by
  cases h with
  | refused now o p hrefuse ho hp => exact iff_of_true ⟨_, List.mem_cons_self, ho⟩ hrefuse
  | data haccept =>
    refine iff_of_false ?_ (not_not.2 (.inl haccept))
    rintro ⟨s, hs, hid⟩
    rw [List.mem_singleton.1 hs] at hid
    cases hid
  | receipt o new haccept ho hpr =>
    refine iff_of_false ?_ (not_not.2 (.inr ⟨new, haccept⟩))
    rintro ⟨s, hs, hid⟩
    rw [List.mem_singleton.1 hs] at hid
    obtain ho | ho := ho <;> rw [hid] at ho <;> cases ho

/-! ### What is accepted of a client that keeps to the rules -/

theorem clientDataError_of {n : ℕ} (hn : packetBytes X.packet.toNat = .ok n)
    (hlt : msg.data.length < n) (hne : msg.data.length ≠ 0) (hps : msg.ps = X.clientPs)
    (hwindow : seqInRange msg.ps.toNat X.peerPr.toNat
      (windowEnd X.peerPr.toNat X.window.toNat) = true)
    (hpr : seqInRange msg.pr.toNat X.clientPr.toNat X.peerPs.toNat = true) :
    clientDataError X msg = .ok none := by
  refine bind_of_eq_ok hn ?_
  rw [if_neg (not_le.2 hlt), if_neg hne,
    if_neg (not_or.2 ⟨not_not.2 hps, not_not.2 hwindow⟩), if_neg (not_not.2 hpr)]
  rfl

/-- The number of the last packet, or that of one before it. -/
theorem acks_last_iff {a w : ℕ} (hL : Direction X Y L w) (hw : w < SEQ_MAX) (hlo : L.acked ≤ a)
    (hhi : a ≤ L.sent) :
    (0 < L.sent ∧ a % SEQ_MAX = L.sent % SEQ_MAX) ↔ ¬ a ≤ L.sent - 1 := by
  have hbound := hL.bound
  simp only [SEQ_MAX] at *
  constructor
  · rintro ⟨hpos, hmod⟩
    omega
  · intro hlast
    obtain rfl : a = L.sent := by omega
    exact ⟨by omega, rfl⟩

/-- **What is accepted** of a client that keeps to the rules. -/
theorem Conforms.accepts_iff (h : Conforms X₁ L B msg) (hs : X₁.state = .d1FlowControlReady)
    (hflow : IsFlow msg) (hout : Direction X₁ Y₁ L X₁.window.toNat)
    (hback : Direction Y₁ X₁ B Y₁.window.toNat) (hX : windowRngchk X₁.window.toNat = 0)
    (hY : windowRngchk Y₁.window.toNat = 0) : Accepts X₁ msg ↔ ¬ Oversteps X₁ B msg := by
  obtain ⟨a, hlo, hhi, hpr⟩ := h.pr
  have hwY := (window_range hY).2
  have hvalid : seqInRange msg.pr.toNat X₁.clientPr.toNat X₁.peerPs.toNat = true ↔
      ¬ (0 < B.sent ∧ msg.pr.toNat = B.sent % SEQ_MAX) := by
    rw [hpr, hback.pr_in_range_iff hwY hlo hhi, acks_last_iff hback hwY hlo hhi, not_not]
  constructor
  · rintro (⟨hid, -, hdata⟩ | ⟨new, haccept⟩) (⟨hid', hfull⟩ | hlast)
    · obtain ⟨⟨n, hn, hlt⟩, -⟩ := clientDataError_eq_none hdata
      obtain rfl := Except.ok.inj (hn.symm.trans hfull)
      exact lt_irrefl _ hlt
    · exact hvalid.1 (clientDataError_eq_none hdata).2.2.2.2 hlast
    · obtain ⟨hid, -⟩ | ⟨hid, -⟩ := haccept.kind <;> rw [hid] at hid' <;> cases hid'
    · exact hvalid.1 haccept.valid hlast
  · intro hnot
    obtain ⟨hfull, hlast⟩ := not_or.1 hnot
    have hin := hvalid.2 hlast
    obtain hid | hid | hid := hflow
    · obtain ⟨hne, n, hn, hle⟩ := h.size hid
      have hlt : msg.data.length < n := by
        refine lt_of_le_of_ne hle ?_
        rintro rfl
        exact hfull ⟨hid, hn⟩
      have hps : msg.ps = X₁.clientPs := UInt16.toNat_inj.1 ((h.ps hid).trans hout.ps.symm)
      have hwindow := (hout.in_window_iff hX).2 (h.room hid)
      rw [← h.ps hid] at hwindow
      exact .inl ⟨hid, hs, clientDataError_of hn hlt hne hps hwindow hin⟩
    · exact .inr ⟨_, .inl ⟨hid, rfl⟩, hs, hin⟩
    · exact .inr ⟨_, .inr ⟨hid, rfl⟩, hs, hin⟩

/-! ### Runs -/

/-- **How far the conversation is.** Before a reset the counters agree with the accounts, and
after it nothing is sent any more. -/
inductive Phase (x y : ℕ) (rs : List Exchange) (X Y : JzChannel) : Prop
  | talking (hX : X.state = .d1FlowControlReady) (hY : Y.state = .d1FlowControlReady)
      (hquiet : ∀ r ∈ rs, ¬ r.Resets)
      (hout : Direction X Y (account x y rs) X.window.toNat)
      (hback : Direction Y X (account y x rs) Y.window.toNat)
  | ended (hX : X.state = .d3ServerResetIndication) (hY : Y.state = .d3ServerResetIndication)
      (hreset : ∃ r ∈ rs, r.Resets)
      (hout : (account x y rs).outstanding ≤ X.window.toNat)
      (hback : (account y x rs).outstanding ≤ Y.window.toNat)

/-- The channel has got the window and the packet size of `X`. -/
structure Sized (X X₁ : JzChannel) : Prop where
  window : X₁.window = X.window
  packet : X₁.packet = X.packet

theorem Sized.trans (h : Sized X X₁) (h' : Sized X₁ X') : Sized X X' :=
  ⟨h'.window.trans h.window, h'.packet.trans h.packet⟩

/-- What holds along a conversation that began with the channels `X` and `Y`. -/
structure FlowInv (x y : ℕ) (X Y : JzChannel) (rs : List Exchange) (σ : Server) : Prop where
  registered : σ.Registered
  channels : ∃ X₁ Y₁, Pair σ x y X₁ Y₁ ∧ Sized X X₁ ∧ Sized Y Y₁ ∧ Phase x y rs X₁ Y₁

theorem Phase.symm (h : Phase x y rs X Y) : Phase y x rs Y X := by
  cases h with
  | talking hX hY hquiet hout hback => exact .talking hY hX hquiet hback hout
  | ended hX hY hreset hout hback => exact .ended hY hX hreset hback hout

theorem FlowInv.symm (h : FlowInv x y X Y rs σ) : FlowInv y x Y X rs σ := by
  obtain ⟨hσ, X₁, Y₁, hpair, hX, hY, hphase⟩ := h
  exact ⟨hσ, Y₁, X₁, hpair.symm, hY, hX, hphase.symm⟩

theorem FlowEffect.sized (h : FlowEffect x y X Y msg X' Y' sent) : Sized X X' ∧ Sized Y Y' := by
  cases h with
  | refused | data | receipt => exact ⟨⟨rfl, rfl⟩, ⟨rfl, rfl⟩⟩

/-- **One exchange** before a reset. -/
theorem FlowEffect.phase (h : FlowEffect x y X Y r.msg X' Y' r.sent) (hne : x ≠ y)
    (hX : X.state = .d1FlowControlReady) (hY : Y.state = .d1FlowControlReady)
    (hquiet : ∀ r ∈ rs, ¬ r.Resets) (hout : Direction X Y (account x y rs) X.window.toNat)
    (hback : Direction Y X (account y x rs) Y.window.toNat)
    (hwX : windowRngchk X.window.toNat = 0) (hwY : windowRngchk Y.window.toNat = 0)
    (hpr : Accepts X r.msg → r.msg.pr.toNat ≤ SEQ_MAX) : Phase x y (rs ++ [r]) X' Y' := by
  have hquiet' (haccept : Accepts X r.msg) : ∀ r' ∈ rs ++ [r], ¬ r'.Resets := by
    refine List.forall_mem_append.2 ⟨hquiet, List.forall_mem_singleton.2 fun hreset => ?_⟩
    exact h.resets_iff.1 hreset haccept
  have hltY := (window_range hwY).2
  generalize hsent : r.sent = sent at h
  cases h with
  | refused now o p hrefuse ho hp =>
    have hsame (z w : ℕ) : account z w (rs ++ [r]) = account z w rs := by
      simp [tally, hsent, IsFlow, ho, hp]
    refine .ended rfl rfl ⟨r, List.mem_concat_self, ?_⟩ ?_ ?_
    · exact ⟨⟨X.parent, some x, o⟩, by rw [hsent]; exact List.mem_cons_self, ho⟩
    · rw [hsame]
      exact hout.within.outstanding_le
    · rw [hsame]
      exact hback.within.outstanding_le
  | data haccept =>
    obtain ⟨-, -, hps, hwindow, hin⟩ := clientDataError_eq_none haccept.2.2
    have hself : account x y (rs ++ [r]) = (account x y rs).send := by
      simp [tally, hsent, dataFor, jzMsgNewData]
    have hother : account y x (rs ++ [r]) =
        (account y x rs).ack SEQ_MAX (r.msg.pr.toNat % SEQ_MAX) := by
      simp [tally, hsent, dataFor, jzMsgNewData, IsFlow, hne.symm]
    rw [hps, hout.ps] at hwindow
    refine .talking hX hY (hquiet' (.inl haccept)) ?_ ?_
    · rw [hself]
      exact hout.send hps ((hout.in_window_iff hwX).1 hwindow)
    · rw [hother]
      exact hback.ack hltY (hpr (.inl haccept)) hin rfl rfl rfl rfl
  | receipt o new haccept ho hopr =>
    have hself : account x y (rs ++ [r]) = account x y rs := by
      obtain ho | ho := ho <;> simp [tally, hsent, ho, hne.symm]
    have hother : account y x (rs ++ [r]) =
        (account y x rs).ack SEQ_MAX (r.msg.pr.toNat % SEQ_MAX) := by
      obtain ho | ho := ho <;> simp [tally, hsent, ho, IsFlow, hopr]
    refine .talking hX hY (hquiet' (.inr ⟨new, haccept⟩)) ?_ ?_
    · rw [hself]
      exact hout.congr rfl rfl rfl rfl
    · rw [hother]
      exact hback.ack hltY (hpr (.inr ⟨new, haccept⟩)) haccept.valid rfl rfl rfl rfl

/-- The channel that gets a message is the one that is there. -/
theorem Event.Gives.eq {e : Event} (hσ : σ.Registered) (hX : σ.heap.get? x = some X)
    (h : e.Gives σ x X' msg) : X = X' := by
  cases e with
  | connect | badMessage | corrupt | hangup | tick | rehash => exact h.elim
  | message now i m =>
    obtain ⟨-, -, ⟨-, hX'⟩ | ⟨-, rfl, -⟩⟩ := h
    · exact Option.some.inj (hX.symm.trans hX')
    · rw [hσ.next_eq_none] at hX
      cases hX

/-- A message of the client of `x`. -/
theorem FlowInv.own_step (h : FlowInv x y X Y rs σ) (hwX : windowRngchk X.window.toNat = 0)
    (hwY : windowRngchk Y.window.toNat = 0) (hstep : (conversation x y).Step σ r σ')
    (hr : r.channel = x) (hstray : ¬ r.Strays σ) : FlowInv x y X Y (rs ++ [r]) σ' := by
  obtain ⟨hσ, X₁, Y₁, hpair, hX₁, hY₁, hphase⟩ := h
  obtain ⟨-, hflow, hsent, e, Z, hgives, hstep⟩ := hstep
  rw [hr] at hgives
  have hσ' := hσ.step hstep
  obtain rfl := hgives.eq hσ hpair.own
  have hne : x ≠ y := hσ.ne_of_peer hpair.own hpair.peer
  cases hphase with
  | talking hX hY hquiet hout hback =>
    obtain ⟨X', Y', heff, hpair'⟩ := flow_step hσ hpair hX hY hflow hgives hstep
    rw [← hsent] at heff
    obtain ⟨hX', hY'⟩ := heff.sized
    refine ⟨hσ', X', Y', hpair', hX₁.trans hX', hY₁.trans hY', ?_⟩
    refine heff.phase hne hX hY hquiet hout hback (hX₁.window ▸ hwX) (hY₁.window ▸ hwY) ?_
    intro haccept
    exact not_lt.1 fun hlt => hstray ⟨hlt, X₁, hr ▸ hpair.own, haccept⟩
  | ended hX hY hreset hout hback =>
    obtain ⟨hpair', hnone⟩ := flow_ignored hσ hpair hX hflow hgives hstep
    have hsame (z w : ℕ) : account z w (rs ++ [r]) = account z w rs := by
      simp [tally, hsent, hnone]
    obtain ⟨r', hr', hresets⟩ := hreset
    exact ⟨hσ', X₁, Y₁, hpair', hX₁, hY₁, .ended hX hY
      ⟨r', List.mem_append_left _ hr', hresets⟩ (by rw [hsame]; exact hout)
      (by rw [hsame]; exact hback)⟩

theorem conversation_comm : (conversation x y).Step σ r σ' ↔ (conversation y x).Step σ r σ' :=
  and_congr_left fun _ => or_comm

/-- **One exchange.** -/
theorem FlowInv.step (h : FlowInv x y X Y rs σ) (hwX : windowRngchk X.window.toNat = 0)
    (hwY : windowRngchk Y.window.toNat = 0) (hstep : (conversation x y).Step σ r σ')
    (hstray : ¬ r.Strays σ) : FlowInv x y X Y (rs ++ [r]) σ' := by
  obtain hr | hr := hstep.1
  · exact h.own_step hwX hwY hstep hr hstray
  · exact (h.symm.own_step hwY hwX (conversation_comm.1 hstep) hr hstray).symm

theorem FlowStart.inv (h : FlowStart σ x y X Y) (hσ : σ.Registered) : FlowInv x y X Y [] σ :=
  ⟨hσ, X, Y, h.pair, ⟨rfl, rfl⟩, ⟨rfl, rfl⟩, .talking h.state h.stateBack
    (fun _ hr => absurd hr List.not_mem_nil) (.start h.fresh h.freshBack)
    (.start h.freshBack h.fresh)⟩

/-- **The window bounds the outstanding packets.** -/
theorem FlowInv.account_bounded (h : FlowInv x y X Y rs σ) :
    (account x y rs).outstanding ≤ X.window.toNat := by
  obtain ⟨-, X₁, Y₁, -, hX, -, hphase⟩ := h
  rw [← hX.window]
  cases hphase with
  | talking _ _ _ hout => exact hout.within.outstanding_le
  | ended _ _ _ hout => exact hout

theorem Conforms.sized (h : Conforms X L B msg) (hX : Sized X X₁) : Conforms X₁ L B msg where
  pr := h.pr
  size hid := by rw [hX.packet]; exact h.size hid
  ps := h.ps
  room hid := by rw [hX.window]; exact h.room hid

/-- **What is reset** of a client that keeps to the rules. -/
theorem FlowInv.resets_iff (h : FlowInv x y X Y rs σ) (hwX : windowRngchk X.window.toNat = 0)
    (hwY : windowRngchk Y.window.toNat = 0) (hstep : (conversation x y).Step σ r σ')
    (hr : r.channel = x) (hquiet : ∀ r ∈ rs, ¬ r.Resets)
    (hconform : Conforms X (account x y rs) (account y x rs) r.msg) :
    r.Resets ↔ Oversteps X (account y x rs) r.msg := by
  obtain ⟨hσ, X₁, Y₁, hpair, hX₁, hY₁, hphase⟩ := h
  obtain ⟨-, hflow, hsent, e, Z, hgives, hstep⟩ := hstep
  rw [hr] at hgives
  obtain rfl := hgives.eq hσ hpair.own
  cases hphase with
  | talking hX hY _ hout hback =>
    obtain ⟨X', Y', heff, -⟩ := flow_step hσ hpair hX hY hflow hgives hstep
    have haccepts := (hconform.sized hX₁).accepts_iff hX hflow hout hback (hX₁.window ▸ hwX)
      (hY₁.window ▸ hwY)
    have hoversteps : Oversteps X₁ (account y x rs) r.msg ↔
        Oversteps X (account y x rs) r.msg := by
      rw [Oversteps, hX₁.packet, Oversteps]
    rw [Exchange.Resets, hsent, heff.resets_iff, haccepts, not_not, hoversteps]
  | ended _ _ hreset =>
    obtain ⟨r', hr', hresets⟩ := hreset
    exact absurd hresets (hquiet r' hr')

/-- The conversation as long as no acknowledgement is accepted with a number that there is
not. -/
def properConversation (x y : ℕ) : Lts Server Exchange :=
  (conversation x y).restrict fun σ r => ¬ r.Strays σ

theorem flowInv_of_run (hreach : serverSystem.Reachable σ₀) (hstart : FlowStart σ₀ x y X Y)
    (hwX : windowRngchk X.window.toNat = 0) (hwY : windowRngchk Y.window.toNat = 0)
    (hrun : (properConversation x y).Run σ₀ rs σ) : FlowInv x y X Y rs σ := by
  refine Lts.Run.history (FlowInv x y X Y) (hstart.inv (registered_of_reachable hreach)) ?_ hrun
  rintro past τ r τ' hI ⟨hstray, hstep⟩
  exact hI.step hwX hwY hstep hstray

/-- The messages of the client of `x` keep to the rules, and none oversteps the checks. -/
def Behaves (x y : ℕ) (X : JzChannel) (rs : List Exchange) : Prop :=
  ∀ past r later, rs = past ++ r :: later → r.channel = x →
    Conforms X (account x y past) (account y x past) r.msg ∧
      ¬ Oversteps X (account y x past) r.msg

/-- **Flow control.** Two clients talk from the beginning of data transfer with windows that
`windowRngchk` accepts, and no acknowledgement above `SEQ_MAX` is accepted. In each direction
there are never more packets outstanding than the window allows. Before the first reset, a
message of a client that keeps to the rules resets the call if and only if it oversteps the
checks. If both clients keep to the rules and overstep nothing, there is no reset. -/
theorem flow_control (hreach : serverSystem.Reachable σ₀) (hstart : FlowStart σ₀ x y X Y)
    (hwX : windowRngchk X.window.toNat = 0) (hwY : windowRngchk Y.window.toNat = 0)
    (hrun : (properConversation x y).Run σ₀ rs σ) :
    ((account x y rs).outstanding ≤ X.window.toNat ∧
        (account y x rs).outstanding ≤ Y.window.toNat) ∧
      (∀ past r later, rs = past ++ r :: later → r.channel = x → (∀ r' ∈ past, ¬ r'.Resets) →
        Conforms X (account x y past) (account y x past) r.msg →
        (r.Resets ↔ Oversteps X (account y x past) r.msg)) ∧
      (Behaves x y X rs → Behaves y x Y rs → ∀ r ∈ rs, ¬ r.Resets) := by
  have hinv := flowInv_of_run hreach hstart hwX hwY hrun
  refine ⟨⟨hinv.account_bounded, hinv.symm.account_bounded⟩, ?_, fun hbehaves hback => ?_⟩
  · rintro past r later rfl hr hquiet hconform
    obtain ⟨σ₁, hpast, hrest⟩ := hrun.split
    obtain ⟨σ₂, hstep, -⟩ := Lts.Run.cons_iff.1 hrest
    exact (flowInv_of_run hreach hstart hwX hwY hpast).resets_iff hwX hwY hstep.2 hr hquiet
      hconform
  · -- By induction on the exchanges so far, of which the last one is looked at.
    suffices hpast : ∀ past later, rs = past ++ later → ∀ r ∈ past, ¬ r.Resets from
      hpast rs [] (List.append_nil rs).symm
    intro past
    induction past using List.reverseRecOn with
    | nil => exact fun _ _ r hr => absurd hr List.not_mem_nil
    | append_singleton past r ih =>
      intro later hsplit
      have hsplit' : rs = past ++ r :: later := by rw [hsplit, List.append_assoc]; rfl
      have hquiet := ih (r :: later) hsplit'
      refine List.forall_mem_append.2 ⟨hquiet, List.forall_mem_singleton.2 fun hreset => ?_⟩
      rw [hsplit'] at hrun
      obtain ⟨σ₁, hpast, hrest⟩ := hrun.split
      obtain ⟨σ₂, hstep, -⟩ := Lts.Run.cons_iff.1 hrest
      have hinv₁ := flowInv_of_run hreach hstart hwX hwY hpast
      obtain hr | hr := hstep.2.1
      · obtain ⟨hconform, hnot⟩ := hbehaves past r later hsplit' hr
        exact hnot ((hinv₁.resets_iff hwX hwY hstep.2 hr hquiet hconform).1 hreset)
      · obtain ⟨hconform, hnot⟩ := hback past r later hsplit' hr
        exact hnot ((hinv₁.symm.resets_iff hwY hwX (conversation_comm.1 hstep.2) hr hquiet
          hconform).1 hreset)

/-- The server after the events. -/
def afterEvents (es : List Event) : Server :=
  (({} : Server).play es).getD {}

/-- The first packet of a call. -/
theorem flow_control_talk : ∃ σ rs, (properConversation 0 1).Run (afterEvents talkEvents) rs σ ∧
    rs.length = 1 ∧ (account 0 1 rs).outstanding ≤ 2 := by
  have hplay : ({} : Server).play talkEvents = some (afterEvents talkEvents) := rfl
  have hstart : FlowStart (afterEvents talkEvents) 0 1 _ _ :=
    ⟨⟨rfl, rfl, rfl, rfl⟩, rfl, rfl, ⟨rfl, rfl, rfl, rfl⟩, ⟨rfl, rfl, rfl, rfl⟩⟩
  have hgives : Event.Gives (afterEvents talkEvents) 0 _ firstData (.message 0 0 firstData) :=
    ⟨rfl, ⟨⟨_, rfl, rfl⟩, rfl, rfl⟩, .inl ⟨⟨_, rfl, rfl⟩, rfl⟩⟩
  have hstep : serverSystem.Step (afterEvents talkEvents) (.message 0 0 firstData)
      (afterEvents (talkEvents ++ [.message 0 0 firstData])) := ⟨⟨_, rfl, rfl⟩, rfl⟩
  have hstray : ¬ Exchange.Strays (afterEvents talkEvents) ⟨0, firstData,
      (afterEvents (talkEvents ++ [.message 0 0 firstData])).sent⟩ :=
    fun h => absurd h.1 (by decide)
  have hrun := Lts.Run.single (T := properConversation 0 1)
    ⟨hstray, .inl rfl, .inl rfl, rfl, _, _, hgives, hstep⟩
  exact ⟨_, _, hrun, rfl,
    (flow_control (reachable_of_play hplay) hstart (by decide) (by decide) hrun).1.1⟩

/-- `A` calls `B` with a window that allows nothing, and `B` accepts. -/
def closedEvents : List Event :=
  [.connect, .connect,
    .message 0 0 (jzMsgNewConnect (some (.ofBytes [65])) 0),
    .message 0 1 (jzMsgNewConnect (some (.ofBytes [66])) 0),
    .message 0 0 (jzMsgNewCallRequest 1 (some (.ofBytes [65])) (some (.ofBytes [66])) 6 0 10 []),
    .message 0 1 (jzMsgNewCallAccepted 1 (some (.ofBytes [65])) (some (.ofBytes [66])) 6 0 10 [])]

/-- **The window 0 bounds nothing.** The first packet of the call is passed on. -/
theorem flow_control_unbounded : ¬ ∀ σ₀ x y X Y rs σ, serverSystem.Reachable σ₀ →
    FlowStart σ₀ x y X Y → seqRngchk X.window.toNat = 0 → (conversation x y).Run σ₀ rs σ →
    (account x y rs).outstanding ≤ X.window.toNat := by
  intro hclaim
  have hplay : ({} : Server).play closedEvents = some (afterEvents closedEvents) := rfl
  have hstart : FlowStart (afterEvents closedEvents) 0 1 _ _ :=
    ⟨⟨rfl, rfl, rfl, rfl⟩, rfl, rfl, ⟨rfl, rfl, rfl, rfl⟩, ⟨rfl, rfl, rfl, rfl⟩⟩
  have hgives : Event.Gives (afterEvents closedEvents) 0 _ firstData (.message 0 0 firstData) :=
    ⟨rfl, ⟨⟨_, rfl, rfl⟩, rfl, rfl⟩, .inl ⟨⟨_, rfl, rfl⟩, rfl⟩⟩
  have hstep : serverSystem.Step (afterEvents closedEvents) (.message 0 0 firstData)
      (afterEvents (closedEvents ++ [.message 0 0 firstData])) := ⟨⟨_, rfl, rfl⟩, rfl⟩
  have hrun : (conversation 0 1).Run (afterEvents closedEvents) [⟨0, firstData,
      (afterEvents (closedEvents ++ [.message 0 0 firstData])).sent⟩] _ :=
    .single ⟨.inl rfl, .inl rfl, rfl, _, _, hgives, hstep⟩
  have hbound := hclaim _ 0 1 _ _ _ _ (reachable_of_play hplay) hstart rfl hrun
  revert hbound
  decide

end

end Application10
end Jozabad
