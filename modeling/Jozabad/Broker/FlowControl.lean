import Jozabad.Broker.Call
import Jozabad.Lib.Window

/-!
# Flow control on a call

In data transfer both sides send `DATA`, `RR` and `RNR`. Each direction has a true
account, its `Ledger`: how many packets the broker has forwarded in it, and up to
which count they are acknowledged. `ledger` computes it from the record of the
conversation alone.

`FlowInv` ties the account to the channel: the four counters of the channel are the
residues of the counts, and no more than a fixed number of packets is outstanding.
What the two range checks of the channel mean for the counts is said by two lemmas:

* `pr_in_range_iff`: a PR is in range exactly if it acknowledges a count between the
  acknowledged one and the one sent;
* `in_window_iff`: a PS is in the window exactly if fewer than `window` packets are
  outstanding, or if exactly `window` are and the lowest number that the peer accepts
  lies within `window` of the wrap-around. The end of the window is taken modulo
  `SEQ_MAX` where the numbers run modulo `SEQ_MAX + 1`, and that admits one more
  packet there.

With one packet more than the window allows there are still fewer packets
outstanding than numbers, so acknowledgements stay sound (`acknowledgement_sound`),
while the bound itself holds as long as no step is one of those (`window_bound`).
-/

namespace Jozabad
namespace Broker

open JozaMsg Cyclic

/-! ### The range checks and the counts -/

/-- Between valid numbers the range check compares distances round the circle. -/
theorem seqInRange_iff {x lo hi : ℕ} (hx : x ≤ SEQ_MAX) (hlo : lo ≤ SEQ_MAX) (hhi : hi ≤ SEQ_MAX) :
    seqInRange x lo hi = true ↔ dist (SEQ_MAX + 1) lo x ≤ dist (SEQ_MAX + 1) lo hi :=
  seqInRange_iff_dist (Nat.lt_succ_of_le hx) (Nat.lt_succ_of_le hlo) (Nat.lt_succ_of_le hhi)

section Counts

variable {L : Ledger} {w p : ℕ}

/-- **The PR check.** -/
theorem pr_in_range_iff (hL : L.Within w) (hw : w ≤ SEQ_MAX) (hp : p ≤ SEQ_MAX) :
    seqInRange p (L.acked % (SEQ_MAX + 1)) (L.sent % (SEQ_MAX + 1)) = true ↔
      ∃ a, L.acked ≤ a ∧ a ≤ L.sent ∧ p = a % (SEQ_MAX + 1) := by
  have hacked : L.acked % (SEQ_MAX + 1) ≤ SEQ_MAX := by
    have := Nat.mod_lt L.acked (show 0 < SEQ_MAX + 1 by decide)
    omega
  have hsent : L.sent % (SEQ_MAX + 1) ≤ SEQ_MAX := by
    have := Nat.mod_lt L.sent (show 0 < SEQ_MAX + 1 by decide)
    omega
  rw [seqInRange_iff hp hacked hsent, hL.dist_eq (by omega)]
  exact hL.acknowledges_iff (by omega) (by omega)

/-- **The window check.** -/
theorem in_window_iff (hmin : WINDOW_MIN ≤ w) (hmax : w ≤ WINDOW_MAX) (hL : L.Within (w + 1)) :
    seqInRange (L.sent % (SEQ_MAX + 1)) (L.acked % (SEQ_MAX + 1))
        (windowEnd (L.acked % (SEQ_MAX + 1)) w) = true ↔
      L.outstanding < w ∨ L.outstanding = w ∧ SEQ_MAX < L.acked % (SEQ_MAX + 1) + w := by
  have hle := hL.le
  have hbound := hL.bound
  rw [windowEnd_of_pos hmin]
  simp only [Ledger.outstanding, WINDOW_MIN, WINDOW_MAX, SEQ_MAX] at *
  unfold seqInRange
  split_ifs <;> simp <;> omega

end Counts

/-! ### Accounts of a conversation -/

/-- A message of the data-transfer phase. -/
def IsFlow (m : JozaMsg) : Prop :=
  m.id = .data ∨ m.id = .rr ∨ m.id = .rnr

instance (m : JozaMsg) : Decidable (IsFlow m) :=
  inferInstanceAs (Decidable (_ ∨ _))

/-- The call as long as its workers send nothing but `DATA`, `RR` and `RNR`. -/
def flowSystem : Lts Channel Receipt :=
  callSystem.restrict fun _ r => IsFlow r.msg

/-- The beginning of data transfer: all counters are zero, and the window is one that
may be negotiated. -/
structure FlowStart (c : Channel) : Prop where
  state : c.state = .dataTransfer
  xps : c.xps = 0
  xpr : c.xpr = 0
  yps : c.yps = 0
  ypr : c.ypr = 0
  window_min : WINDOW_MIN ≤ c.window
  window_max : c.window ≤ WINDOW_MAX

/-- Enter one receipt in the account of the direction in which side `dir` sends data. A
forwarded `DATA` of that side counts as sent; whatever is forwarded from the other side
acknowledges. -/
def tally (dir : Bool) (L : Ledger) (r : Receipt) : Ledger :=
  r.outs.foldl (fun L o =>
    if r.isY = dir then if o.id = .data then L.send else L
    else if IsFlow o then L.ack (SEQ_MAX + 1) o.pr.toNat else L) L

/-- The account of one direction. -/
def ledger (dir : Bool) (rs : List Receipt) : Ledger :=
  rs.foldl (tally dir) {}

variable {c c' : Channel} {r : Receipt} {rs : List Receipt} {dir isY : Bool} {sock : Sock}
  {M o : JozaMsg} {outs : List JozaMsg} {w k : ℕ}

@[simp] theorem ledger_snoc : ledger dir (rs ++ [r]) = tally dir (ledger dir rs) r := by
  simp [ledger]

theorem tally_diagnostic {L : Ledger} {A : Frame} {C : Cause} {D : Diag}
    (h : r.outs = [diagnostic A C D]) : tally dir L r = L := by
  simp [tally, h, diagnostic, IsFlow]

theorem tally_self {L : Ledger} (h : r.outs = [o]) (hdir : r.isY = dir) :
    tally dir L r = if o.id = .data then L.send else L := by
  simp [tally, h, hdir]

theorem tally_other {L : Ledger} (h : r.outs = [o]) (hdir : r.isY ≠ dir) (ho : IsFlow o) :
    tally dir L r = L.ack (SEQ_MAX + 1) o.pr.toNat := by
  simp [tally, h, hdir, ho]

theorem acked_le_tally {L : Ledger} : L.acked ≤ (tally dir L r).acked := by
  unfold tally
  induction r.outs generalizing L with
  | nil => exact le_rfl
  | cons o os ih =>
    rw [List.foldl_cons]
    refine le_trans ?_ ih
    split_ifs
    · exact le_rfl
    · exact le_rfl
    · exact Ledger.le_ack_acked
    · exact le_rfl

/-! ### A step of data transfer -/

/-- In data transfer, a message of this phase is refused, or its data is forwarded, or
its acknowledgement is. -/
theorem flow_cases (hs : c.state = .dataTransfer) (hM : IsFlow M)
    (h : Effect c sock M isY c' outs) :
    (c' = c ∧ ∃ C D, outs = [diagnostic (c.selfZaddr isY) C D]) ∨
      (M.id = .data ∧ DataAdmitted c M isY ∧
        c' = c.setSelf isY ((c.selfPs isY + 1) % (SEQ_MAX + 1)) M.pr.toNat ∧
        outs = [sendAddrData (c.otherZaddr isY) M.q M.pr M.ps M.data]) ∨
      (M.id ≠ .data ∧ seqInRange M.pr.toNat (c.selfPr isY) (c.otherPs isY) = true ∧
        c' = c.setSelf isY (c.selfPs isY) M.pr.toNat ∧
        ∃ o, outs = [o] ∧ IsFlow o ∧ o.id ≠ .data ∧ o.pr = M.pr) := by
  -- The cells of the three message types in this state hold no other action.
  have hcell : actionTable c.state M.id.code isY ≠ .discard ∧
      actionTable c.state M.id.code isY ≠ .reset ∧ actionTable c.state M.id.code isY ≠ .clear := by
    rw [hs]
    rcases hM with hid | hid | hid <;> rw [hid] <;> cases isY <;> decide
  cases h with
  | discard ha => exact absurd ha hcell.1
  | reset ha _ => exact absurd ha hcell.2.1
  | clear ha => exact absurd ha hcell.2.2
  | refused C D _ => exact .inl ⟨rfl, C, D, rfl⟩
  | data hid _ hM => exact .inr (.inl ⟨hid, hM, rfl, rfl⟩)
  | rr hid _ hpr =>
    exact .inr (.inr ⟨by simp [hid], hpr, rfl, _, rfl, .inr (.inl rfl), by simp [sendAddrRr], rfl⟩)
  | rnr hid _ hpr =>
    exact .inr (.inr ⟨by simp [hid], hpr, rfl, _, rfl, .inr (.inr rfl), by simp [sendAddrRnr], rfl⟩)
  | disconnect hid | disconnectFailed hid | collision _ hid | accepted _ hid | clearRequested hid
      | resetRequested hid =>
    -- These are the effects of other messages.
    rcases hM with h | h | h <;> rw [h] at hid <;> cases hid
  | clearConfirmed _ hs' | resetConfirmed hs' =>
    rw [hs] at hs'
    cases isY <;> cases hs'

/-- **The channel agrees with the accounts.** The counters are the residues of the
counts, and at most `k` packets are outstanding in each direction. -/
structure FlowInv (w k : ℕ) (rs : List Receipt) (c : Channel) : Prop where
  state : c.state = .dataTransfer
  window : c.window = w
  ps : ∀ dir, c.selfPs dir = (ledger dir rs).sent % (SEQ_MAX + 1)
  pr : ∀ dir, c.otherPr dir = (ledger dir rs).acked % (SEQ_MAX + 1)
  within : ∀ dir, (ledger dir rs).Within k

namespace FlowInv

theorem start (h : FlowStart c) : FlowInv c.window k [] c where
  state := h.state
  window := rfl
  ps dir := by cases dir <;> simp [Channel.selfPs, h.xps, h.yps, ledger]
  pr dir := by cases dir <;> simp [Channel.otherPr, h.xpr, h.ypr, ledger]
  within _ := Ledger.within_zero

/-- What the window check says of the account. -/
theorem in_window_iff (hI : FlowInv w k rs c) (hmin : WINDOW_MIN ≤ w) (hmax : w ≤ WINDOW_MAX)
    (hk : k ≤ w + 1) (isY : Bool) :
    seqInRange (c.selfPs isY) (c.otherPr isY) (windowEnd (c.otherPr isY) c.window) = true ↔
      (ledger isY rs).outstanding < w ∨
        (ledger isY rs).outstanding = w ∧ SEQ_MAX < c.otherPr isY + w := by
  rw [hI.window, hI.ps isY, hI.pr isY]
  exact Broker.in_window_iff hmin hmax ((hI.within isY).mono hk)

/-- What the PR check says of the account. -/
theorem pr_in_range_iff {p : ℕ} (hI : FlowInv w k rs c) (hk : k ≤ SEQ_MAX) (hp : p ≤ SEQ_MAX)
    (dir : Bool) :
    seqInRange p (c.otherPr dir) (c.selfPs dir) = true ↔
      ∃ a, (ledger dir rs).acked ≤ a ∧ a ≤ (ledger dir rs).sent ∧ p = a % (SEQ_MAX + 1) := by
  rw [hI.ps dir, hI.pr dir]
  exact Broker.pr_in_range_iff (hI.within dir) hk hp

/-- An acknowledgement that passes the PR check keeps the account in bounds. -/
theorem within_ack {p : ℕ} (hI : FlowInv w k rs c) (dir : Bool) (hk : k ≤ SEQ_MAX)
    (hp : p ≤ SEQ_MAX) (hpr : seqInRange p (c.otherPr dir) (c.selfPs dir) = true) :
    ((ledger dir rs).ack (SEQ_MAX + 1) p).Within k := by
  refine (hI.within dir).ack ?_
  rw [(hI.within dir).acknowledges_iff (Nat.lt_succ_of_le hk) (Nat.lt_succ_of_le hp)]
  exact (hI.pr_in_range_iff hk hp dir).1 hpr

/-- Writing the counters of a side keeps the invariant, if what the side sends next is
the residue of its account and what it accepts next is an acknowledgement in range. -/
theorem setSelf {p ps : ℕ} {L : Ledger} (hI : FlowInv w k rs c) (hk : k ≤ SEQ_MAX)
    (hp : p ≤ SEQ_MAX) (hpr : seqInRange p (c.selfPr isY) (c.otherPs isY) = true)
    (hself : ledger isY (rs ++ [r]) = L) (hps : ps = L.sent % (SEQ_MAX + 1))
    (hacked : L.acked = (ledger isY rs).acked) (hL : L.Within k)
    (hother : ledger (!isY) (rs ++ [r]) = (ledger (!isY) rs).ack (SEQ_MAX + 1) p) :
    FlowInv w k (rs ++ [r]) (c.setSelf isY ps p) := by
  have hack := hI.within_ack (!isY) hk hp (by simpa using hpr)
  refine ⟨by simpa using hI.state, by simpa using hI.window, fun dir => ?_, fun dir => ?_,
    fun dir => ?_⟩
  · -- Each clause is shown for the direction of the side, then for the other one.
    rcases Bool.eq_or_eq_not dir isY with rfl | rfl
    · rw [hself, Channel.setSelf_selfPs, hps]
    · rw [hother, Ledger.ack_sent, ← hI.ps]
      simp
  · rcases Bool.eq_or_eq_not dir isY with rfl | rfl
    · rw [hself, hacked, ← hI.pr]
      simp
    · rw [hother, Ledger.ack_acked_mod (Nat.lt_succ_of_le hp)]
      simp
  · rcases Bool.eq_or_eq_not dir isY with rfl | rfl
    · rw [hself]
      exact hL
    · rw [hother]
      exact hack

/-- **One step.** The invariant survives a step of data transfer, provided that data is
admitted only where there is room for it. -/
theorem step (hI : FlowInv w k rs c) (hk : k ≤ SEQ_MAX) (hstep : flowSystem.Step c r c')
    (hroom : r.msg.id = .data → prevalidateMessage r.msg = .unspecified →
      DataAdmitted c r.msg r.isY → (ledger r.isY rs).outstanding < k) :
    FlowInv w k (rs ++ [r]) c' := by
  obtain ⟨hflow, hstep⟩ := hstep
  -- A refusal leaves the channel and both accounts as they are.
  have hrefused : ∀ {A C D}, c' = c → r.outs = [diagnostic A C D] →
      FlowInv w k (rs ++ [r]) c' := by
    intro A C D hc houts
    have hledger : ∀ dir, ledger dir (rs ++ [r]) = ledger dir rs := fun dir => by
      rw [ledger_snoc, tally_diagnostic houts]
    subst hc
    exact ⟨hI.state, hI.window, fun dir => by rw [hledger, hI.ps],
      fun dir => by rw [hledger, hI.pr], fun dir => by rw [hledger]; exact hI.within dir⟩
  rcases callSystem_step_cases hstep with ⟨-, hc, houts⟩ | ⟨hpre, heff⟩
  · exact hrefused hc houts
  have hprle : r.msg.pr.toNat ≤ SEQ_MAX := (prevalidated_of_unspecified hpre).pr_le hflow
  rcases flow_cases hI.state hflow heff with
    ⟨hc, C, D, houts⟩ | ⟨hid, hadm, rfl, houts⟩ | ⟨hid, hpr, rfl, o, houts, ho, hodata, hopr⟩
  · exact hrefused hc houts
  · -- Data of one side is sent in its own direction and acknowledges the other one.
    have hself : ledger r.isY (rs ++ [r]) = (ledger r.isY rs).send := by
      rw [ledger_snoc, tally_self houts rfl]
      exact if_pos rfl
    have hother : ledger (!r.isY) (rs ++ [r]) =
        (ledger (!r.isY) rs).ack (SEQ_MAX + 1) r.msg.pr.toNat := by
      rw [ledger_snoc, tally_other houts (by simp) (.inl rfl)]
      rfl
    refine hI.setSelf hk hprle hadm.pr_in_range hself ?_ rfl
      ((hI.within r.isY).send (hroom hid hpre hadm)) hother
    rw [hI.ps, Ledger.send_sent, Nat.mod_add_mod]
  · -- An acknowledgement counts in the direction of the peer alone.
    have hself : ledger r.isY (rs ++ [r]) = ledger r.isY rs := by
      rw [ledger_snoc, tally_self houts rfl, if_neg hodata]
    have hother : ledger (!r.isY) (rs ++ [r]) =
        (ledger (!r.isY) rs).ack (SEQ_MAX + 1) r.msg.pr.toNat := by
      rw [ledger_snoc, tally_other houts (by simp) ho, hopr]
    exact hI.setSelf hk hprle hpr hself (hI.ps r.isY) rfl (hI.within r.isY) hother

end FlowInv

/-- At most one packet more than the window allows is outstanding, whatever the two
sides send. -/
theorem flowInv_of_run {c₀ : Channel} (hstart : FlowStart c₀) (hrun : flowSystem.Run c₀ rs c) :
    FlowInv c₀.window (c₀.window + 1) rs c := by
  have hmax := hstart.window_max
  refine Lts.Run.history (FlowInv c₀.window (c₀.window + 1)) (.start hstart) ?_ hrun
  intro past c r c' hI hstep
  have hk : c₀.window + 1 ≤ SEQ_MAX := by
    simp only [WINDOW_MAX, SEQ_MAX] at hmax ⊢
    omega
  refine hI.step hk hstep fun _ _ hadm => ?_
  have hwin := hadm.in_window
  rw [hadm.ps_eq, hI.in_window_iff hstart.window_min hmax le_rfl] at hwin
  omega

/-! ### Runs of an open call -/

/-- A call at the beginning of data transfer, with a window of seven packets. -/
def wideCall : Channel :=
  { newCall with state := .dataTransfer }

theorem wideCall_start : FlowStart wideCall := by
  constructor <;> decide

/-- A conversation of `DATA`, `RR` and `RNR` is a run of data transfer. -/
theorem replay_flow {inputs : List (Bool × JozaMsg × Sock)}
    (h : replay c inputs = .ok (c', rs)) (hflow : ∀ input ∈ inputs, IsFlow input.2.1) :
    flowSystem.Run c rs c' := by
  refine (replay_run h).restrict fun r hr _ => ?_
  have hmem : r.msg ∈ inputs.map (·.2.1) := by
    rw [← replay_msgs h]
    exact List.mem_map_of_mem hr
  obtain ⟨input, hinput, heq⟩ := List.mem_map.1 hmem
  exact heq ▸ hflow input hinput

/-! ### Acknowledgements -/

/-- **Acknowledgements are sound.** In every state of data transfer, a PR from the
receiver of a direction passes the broker's check exactly if it acknowledges a count
between the one acknowledged so far and the one forwarded; the acknowledged count does
not run ahead of the forwarded one, and no step takes it back. -/
theorem acknowledgement_sound {c₀ c : Channel} {rs : List Receipt} (hstart : FlowStart c₀)
    (hrun : flowSystem.Run c₀ rs c) (dir : Bool) :
    (ledger dir rs).acked ≤ (ledger dir rs).sent ∧
      (∀ p ≤ SEQ_MAX, seqInRange p (c.selfPr !dir) (c.otherPs !dir) = true ↔
        ∃ a, (ledger dir rs).acked ≤ a ∧ a ≤ (ledger dir rs).sent ∧ p = a % (SEQ_MAX + 1)) ∧
      ∀ r c', flowSystem.Step c r c' →
        (ledger dir rs).acked ≤ (ledger dir (rs ++ [r])).acked ∧
          (ledger dir (rs ++ [r])).acked ≤ (ledger dir (rs ++ [r])).sent := by
  have hI := flowInv_of_run hstart hrun
  have hmax := hstart.window_max
  have hk : c₀.window + 1 ≤ SEQ_MAX := by
    simp only [WINDOW_MAX, SEQ_MAX] at hmax ⊢
    omega
  refine ⟨(hI.within dir).le, fun p hp => ?_, fun r c' hstep => ⟨?_, ?_⟩⟩
  · rw [Channel.selfPr_not, Channel.otherPs_not]
    exact hI.pr_in_range_iff hk hp dir
  · rw [ledger_snoc]
    exact acked_le_tally
  · exact ((flowInv_of_run hstart (hrun.append (.single hstep))).within dir).le

/-- With two packets forwarded and none acknowledged, two may be acknowledged. -/
theorem acknowledgement_sound_wideCall : ∃ c rs, replay wideCall [xData 0, xData 1] = .ok (c, rs) ∧
    (seqInRange 2 (c.selfPr true) (c.otherPs true) = true ↔
      ∃ a, (ledger false rs).acked ≤ a ∧ a ≤ (ledger false rs).sent ∧ 2 = a % (SEQ_MAX + 1)) := by
  have hok : ((replay wideCall [xData 0, xData 1]).toOption.map fun _ => ()) = some () := by
    decide +kernel
  obtain ⟨⟨c, rs⟩, hreplay, -⟩ := toOption_map_eq_some hok
  have hrun := replay_flow hreplay (by decide)
  exact ⟨c, rs, hreplay, (acknowledgement_sound wideCall_start hrun false).2.1 2 (by decide)⟩

/-! ### The window bound -/

/-- A `DATA` message that is valid but for its place in the window. -/
structure ValidButWindow (c : Channel) (M : JozaMsg) (isY : Bool) : Prop where
  id : M.id = .data
  prevalidated : prevalidateMessage M = .unspecified
  length_le : ∃ bytes, packetBytes c.pkt = .ok bytes ∧ M.data.length ≤ bytes
  ps_eq : M.ps.toNat = c.selfPs isY
  pr_in_range : seqInRange M.pr.toNat (c.selfPr isY) (c.otherPs isY) = true

/-- The broker's answer to data outside the window. -/
def windowRefusal (c : Channel) (isY : Bool) : List JozaMsg :=
  [diagnostic (c.selfZaddr isY) .localProcedureError .psNotInWindow]

/-- Valid data that fills a window whose end is computed past the wrap-around: as many
packets as the window allows are outstanding already, and the lowest number that the
peer accepts lies within `window` of the end of the numbers. -/
def Overruns (c : Channel) (M : JozaMsg) (isY : Bool) : Prop :=
  ValidButWindow c M isY ∧
    dist (SEQ_MAX + 1) (c.otherPr isY) (c.selfPs isY) = c.window ∧
    SEQ_MAX < c.otherPr isY + c.window

/-- A message that is valid but for its place in the window is refused because of the
window or forwarded, as the check of the window says. -/
theorem ValidButWindow.cases (hs : c.state = .dataTransfer) (hM : ValidButWindow c M isY)
    (hstep : callRecv c sock M isY = .ok (c', outs)) :
    (seqInRange (c.selfPs isY) (c.otherPr isY) (windowEnd (c.otherPr isY) c.window) = false ∧
        outs = windowRefusal c isY) ∨
      (seqInRange (c.selfPs isY) (c.otherPr isY) (windowEnd (c.otherPr isY) c.window) = true ∧
        outs = [sendAddrData (c.otherZaddr isY) M.q M.pr M.ps M.data]) := by
  unfold callRecv at hstep
  rw [if_neg (not_not.2 hM.prevalidated), channelDispatch_data hs hM.id] at hstep
  obtain ⟨_, _, hstep⟩ := bind_eq_ok hstep
  obtain ⟨⟨ps, pr, outs'⟩, hdata, hstep⟩ := bind_eq_ok hstep
  cases hstep
  obtain ⟨bytes, hbytes, hlen⟩ := hM.length_le
  unfold doIData at hdata
  simp only [hbytes, hM.ps_eq, hM.pr_in_range] at hdata
  obtain ⟨_, hb, hdata⟩ := bind_eq_ok hdata
  cases hb
  rw [if_neg (not_lt.2 hlen), if_neg (not_not.2 rfl)] at hdata
  -- All other checks are passed, so that the window decides.
  cases hwin : seqInRange (c.selfPs isY) (c.otherPr isY) (windowEnd (c.otherPr isY) c.window) with
  | false =>
    rw [hwin] at hdata
    cases hdata
    exact .inl ⟨rfl, rfl⟩
  | true =>
    rw [hwin] at hdata
    cases hdata
    exact .inr ⟨rfl, rfl⟩

theorem windowRefusal_ne_data {A : Frame} {q : UInt8} {pr ps : UInt16} {data : Frame} :
    [sendAddrData A q pr ps data] ≠ windowRefusal c isY := by
  simp [windowRefusal, sendAddrData, diagnostic]

/-- Data that the channel admits is valid. -/
theorem DataAdmitted.validButWindow (h : DataAdmitted c M isY) (hid : M.id = .data)
    (hpre : prevalidateMessage M = .unspecified) : ValidButWindow c M isY :=
  ⟨hid, hpre, h.length_le, h.ps_eq, h.pr_in_range⟩

namespace FlowInv

/-- Overrunning in terms of the account. -/
theorem overruns_iff (hI : FlowInv w k rs c) (hk : k ≤ SEQ_MAX) (hM : ValidButWindow c M isY) :
    Overruns c M isY ↔
      (ledger isY rs).outstanding = w ∧ SEQ_MAX < c.otherPr isY + w := by
  have hdist : dist (SEQ_MAX + 1) (c.otherPr isY) (c.selfPs isY) = (ledger isY rs).outstanding := by
    rw [hI.pr, hI.ps]
    exact (hI.within isY).dist_eq (Nat.lt_succ_of_le hk)
  unfold Overruns
  rw [hdist, hI.window]
  exact ⟨fun h => h.2, fun h => ⟨hM, h⟩⟩

end FlowInv

/-- Data transfer without a step that overruns the window. -/
def boundedSystem : Lts Channel Receipt :=
  flowSystem.restrict fun c r => ¬ Overruns c r.msg r.isY

theorem flowInv_of_bounded_run {c₀ : Channel} (hstart : FlowStart c₀)
    (hrun : boundedSystem.Run c₀ rs c) : FlowInv c₀.window c₀.window rs c := by
  have hmax := hstart.window_max
  have hk : c₀.window ≤ SEQ_MAX := hmax.trans (by decide)
  refine Lts.Run.history (FlowInv c₀.window c₀.window) (.start hstart) ?_ hrun
  rintro past c r c' hI ⟨hno, hstep⟩
  refine hI.step hk hstep fun hid hpre hadm => ?_
  have hwin := hadm.in_window
  rw [hadm.ps_eq, hI.in_window_iff hstart.window_min hmax (Nat.le_succ _)] at hwin
  rcases hwin with hlt | hfull
  · exact hlt
  · -- The window is full, so this packet would overrun it.
    exact absurd ((hI.overruns_iff hk (hadm.validButWindow hid hpre)).2 hfull) hno

/-- **The window bound.** In every run without a step that overruns the window, each
direction has at most `window` packets outstanding. In every state of such a run, the
answer to a message that is valid but for its place in the window is the one the bound
calls for, a refusal exactly if `window` packets are outstanding, if and only if the
message does not overrun the window; a message that does is forwarded, and exceeds the
bound. -/
theorem window_bound {c₀ c : Channel} {rs : List Receipt} (hstart : FlowStart c₀)
    (hrun : boundedSystem.Run c₀ rs c) :
    (∀ dir, (ledger dir rs).outstanding ≤ c₀.window) ∧
      ∀ r c', flowSystem.Step c r c' → ValidButWindow c r.msg r.isY →
        ((r.outs = windowRefusal c r.isY ↔ (ledger r.isY rs).outstanding = c₀.window) ↔
            ¬ Overruns c r.msg r.isY) ∧
          (Overruns c r.msg r.isY →
            (ledger r.isY (rs ++ [r])).outstanding = c₀.window + 1) := by
  have hI := flowInv_of_bounded_run hstart hrun
  have hk : c₀.window ≤ SEQ_MAX := hstart.window_max.trans (by decide)
  refine ⟨fun dir => (hI.within dir).outstanding_le, fun r c' hstep hM => ?_⟩
  have hbound := hI.within r.isY
  have hcheck := hI.in_window_iff hstart.window_min hstart.window_max (Nat.le_succ _) r.isY
  rw [hI.overruns_iff hk hM]
  rcases hM.cases hI.state hstep.2 with ⟨hwin, houts⟩ | ⟨hwin, houts⟩
  · -- Refused: the window is full, and its end is computed right.
    rw [hwin, Bool.false_eq_true, false_iff] at hcheck
    have hle := hbound.outstanding_le
    refine ⟨?_, fun hover => absurd (.inr hover) hcheck⟩
    simp only [houts, true_iff]
    omega
  · -- Forwarded: there is room, or the window is overrun.
    rw [hwin] at hcheck
    have hok := hcheck.1 rfl
    refine ⟨?_, fun hover => ?_⟩
    · simp only [houts, windowRefusal_ne_data, false_iff]
      omega
    · have hsent : ledger r.isY (rs ++ [r]) = (ledger r.isY rs).send := by
        rw [ledger_snoc, tally_self houts rfl]
        exact if_pos rfl
      have hle := hbound.le
      have hfull := hover.1
      simp only [Ledger.outstanding] at hfull
      simp only [hsent, Ledger.outstanding, Ledger.send_sent, Ledger.send_acked]
      omega

/-- X sends two packets, Y acknowledges both, and X sends eight more. -/
def overrunningInputs : List (Bool × JozaMsg × Sock) :=
  [xData 0, xData 1, (true, { id := .rr, pr := 2 }, {}), xData 2, xData 3, xData 4, xData 5,
    xData 6, xData 7, xData 8, xData 0]

/-- Eight packets are then outstanding in a window of seven. -/
theorem window_bound_exceeded : ¬ ∀ (c₀ c : Channel) (rs : List Receipt), FlowStart c₀ →
    flowSystem.Run c₀ rs c → ∀ dir, (ledger dir rs).outstanding ≤ c₀.window := by
  intro hall
  have hcount : ((replay wideCall overrunningInputs).toOption.map fun p =>
      (ledger false p.2).outstanding) = some 8 := by decide +kernel
  obtain ⟨⟨c, rs⟩, hreplay, hout⟩ := toOption_map_eq_some hcount
  have hbound := hall _ _ _ wideCall_start (replay_flow hreplay (by decide)) false
  rw [hout] at hbound
  exact absurd hbound (by decide)

/-- The bound on a call with one packet outstanding. -/
theorem window_bound_wideCall : ∃ c rs, replay wideCall [xData 0] = .ok (c, rs) ∧
    ∀ dir, (ledger dir rs).outstanding ≤ 7 := by
  have hok : ((replay wideCall [xData 0]).toOption.map fun _ => ()) = some () := by decide +kernel
  obtain ⟨⟨c, rs⟩, hreplay, -⟩ := toOption_map_eq_some hok
  have hno : ¬ Overruns wideCall (xData 0).2.1 false := fun h => absurd h.2.1 (by decide)
  have hrun : boundedSystem.Run wideCall rs c := by
    obtain ⟨⟨c₁, outs⟩, hrecv, hreplay⟩ := bind_eq_ok hreplay
    cases hreplay
    exact .single ⟨hno, .inl rfl, hrecv⟩
  exact ⟨c, rs, hreplay, (window_bound wideCall_start hrun).1⟩

end Broker
end Jozabad
