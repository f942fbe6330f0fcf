import Jozabad.Application10.Delivery

/-!
# The sequence counters of joined channels

Each of two joined channels counts what it has let through, and what the other side has
passed on to it. The counts are meant to mirror each other. But a channel that accepts
`DATA` counts on to the next number, and its peer notes the number of the packet itself. So
the mirror holds as long as no `DATA` is accepted since the last reset (`Event.AcceptsData`),
and the first packet breaks it.

* `counter_mirror`: in every run in which no step accepts `DATA`, or acts through a stale
  pointer, the counters of joined channels in `D1` mirror each other, and the receiver of
  `DATA`, `RR` or `RNR` fails no assertion. Any step that passes on `DATA` breaks the mirror.
* `counter_mirror_broken`: a run of two clients with one `DATA` message.
-/

namespace Jozabad
namespace Application10

/-! ### Counters that have not been used -/

/-- All counters are zero. -/
structure JzChannel.Fresh (X : JzChannel) : Prop where
  clientPs : X.clientPs = 0
  clientPr : X.clientPr = 0
  peerPs : X.peerPs = 0
  peerPr : X.peerPr = 0

section

variable {now x : ℕ} {X X' Y : JzChannel} {msg : JzMsg} {as : List Act} {σ σ' : Server}

/-- Only zero lies between zero and zero. -/
theorem eq_zero_of_inRange {pr lo hi : UInt16} (hlo : lo = 0) (hhi : hi = 0)
    (h : seqInRange pr.toNat lo.toNat hi.toNat = true) : pr = 0 := by
  subst hlo hhi
  have hzero : pr.toNat = 0 := by
    by_contra hne
    simp [seqInRange, Ne.symm hne] at h
  exact UInt16.toNat_inj.1 hzero

/-- Server messages other than `DATA` count nothing. -/
theorem JzChannel.Fresh.server {out : Option JzMsg} (h : ServerEffect now X msg X' out)
    (hid : msg.id ≠ .data) (hX : X.Fresh) : X'.Fresh := by
  cases h with
  | clear | incomingCall | collision | confirmClear | reset | ignored =>
    exact ⟨hX.clientPs, hX.clientPr, hX.peerPs, hX.peerPr⟩
  | connected | confirmReset => exact ⟨rfl, rfl, rfl, rfl⟩
  | data hid' => exact absurd hid' hid
  | rr _ _ hpr | rnr _ _ hpr =>
    exact ⟨hX.clientPs, hX.clientPr, hX.peerPs, eq_zero_of_inRange hX.peerPr hX.clientPs hpr⟩

/-- The act keeps fresh channels fresh, on both sides. -/
def Act.SparesCounters (a : Act) : Prop :=
  a.KeepsOwn JzChannel.Fresh ∧ a.KeepsOther JzChannel.Fresh

theorem own_fresh {f : JzChannel → JzChannel} (h : ∀ X : JzChannel, X.Fresh → (f X).Fresh) :
    (Act.own f).SparesCounters :=
  ⟨h, trivial⟩

theorem other_fresh {f : JzChannel → JzChannel} (h : ∀ X : JzChannel, X.Fresh → (f X).Fresh) :
    (Act.other f).SparesCounters :=
  ⟨trivial, h⟩

theorem self_fresh (hid : msg.id ≠ .data) : (Act.self msg).SparesCounters :=
  ⟨fun _ _ _ _ heff hX => hX.server heff hid, trivial⟩

theorem tell_fresh {f : JzChannel → JzMsg} (hid : ∀ Y, (f Y).id ≠ .data) :
    (Act.tell f).SparesCounters :=
  ⟨trivial, fun _ Y _ _ heff hY => hY.server heff (hid Y)⟩

/-- A write to something else than the counters. -/
theorem uncounted {f : JzChannel → JzChannel}
    (h : ∀ X : JzChannel, (f X).clientPs = X.clientPs ∧ (f X).clientPr = X.clientPr ∧
      (f X).peerPs = X.peerPs ∧ (f X).peerPr = X.peerPr) :
    ∀ X : JzChannel, X.Fresh → (f X).Fresh := by
  intro X hX
  obtain ⟨hps, hpr, hps', hpr'⟩ := h X
  exact ⟨hps.trans hX.clientPs, hpr.trans hX.clientPr, hps'.trans hX.peerPs,
    hpr'.trans hX.peerPr⟩

theorem punishClearActs_fresh {lcn : UInt16} {cause : ClearCause} {diagnostic : Diag} :
    ∀ a ∈ punishClearActs lcn cause diagnostic, a.SparesCounters :=
  List.forall_mem_cons.2 ⟨self_fresh (by rintro ⟨⟩), List.forall_mem_cons.2
    ⟨other_fresh (uncounted fun _ => ⟨rfl, rfl, rfl, rfl⟩),
      List.forall_mem_singleton.2 (tell_fresh (by rintro _ ⟨⟩))⟩⟩

theorem punishResetActs_fresh {lcn : UInt16} {cause : ResetCause} {diagnostic : Diag} :
    ∀ a ∈ punishResetActs lcn cause diagnostic, a.SparesCounters :=
  List.forall_mem_cons.2 ⟨self_fresh (by rintro ⟨⟩),
    List.forall_mem_singleton.2 (tell_fresh (by rintro _ ⟨⟩))⟩

theorem timerActs_fresh (s : ChannelState) : ∀ a ∈ timerActs s, a.SparesCounters := by
  have hreset {original : ChannelState} {timerType : JzChannelTimerType} :
      ∀ a ∈ [resetTimerAct original timerType], a.SparesCounters := by
    refine List.forall_mem_singleton.2 (own_fresh (uncounted fun X => ?_))
    split
    · exact ⟨rfl, rfl, rfl, rfl⟩
    · exact ⟨rfl, rfl, rfl, rfl⟩
  -- Three states have a timer to reset, the others have no acts.
  cases s with
  | p3ServerWaiting | d3ServerResetIndication | p7ServerClearIndication => exact hreset
  | p1Ready | p2ClientWaiting | p5CallCollision | p6ClientClearRequest | d1FlowControlReady
    | d2ClientResetRequest => exact fun _ h => absurd h List.not_mem_nil

/-- The script of an acknowledgement of nothing. -/
theorem receiptActs_fresh {new : UInt16 → UInt16 → JzMsg} (hnew : ∀ lcn pr, (new lcn pr).id ≠ .data)
    (hpr : msg.pr = 0) : ∀ a ∈ receiptActs new msg, a.SparesCounters :=
  List.forall_mem_cons.2 ⟨own_fresh fun _ hX => ⟨hX.clientPs, hpr, hX.peerPs, hX.peerPr⟩,
    List.forall_mem_singleton.2 (tell_fresh fun _ => hnew _ _)⟩

theorem MessageScript.spares (hscript : MessageScript X msg as) (hdata : ¬ AcceptsData X msg)
    (hX : X.Fresh) : ∀ a ∈ as ++ timerActs X.state, a.SparesCounters := by
  refine List.forall_mem_append.2 ⟨?_, timerActs_fresh X.state⟩
  -- A write that does not touch the counters keeps them at zero.
  have hown {f : JzChannel → JzChannel} (h : ∀ X : JzChannel, (f X).clientPs = X.clientPs ∧
      (f X).clientPr = X.clientPr ∧ (f X).peerPs = X.peerPs ∧ (f X).peerPr = X.peerPr) :
      (Act.own f).SparesCounters := own_fresh (uncounted h)
  cases hscript with
  | ignored => exact fun _ h => absurd h List.not_mem_nil
  | clear =>
    exact List.forall_mem_cons.2 ⟨tell_fresh (by rintro _ ⟨⟩),
      List.forall_mem_singleton.2 (hown fun _ => ⟨rfl, rfl, rfl, rfl⟩)⟩
  | punishClear => exact punishClearActs_fresh
  | punishReset => exact punishResetActs_fresh
  | accept =>
    exact List.forall_mem_cons.2 ⟨hown fun _ => ⟨rfl, rfl, rfl, rfl⟩,
      List.forall_mem_cons.2 ⟨tell_fresh (by rintro _ ⟨⟩), List.forall_mem_singleton.2
        (own_fresh fun _ _ => ⟨rfl, rfl, rfl, rfl⟩)⟩⟩
  | collide =>
    exact List.forall_mem_cons.2 ⟨hown fun _ => ⟨rfl, rfl, rfl, rfl⟩,
      List.forall_mem_cons.2 ⟨tell_fresh (by rintro _ ⟨⟩), List.forall_mem_singleton.2
        (hown fun _ => ⟨rfl, rfl, rfl, rfl⟩)⟩⟩
  | confirmClear => exact List.forall_mem_singleton.2 (hown fun _ => ⟨rfl, rfl, rfl, rfl⟩)
  | reset =>
    exact List.forall_mem_cons.2 ⟨hown fun _ => ⟨rfl, rfl, rfl, rfl⟩,
      List.forall_mem_singleton.2 (tell_fresh (by rintro _ ⟨⟩))⟩
  | confirmReset =>
    exact List.forall_mem_cons.2 ⟨own_fresh fun _ _ => ⟨rfl, rfl, rfl, rfl⟩,
      List.forall_mem_singleton.2 (tell_fresh (by rintro _ ⟨⟩))⟩
  | data hid hs hvalid => exact absurd ⟨hid, hs, hvalid⟩ hdata
  -- What is acknowledged lies between zero and zero.
  | rr _ _ hvalid | rnr _ _ hvalid =>
    exact receiptActs_fresh (by rintro _ _ ⟨⟩) (eq_zero_of_inRange hX.clientPr hX.peerPs hvalid)

/-! ### All channels -/

theorem ExpiryScript.spares (hscript : ExpiryScript X as) : ∀ a ∈ as, a.SparesCounters := by
  have hcount : countAct.SparesCounters := own_fresh (uncounted fun _ => ⟨rfl, rfl, rfl, rfl⟩)
  -- The expiration is counted, and then the channel is punished or set ready.
  cases hscript with
  | incomingCall =>
    exact List.forall_mem_cons.2 ⟨hcount, List.forall_mem_cons.2
      ⟨own_fresh (uncounted fun _ => ⟨rfl, rfl, rfl, rfl⟩), punishClearActs_fresh⟩⟩
  | firstReset => exact List.forall_mem_cons.2 ⟨hcount, punishResetActs_fresh⟩
  | lastReset | firstClear => exact List.forall_mem_cons.2 ⟨hcount, punishClearActs_fresh⟩
  | lastClear =>
    exact List.forall_mem_cons.2 ⟨hcount, List.forall_mem_cons.2
      ⟨other_fresh (uncounted fun _ => ⟨rfl, rfl, rfl, rfl⟩), List.forall_mem_cons.2
        ⟨own_fresh (uncounted fun _ => ⟨rfl, rfl, rfl, rfl⟩),
          List.forall_mem_singleton.2 ⟨trivial, trivial⟩⟩⟩⟩

theorem restartActs_fresh {cause : ClearCause} {diagnostic : UInt8} :
    ∀ a ∈ restartActs cause diagnostic, a.SparesCounters :=
  List.forall_mem_cons.2 ⟨own_fresh (uncounted fun _ => ⟨rfl, rfl, rfl, rfl⟩),
    List.forall_mem_cons.2 ⟨other_fresh (uncounted fun _ => ⟨rfl, rfl, rfl, rfl⟩),
      List.forall_mem_cons.2 ⟨tell_fresh (by rintro _ ⟨⟩), List.forall_mem_singleton.2
        (own_fresh (uncounted fun _ => ⟨rfl, rfl, rfl, rfl⟩))⟩⟩⟩

theorem fresh_kept : Kept JzChannel.Fresh where
  new _ _ := ⟨rfl, rfl, rfl, rfl⟩
  calling _ _ _ _ hX := ⟨hX.clientPs, hX.clientPr, hX.peerPs, hX.peerPr⟩
  called _ _ _ _ _ := ⟨rfl, rfl, rfl, rfl⟩
  expiry _ _ hscript := .of_acts hscript.spares
  restart _ _ _ := .of_acts restartActs_fresh

/-- A step accepts `DATA`. -/
def Event.AcceptsData (σ : Server) (e : Event) : Prop :=
  ∃ x X msg, e.Gives σ x X msg ∧ Application10.AcceptsData X msg

/-- **In every run** in which no `DATA` is accepted all counters stay at zero. -/
theorem fresh_of_reachable
    (h : (serverSystem.restrict fun σ e => ¬ e.AcceptsData σ).Reachable σ) :
    σ.Every JzChannel.Fresh := by
  refine h.invariant (fun σ => σ.Every JzChannel.Fresh) ?_ ?_
  · rintro σ rfl x X hX
    cases hX
  · rintro σ e σ' hreach hσ ⟨hok, hstep⟩
    refine fresh_kept.step (registered_of_reachable hreach.of_restrict) ?_ hstep hσ
    intro x X msg as hgives hscript now y d d' hown hnone hd hrun
    have hX : X.Fresh := hown ▸ hd.own
    -- Since no data is accepted, the script of the message spares the counters.
    have hspares := hscript.spares (fun haccept => hok ⟨x, X, msg, hgives, haccept⟩) hX
    exact ScriptKeeps.of_acts hspares now y d d' hown hnone hd hrun

/-! ### The mirror -/

/-- **The counters mirror each other**: what one channel has let through is what has been
passed on to the other. -/
structure Mirrors (X Y : JzChannel) : Prop where
  ps : X.clientPs = Y.peerPs
  pr : X.clientPr = Y.peerPr
  psBack : Y.clientPs = X.peerPs
  prBack : Y.clientPr = X.peerPr

theorem JzChannel.Fresh.mirrors (hX : X.Fresh) (hY : Y.Fresh) : Mirrors X Y where
  ps := hX.clientPs.trans hY.peerPs.symm
  pr := hX.clientPr.trans hY.peerPr.symm
  psBack := hY.clientPs.trans hX.peerPs.symm
  prBack := hY.clientPr.trans hX.peerPr.symm

/-- The first packet of a call is taken. -/
theorem fresh_takes (hX : X.Fresh) (hY : Y.Fresh) (hfacilities : X.facilities = Y.facilities)
    (haccept : AcceptsData X msg) : TakesData Y msg := by
  obtain ⟨⟨n, hn, hlt⟩, -, -, hwindow, -⟩ := clientDataError_eq_none haccept.2.2
  simp only [JzChannel.facilities, Prod.mk.injEq] at hfacilities
  obtain ⟨hw, -, hp⟩ := hfacilities
  refine ⟨⟨n, by rw [← hp, hn], hlt.le⟩, ?_⟩
  rw [hX.peerPr, hw] at hwindow
  rw [hY.peerPr, hwindow]

/-- An acknowledgement that is accepted is taken. -/
theorem fresh_takesReceipt (hX : X.Fresh) (hY : Y.Fresh) (new : UInt16 → UInt16 → JzMsg)
    (hnew : ∀ lcn pr, (new lcn pr).pr = pr)
    (hvalid : seqInRange msg.pr.toNat X.clientPr.toNat X.peerPs.toNat = true) :
    ∃ r, Y.takeReceipt new (new msg.lcn msg.pr) = .ok r := by
  have hpr : msg.pr = 0 := eq_zero_of_inRange hX.clientPr hX.peerPs hvalid
  refine ⟨_, bind_of_eq_ok (a := ()) ?_ rfl⟩
  rw [hnew, hpr, hY.peerPr, hY.clientPs]
  rfl

/-- No number is its own successor. -/
theorem succ_ne (n : UInt16) : UInt16.ofNat ((n.toNat + 1) % SEQ_MAX) ≠ n := by
  intro h
  have hlt : (n.toNat + 1) % SEQ_MAX < SEQ_MAX := Nat.mod_lt _ (by decide)
  have hval := congrArg UInt16.toNat h
  simp only [SEQ_MAX] at hlt hval
  rw [UInt16.toNat_ofNat_of_lt' (by simp only [UInt16.size]; omega)] at hval
  omega

/-- Data that is accepted and passed on breaks the mirror. -/
theorem accepted_breaks {e : Event} {y : ℕ} (hσ : σ.Registered) (hgives : e.Gives σ x X msg)
    (haccept : AcceptsData X msg) (hxy : X.peer = some y) (hY : σ.heap.get? y = some Y)
    (hs : Y.state = .d1FlowControlReady) (hstep : serverSystem.Step σ e σ') :
    ∃ X' Y', σ'.heap.get? x = some X' ∧ σ'.heap.get? y = some Y' ∧ ¬ Mirrors X' Y' := by
  obtain ⟨now, Y', out, heff, hX', hY', -⟩ := accepted_step hσ hgives haccept hxy hY hstep
  obtain ⟨rfl, -⟩ := heff.takes_data hs
  refine ⟨_, _, hX', hY', fun hmirrors => ?_⟩
  have hps : msg.ps = X.clientPs := (clientDataError_eq_none haccept.2.2).2.2.1
  exact succ_ne X.clientPs (hmirrors.ps.trans hps)

/-- The message of the event, if it has one, is neither a clear request nor `DATA`. -/
def Event.silent : Event → Bool
  | .message _ _ msg => msg.id ≠ .clearRequest ∧ msg.id ≠ .data
  | _ => true

theorem reachable_of_silent {es : List Event} (h : ({} : Server).play es = some σ)
    (hes : ∀ e ∈ es, e.silent = true) :
    (serverSystem.restrict fun σ e => ¬ e.AcceptsData σ ∧ ¬ e.UsesStale σ).Reachable σ := by
  -- Events that are silent neither clear a call nor deliver data.
  have hrun : (serverSystem.restrict fun σ e =>
      ¬ e.ClearsJoined σ ∧ ¬ e.AcceptsData σ).Reachable σ := by
    refine (Lts.Reachable.init rfl).run ((run_of_play h).restrict fun e he τ => ?_)
    have hsilent := hes e he
    refine ⟨Event.not_clearsJoined ?_, ?_⟩
    · cases e with
      | message now i m => exact decide_eq_true (of_decide_eq_true hsilent).1
      | connect | badMessage | corrupt | hangup | tick | rehash => rfl
    · rintro ⟨x, X, msg, hgives, hid, -⟩
      cases e with
      | message now i m =>
        obtain rfl : m = msg := hgives.1
        exact (of_decide_eq_true hsilent).2 hid
      | connect | badMessage | corrupt | hangup | tick | rehash => exact hgives
  refine hrun.restrict_mono fun τ e hτ hok => ⟨hok.2, ?_⟩
  exact (mutual_of_reachable (hτ.restrict_mono fun _ _ _ hok => hok.1)).1.not_usesStale e

/-- **The counter mirror.** Let `X` and `Y` be joined and both in `D1`. If no step so far has
accepted `DATA` or acted through a stale pointer, their counters mirror each other, and a
`DATA`, `RR` or `RNR` that `X` accepts fails no assertion of `Y`. After any step that passes
on `DATA`, the mirror is broken. -/
theorem counter_mirror {y : ℕ} (hreach : serverSystem.Reachable σ) (hX : σ.heap.get? x = some X)
    (hY : σ.heap.get? y = some Y) (hxy : X.peer = some y) (hyx : Y.peer = some x)
    (hX₁ : X.state = .d1FlowControlReady) (hY₁ : Y.state = .d1FlowControlReady) :
    ((serverSystem.restrict fun σ e => ¬ e.AcceptsData σ ∧ ¬ e.UsesStale σ).Reachable σ →
      Mirrors X Y ∧
      ∀ msg, (AcceptsData X msg → ∃ r, jzChannelDoServerData Y (dataFor msg Y) = .ok r) ∧
        (seqInRange msg.pr.toNat X.clientPr.toNat X.peerPs.toNat = true →
          (∃ r, jzChannelDoServerRr Y (jzMsgNewRr msg.lcn msg.pr) = .ok r) ∧
          ∃ r, jzChannelDoServerRnr Y (jzMsgNewRnr msg.lcn msg.pr) = .ok r)) ∧
    ∀ e msg σ', e.Gives σ x X msg → AcceptsData X msg → serverSystem.Step σ e σ' →
      ∃ X' Y', σ'.heap.get? x = some X' ∧ σ'.heap.get? y = some Y' ∧ ¬ Mirrors X' Y' := by
  refine ⟨fun hquiet => ?_, fun e msg σ' hgives haccept hstep =>
    accepted_breaks (registered_of_reachable hreach) hgives haccept hxy hY hY₁ hstep⟩
  -- Without data all counters are zero, and the two channels have the same facilities.
  have hfresh := fresh_of_reachable (hquiet.restrict_mono fun _ _ _ hok => hok.1)
  have horder := inOrder_of_reachable (hquiet.restrict_mono fun _ _ _ hok => hok.2)
  have hfX := hfresh x X hX
  have hfY := hfresh y Y hY
  have hstep : InStep X Y := horder.agrees x y X Y ⟨.intro hX hxy, .intro hY hyx⟩ hX hY
  have hfacilities : X.facilities = Y.facilities := hstep.facilities_eq (by rw [hX₁]; rintro ⟨⟩)
  refine ⟨hfX.mirrors hfY, fun msg => ⟨fun haccept => ?_, fun hvalid => ⟨?_, ?_⟩⟩⟩
  · have hlength := (clientDataError_eq_none haccept.2.2).2.1
    exact ⟨_, doServerData_of_takes (fresh_takes hfX hfY hfacilities haccept) hlength⟩
  · exact fresh_takesReceipt hfX hfY jzMsgNewRr (fun _ _ => rfl) hvalid
  · exact fresh_takesReceipt hfX hfY jzMsgNewRnr (fun _ _ => rfl) hvalid

/-- The counters of a call that has just been accepted. -/
theorem counter_mirror_accepted : ∃ σ X Y, ({} : Server).play talkEvents = some σ ∧
    σ.heap.get? 0 = some X ∧ σ.heap.get? 1 = some Y ∧ Mirrors X Y := by
  have hplay : ({} : Server).play talkEvents = some _ := rfl
  have hquiet := reachable_of_silent hplay (by decide)
  have hmirror := counter_mirror (x := 0) (y := 1) (reachable_of_play hplay) rfl rfl rfl rfl rfl rfl
  exact ⟨_, _, _, hplay, rfl, rfl, (hmirror.1 hquiet).1⟩

/-- **The mirror is broken** by the first packet of a call. -/
theorem counter_mirror_broken : ∃ σ X Y, serverSystem.Reachable σ ∧
    σ.heap.get? 0 = some X ∧ σ.heap.get? 1 = some Y ∧ X.peer = some 1 ∧ Y.peer = some 0 ∧
    X.state = .d1FlowControlReady ∧ Y.state = .d1FlowControlReady ∧ X.clientPs ≠ Y.peerPs := by
  have hplay : ({} : Server).play (talkEvents ++ [.message 0 0 firstData]) = some _ := rfl
  exact ⟨_, _, _, reachable_of_play hplay, rfl, rfl, rfl, rfl, rfl, rfl, by decide⟩

end

end Application10
end Jozabad
