import Jozabad.Application10.PeerSymmetry

/-!
# The clear handshake

A client that clears a call is to get a `CLEAR_CONFIRMATION` once the other client has
answered. It never gets one for that answer. The clear takes the peer of the other channel
away, so the answer makes this channel ready and finds nobody to pass the confirmation to.
The channel of the client that asked stays in `P6`, or gets to another state by accident, but
never to `P1`.

No event brings a channel to `P1` that is not about this channel (`Enduring.step`), since a
timer that does it runs on a channel without a peer.

* `clear_never_completes`: the handshake is not completed in any run.
* `clear_left`: a run of two clients after which the first is still in `P6`.
-/

namespace Jozabad
namespace Application10

/-- There is a channel at `z`, and it has the property. -/
def Server.Has (σ : Server) (z : ℕ) (P : JzChannel → Prop) : Prop :=
  ∃ Z, σ.heap.get? z = some Z ∧ P Z

section

variable {σ σ₁ σ₂ σ₃ σ' : Server} {now x y z i j : ℕ} {lcn : UInt16} {X Y : JzChannel}
  {msg : JzMsg} {as : List Act} {e : Event} {P : JzChannel → Prop}

/-! ### What other channels cannot take away -/

theorem Server.Has.ne_next (hσ : σ.Registered) (h : σ.Has z P) : z ≠ σ.next := by
  obtain ⟨Z, hZ, -⟩ := h
  exact hσ.ne_next hZ

/-- A script of another channel, whose acts on the peer keep the property. -/
theorem Plays.has (h : Plays now x X as σ σ') (hzx : z ≠ x)
    (hkeeps : X.peer = some z → ∀ a ∈ as, a.KeepsOther P) (hz : σ.Has z P) : σ'.Has z P := by
  obtain ⟨Z, hZ, hPZ⟩ := hz
  obtain ⟨d, hd, hshows⟩ := h.shows
  -- The channel is the peer of the one that plays, or out of its reach.
  by_cases hpeer : X.peer = some z
  · obtain ⟨Z', hZ', -⟩ := h.touches.exists_get hZ
    refine ⟨Z', hZ', run_other (hkeeps hpeer) hd (fun Y hY => ?_) Z' ?_⟩
    · rw [Server.duo, hpeer, Option.bind_some, hZ] at hY
      exact Option.some.inj hY ▸ hPZ
    · rw [← hshows.other z hpeer, hZ']
  · exact ⟨Z, (hshows.frame z hzx hpeer).trans hZ, hPZ⟩

namespace Enduring

/-- A timer that sets the peer ready runs on a channel that has no peer. -/
theorem expiry_of_peer (hP : Enduring P) (hX : X.Timed) (hpeer : X.peer = some z)
    (h : ExpiryScript X as) : ∀ a ∈ as, a.KeepsOther P := by
  refine hP.expiry h (.inl fun htimer => ?_)
  rw [hX.alone (hX.state_of_clearIndication htimer)] at hpeer
  cases hpeer

theorem task {t : Task} (hP : Enduring P) (hσ : σ.Registered) (htimed : σ.Every JzChannel.Timed)
    (h : t.Does σ σ') (hne : t.channel ≠ some z) (hz : σ.Has z P) : σ'.Has z P := by
  cases t with
  | clients =>
    unfold Server.Has
    rw [h.heap]
    exact hz
  | timers now x =>
    have hzx : z ≠ x := fun hzx => hne (congrArg some hzx.symm)
    obtain rfl | ⟨X, as, hscript, hplays⟩ := timers_cases hσ h
    · exact hz
    · refine hplays.has hzx (fun hpeer => ?_) hz
      exact hP.expiry_of_peer (htimed x X hplays.found) hpeer hscript
  | remove cause now i lcn x diagnostic =>
    have hzx : z ≠ x := fun hzx => hne (congrArg some hzx.symm)
    obtain ⟨X, σ₁, -, hremoves⟩ := remove_cases hσ h
    obtain ⟨Z, hZ, hPZ⟩ := hremoves.plays.has hzx (fun _ => hP.restart) hz
    exact ⟨Z, (hremoves.removes.get_of_ne hzx).trans hZ, hPZ⟩

theorem works {xs : Set ℕ} (hP : Enduring P) (hσ : σ.Registered)
    (htimed : σ.Every JzChannel.Timed) (h : Works xs σ σ') (hnot : z ∉ xs) (hz : σ.Has z P) :
    σ'.Has z P := by
  obtain ⟨ts, hrun, hts⟩ := h
  induction hrun with
  | nil => exact hz
  | cons hstep _ ih =>
    rw [List.forall_mem_cons] at hts
    refine ih (hσ.task hstep) (timed_kept.task hσ hstep htimed) ?_ hts.2
    exact hP.task hσ htimed hstep (fun hzx => hnot (hts.1 z hzx)) hz

/-- A message to another channel. -/
theorem got (hP : Enduring P) (h : Got now x X msg σ e σ₁ σ') (hσ : σ.Registered) (hzx : z ≠ x)
    (hz : σ.Has z P) : σ'.Has z P := by
  -- If a channel is opened for the message, then at another place.
  have hz₁ : σ₁.Has z P := by
    obtain rfl | ⟨hopen, -⟩ := h.opened
    · exact hz
    · obtain ⟨Z, hZ, hPZ⟩ := hz
      exact ⟨Z, (hopen.get_of_ne (hσ.ne_next hZ)).trans hZ, hPZ⟩
  obtain ⟨as, hscript, hplays⟩ | ⟨-, -, i, lcn, -, hcalls⟩ :=
    processMessage_cases h.registered h.found h.processed
  · exact hplays.has hzx (fun _ => hP.message hscript) hz₁
  · obtain ⟨Z, hZ, hPZ⟩ := hz₁
    exact ⟨Z, (hcalls.frame z hzx (h.registered.ne_next hZ)).trans hZ, hPZ⟩

/-- **An event that is not about the channel** keeps the property. -/
theorem step (hP : Enduring P) (hreach : serverSystem.Reachable σ)
    (hstep : serverSystem.Step σ e σ') (hnot : ¬ e.ActsFor σ z) (hz : σ.Has z P) :
    σ'.Has z P := by
  have hσ := registered_of_reachable hreach
  obtain ⟨now, x, X, msg, σ₁, hgot⟩ | hworks := step_cases hσ hstep
  · refine hP.got hgot hσ ?_ hz
    rintro rfl
    exact hnot (.inl ⟨X, msg, hgot.gives⟩)
  · have htimed : ({ σ with sent := [] } : Server).Every JzChannel.Timed :=
      fun z Z hZ => timed_of_reachable hreach z Z hZ
    exact hP.works hσ.cleared htimed hworks (fun hin => hnot (.inr hin)) hz

end Enduring

/-! ### Events of other clients -/

/-- The event is not about the clients `i` and `j`, or it is a tick that finds no timer expired
and changes nothing. -/
def Event.OfOthers (i j : ℕ) (σ : Server) : Event → Prop
  | .message _ k _ | .badMessage k _ | .corrupt _ k | .hangup _ k => k ≠ i ∧ k ≠ j
  | .tick clock k =>
    (k ≠ i ∧ k ≠ j) ∨
      ({ σ with sent := [] } : Server).handle (.tick clock k) = .ok { σ with sent := [] }
  | .connect | .rehash _ _ => True

/-- Events of other clients are not about the channel, or they change nothing. -/
theorem Event.OfOthers.spec (hσ : σ.Registered) (h : e.OfOthers i j σ)
    (hX : σ.heap.get? x = some X) (hparent : X.parent = i ∨ X.parent = j)
    (hstep : serverSystem.Step σ e σ') : ¬ e.ActsFor σ x ∨ σ' = { σ with sent := [] } := by
  -- The channel belongs to one client only.
  have hswept {k : ℕ} (hk : k ≠ i ∧ k ≠ j) : x ∉ σ.channelsOf k := by
    rintro ⟨lcn, hlisted⟩
    obtain ⟨X₀, hX₀, howner⟩ := hσ.get_of_listed hlisted
    obtain rfl : X = X₀ := Option.some.inj (hX.symm.trans hX₀)
    obtain ⟨rfl, -⟩ := Prod.mk.injEq _ _ _ _ ▸ howner
    exact hparent.elim hk.1 hk.2
  have hnone {e : Event} (hgives : ∀ X msg, ¬ e.Gives σ x X msg) (hsweeps : ¬ e.Sweeps σ x) :
      ¬ e.ActsFor σ x := by
    rintro (⟨X, msg, hg⟩ | hs)
    · exact hgives X msg hg
    · exact hsweeps hs
  cases e with
  | connect | rehash => exact .inl (hnone (fun _ _ => id) id)
  | badMessage k m => exact .inl (hnone (fun _ _ => id) id)
  | corrupt now k | hangup now k => exact .inl (hnone (fun _ _ => id) (hswept h))
  | tick clock k =>
    obtain hk | hquiet := h
    · exact .inl (hnone (fun _ _ => id) (hswept hk))
    · exact .inr (Except.ok.inj (hstep.2.symm.trans hquiet))
  | message now k m =>
    refine .inl (hnone (fun X' msg hg => ?_) fun hs => hswept h hs.2)
    obtain ⟨rfl, -, hnumbers⟩ := hg
    obtain ⟨hlisted, -⟩ | ⟨-, rfl, -⟩ := hnumbers
    · exact hswept h ⟨m.lcn, hlisted⟩
    · exact hσ.ne_next hX rfl

/-! ### The handshake -/

/-- The channel of the client `i` is not ready. -/
def NotReady (i : ℕ) (X : JzChannel) : Prop :=
  X.parent = i ∧ X.state ≠ .p1Ready

/-- The channel of the client `i` has been cleared, and its client has not yet answered. -/
def Unanswered (i : ℕ) (X : JzChannel) : Prop :=
  X.parent = i ∧ X.state = .p7ServerClearIndication ∧ X.peer = none

theorem afterServer_ne_ready : ∀ s id, s ≠ .p1Ready → afterServer s id ≠ .p1Ready := by
  intro s id
  cases s <;> cases id <;> decide

theorem notReady_enduring : Enduring (NotReady i) where
  alone _ h := h
  told now Z msg Z' out heff h := by
    refine ⟨(congrArg Prod.fst heff.keeps.owner).trans h.1, ?_⟩
    rw [heff.state]
    exact afterServer_ne_ready _ _ h.2

theorem unanswered_enduring : Enduring (Unanswered i) where
  alone _ h := ⟨h.1, h.2.1, rfl⟩
  told now Z msg Z' out heff h := by
    refine ⟨(congrArg Prod.fst heff.keeps.owner).trans h.1, ?_, ?_⟩
    · rw [heff.state, h.2.1]
      rfl
    · obtain hpeer | hpeer := heff.keeps.peer
      · exact hpeer.trans h.2.2
      · exact hpeer

/-- The first channel is not ready, and the second has not answered. -/
structure Server.Clears (σ : Server) (x y i j : ℕ) : Prop where
  own : σ.Has x (NotReady i)
  other : σ.Has y (Unanswered j)

/-- A clear request of a client in data transfer. -/
theorem clearRequest_plays (hσ : σ.Registered) (hX : σ.heap.get? x = some X)
    (hs : X.state = .d1FlowControlReady) (hid : msg.id = .clearRequest)
    (h : jzChannelProcessMessage now x msg σ = .ok σ') : Plays now x X (clearActs msg) σ σ' := by
  have htame : ∀ a ∈ clearActs msg, a.Tame :=
    tame_cons trivial (tame_cons (own_tame (fun _ => rfl) fun _ => rfl) tame_nil)
  obtain ⟨σ₁, h, hdump⟩ := bind_eq_ok h
  obtain ⟨_, -, hdump⟩ := bind_eq_ok hdump
  cases hdump
  -- This is the branch of the source for a clear request.
  have h := channel_bind_eq_ok hX h
  simp only [hs, hid] at h
  exact ⟨hX, hσ.peer_ne hX, htame, clearRequest_run hX h⟩

/-- **The request** clears the channel of the other client. -/
theorem request_clears (hσ : σ.Registered) (hxy : X.peer = some y) (hY : σ.heap.get? y = some Y)
    (hXs : X.state = .d1FlowControlReady) (hYs : Y.state = .d1FlowControlReady)
    (hid : msg.id = .clearRequest) (hgives : e.Gives σ x X msg)
    (hstep : serverSystem.Step σ e σ') : σ'.Clears x y X.parent Y.parent := by
  obtain ⟨now, σ₁, hgot⟩ := hgives.got hσ hstep
  obtain rfl | ⟨-, hnew⟩ := hgot.opened
  · have hplays := clearRequest_plays hσ.cleared hgot.found hXs hid hgot.processed
    obtain ⟨d, hd, hshows⟩ := hplays.shows
    have hduo : Server.duo { σ with sent := [] } X = ⟨X, some Y, []⟩ := by
      rw [Server.duo, hxy, Option.bind_some, hY]
    rw [hduo] at hd
    simp only [clearActs, Lts.Run.cons_iff, Lts.Run.nil_iff, step_own] at hd
    obtain ⟨d₁, h₁, _, rfl, rfl⟩ := hd
    obtain ⟨Y', out, heff, rfl⟩ := step_tell hxy rfl h₁
    obtain ⟨rfl, -⟩ := heff.eq_cleared rfl (by rw [hYs]; exact ⟨by rintro ⟨⟩, by rintro ⟨⟩⟩)
    exact ⟨⟨_, hshows.own, rfl, (by rintro ⟨⟩)⟩, ⟨_, hshows.other y hxy, rfl, rfl, rfl⟩⟩
  · -- A channel that has just been opened has no peer.
    rw [hnew] at hxy
    cases hxy

/-- Nothing that other clients do completes the handshake. -/
theorem others_clears (hreach : serverSystem.Reachable σ) (hother : e.OfOthers i j σ)
    (hstep : serverSystem.Step σ e σ') (h : σ.Clears x y i j) : σ'.Clears x y i j := by
  have hσ := registered_of_reachable hreach
  -- Both channels are kept by the same rule, each for its own property.
  have hkept {z : ℕ} {P : JzChannel → Prop} (hP : Enduring P) (hz : σ.Has z P)
      (hparent : ∀ Z, P Z → Z.parent = i ∨ Z.parent = j) : σ'.Has z P := by
    obtain ⟨Z, hZ, hPZ⟩ := id hz
    obtain hnot | rfl := hother.spec hσ hZ (hparent Z hPZ) hstep
    · exact hP.step hreach hstep hnot hz
    · exact hz
  exact ⟨hkept notReady_enduring h.own fun Z hZ => .inl hZ.1,
    hkept unanswered_enduring h.other fun Z hZ => .inr hZ.1⟩

/-- A channel is ready for a new call. -/
def Server.Ready (σ : Server) (z : ℕ) : Prop :=
  ∃ Z, σ.heap.get? z = some Z ∧ Z.state = .p1Ready ∧ Z.peer = none

/-- What a cleared channel does with the answer of its client. -/
theorem confirmation_script (h : MessageScript X msg as) (hs : X.state = .p7ServerClearIndication)
    (hid : msg.id = .clearRequest ∨ msg.id = .clearConfirmation) : as = confirmClearActs := by
  cases h with
  | confirmClear => rfl
  | ignored hleft =>
    rw [hs] at hleft
    obtain hid | hid := hid <;> rw [hid] at hleft <;> cases hleft
  | clear _ hs' => exact absurd hs hs'.2
  -- All other scripts start in another state.
  | punishClear _ _ hs' | punishReset _ _ hs' =>
    rw [hs] at hs'
    simp only [reduceCtorEq, or_self] at hs'
  | accept _ hs' | collide _ hs' | reset _ hs' | confirmReset _ hs' | data _ hs' | rr _ hs'
    | rnr _ hs' =>
    rw [hs] at hs'
    cases hs'

/-- **The answer** makes the channel of the answering client ready. It sends nothing, and
the channel of the other client is as it was. -/
theorem answer_clears (hreach : serverSystem.Reachable σ) (hne : x ≠ y)
    (h : σ.Clears x y i j) (hid : msg.id = .clearRequest ∨ msg.id = .clearConfirmation)
    (hgives : e.Gives σ y Y msg) (hstep : serverSystem.Step σ e σ') :
    σ'.Has x (NotReady i) ∧ σ'.Ready y ∧ σ'.sent = [] := by
  have hσ := registered_of_reachable hreach
  obtain ⟨now, σ₁, hgot⟩ := hgives.got hσ hstep
  refine ⟨notReady_enduring.got hgot hσ hne h.own, ?_⟩
  obtain ⟨Z, hZ, -, hs, hpeer⟩ := h.other
  obtain ⟨hZ₁, hsent⟩ : σ₁.heap.get? y = some Z ∧ σ₁.sent = [] := by
    obtain rfl | ⟨hopen, -⟩ := hgot.opened
    · exact ⟨hZ, rfl⟩
    · exact ⟨(hopen.get_of_ne (hσ.ne_next hZ)).trans hZ, hopen.sent⟩
  obtain rfl : Y = Z := Option.some.inj (hgot.found.symm.trans hZ₁)
  obtain ⟨as, hscript, hplays⟩ | ⟨hs', -⟩ :=
    processMessage_cases hgot.registered hgot.found hgot.processed
  · obtain rfl := confirmation_script hscript hs hid
    obtain ⟨d, hd, hshows⟩ := hplays.shows
    obtain ⟨d₁, h₁, h₂⟩ := hd.split
    simp only [confirmClearActs, Lts.Run.cons_iff, Lts.Run.nil_iff, step_own] at h₁
    obtain ⟨_, rfl, rfl⟩ := h₁
    rw [hs] at h₂
    simp only [timerActs, resetTimerAct, Lts.Run.cons_iff, Lts.Run.nil_iff, step_own] at h₂
    obtain ⟨_, rfl, rfl⟩ := h₂
    refine ⟨⟨_, hshows.own, ?_⟩, ?_⟩
    · dsimp only
      split
      · exact ⟨rfl, hpeer⟩
      · exact ⟨rfl, hpeer⟩
    · rw [hshows.sent, hsent]
      rfl
  · rw [hs] at hs'
    cases hs'

/-! ### The theorem -/

/-- **The clear handshake is completed** by the step to `σ'`: the client of the channel `X` is
sent a clear confirmation under its number, and both channels are ready. -/
structure ClearCompleted (x y : ℕ) (X : JzChannel) (σ' : Server) : Prop where
  confirmed : ∃ s ∈ σ'.sent, s.client = X.parent ∧ s.msg.id = .clearConfirmation ∧
    s.msg.lcn = X.lcn
  own : σ'.Ready x
  other : σ'.Ready y

/-- **The clear handshake is never completed.** The answer of the other client makes its own
channel ready, but nothing is sent for it, and the channel of the client that asked does not
get ready. -/
theorem clear_never_completes {es : List Event} {e' : Event} {Y' : JzChannel} {msg' : JzMsg}
    (hreach : serverSystem.Reachable σ) (hX : σ.heap.get? x = some X)
    (hY : σ.heap.get? y = some Y) (hxy : X.peer = some y)
    (hXs : X.state = .d1FlowControlReady) (hYs : Y.state = .d1FlowControlReady)
    (hgives : e.Gives σ x X msg) (hid : msg.id = .clearRequest)
    (hstep : serverSystem.Step σ e σ₁)
    (hothers : (serverSystem.restrict fun σ e => e.OfOthers X.parent Y.parent σ).Run σ₁ es σ₂)
    (hanswer : e'.Gives σ₂ y Y' msg')
    (hid' : msg'.id = .clearConfirmation ∨ msg'.id = .clearRequest)
    (hstep' : serverSystem.Step σ₂ e' σ₃) :
    ¬ ClearCompleted x y X σ₃ ∧ σ₃.sent = [] ∧ ¬ σ₃.Ready x ∧ σ₃.Ready y := by
  have hσ := registered_of_reachable hreach
  have hne : x ≠ y := hσ.ne_of_peer hX hxy
  have hasked : σ₁.Clears x y X.parent Y.parent :=
    request_clears hσ hxy hY hXs hYs hid hgives hstep
  obtain ⟨hreach₂, hwaits⟩ : serverSystem.Reachable σ₂ ∧ σ₂.Clears x y X.parent Y.parent := by
    refine hothers.preserves
      (fun τ => serverSystem.Reachable τ ∧ τ.Clears x y X.parent Y.parent)
      ⟨.step hreach hstep, hasked⟩ ?_
    rintro τ e τ' ⟨hτ, hclears⟩ ⟨hother, hs⟩
    exact ⟨.step hτ hs, others_clears hτ hother hs hclears⟩
  obtain ⟨⟨X', hX', -, hstate⟩, hready, hsent⟩ :=
    answer_clears hreach₂ hne hwaits hid'.symm hanswer hstep'
  have hnot : ¬ σ₃.Ready x := by
    rintro ⟨X₀, hX₀, hs, -⟩
    obtain rfl : X' = X₀ := Option.some.inj (hX'.symm.trans hX₀)
    exact hstate hs
  exact ⟨fun h => hnot h.own, hsent, hnot, hready⟩

/-- `A` clears its call, and `B` confirms. In between another client connects. -/
theorem clear_never_completes_confirmed : ∃ σ σ₁ σ₂ σ₃, ({} : Server).play talkEvents = some σ ∧
    serverSystem.Step σ (.message 0 0 (jzMsgNewClearRequest 1 0 0)) σ₁ ∧
    serverSystem.Step σ₁ .connect σ₂ ∧
    serverSystem.Step σ₂ (.message 0 1 (jzMsgNewClearConfirmation 1)) σ₃ ∧
    σ₃.sent = [] ∧ ¬ σ₃.Ready 0 ∧ σ₃.Ready 1 := by
  have hplay : ({} : Server).play talkEvents = some _ := rfl
  refine ⟨_, _, _, _, hplay, ⟨⟨_, rfl, rfl⟩, rfl⟩, ⟨trivial, rfl⟩, ⟨⟨_, rfl, rfl⟩, rfl⟩, ?_⟩
  have hnever := clear_never_completes (y := 1) (e := .message 0 0 (jzMsgNewClearRequest 1 0 0))
    (reachable_of_play hplay) rfl rfl rfl rfl rfl
    ⟨rfl, ⟨⟨_, rfl, rfl⟩, rfl, rfl⟩, .inl ⟨⟨_, rfl, rfl⟩, rfl⟩⟩ rfl ⟨⟨_, rfl, rfl⟩, rfl⟩
    (.single ⟨show Event.OfOthers _ _ _ .connect from trivial, trivial, rfl⟩)
    (show Event.Gives _ 1 _ _ (.message 0 1 (jzMsgNewClearConfirmation 1)) from
      ⟨rfl, ⟨⟨_, rfl, rfl⟩, rfl, rfl⟩, .inl ⟨⟨_, rfl, rfl⟩, rfl⟩⟩) (.inl rfl)
    ⟨⟨_, rfl, rfl⟩, rfl⟩
  exact hnever.2

/-- **A clear is not confirmed.** After `B` has confirmed, the channel of `A` is still in `P6`,
and nothing has been sent. -/
theorem clear_left : ∃ σ σ₁ σ₂ X Y, serverSystem.Reachable σ ∧ σ.heap.get? 0 = some X ∧
    σ.heap.get? 1 = some Y ∧ X.peer = some 1 ∧ Y.peer = some 0 ∧
    X.state = .d1FlowControlReady ∧ Y.state = .d1FlowControlReady ∧
    serverSystem.Step σ (.message 0 X.parent (jzMsgNewClearRequest X.lcn 0 0)) σ₁ ∧
    serverSystem.Step σ₁ (.message 0 Y.parent (jzMsgNewClearConfirmation Y.lcn)) σ₂ ∧
    ¬ ClearCompleted 0 1 X σ₂ := by
  have hplay : ({} : Server).play talkEvents = some _ := rfl
  refine ⟨_, _, _, _, _, reachable_of_play hplay, rfl, rfl, rfl, rfl, rfl, rfl,
    ⟨⟨_, rfl, rfl⟩, rfl⟩, ⟨⟨_, rfl, rfl⟩, rfl⟩, ?_⟩
  rintro ⟨⟨s, hs, -⟩, -, -⟩
  cases hs

end

end Application10
end Jozabad
