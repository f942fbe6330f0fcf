import Jozabad.Application10.Agreement
import Mathlib.Data.Sym.Sym2

/-!
# Peer symmetry

The peer of a channel points back at it, as long as no client clears a call that is joined
to another: `jz_channel_do_client_clear_request` has the peer cleared, but the channel of
the client keeps its pointer (`Event.ClearsJoined`).

* `peer_symmetry`: in every run without such a step the peer of a channel is a listed
  channel that is joined back to it, and what the server sends for a channel goes to this
  channel and to the one that is joined to it.
* `peer_left`: after one clear request of a client the channel points at a channel that
  has no peer.
* `joined_pair_agreement`: in every run in which nobody acts through a stale pointer the
  states and the facilities of joined channels fit together.
* `joined_pair_disagrees`: four clients, and two joined channels in the states `D1` and `P3`.
-/

namespace Jozabad
namespace Application10

open Partners

/-- **A step clears a joined call**: the client of a channel that has a peer asks for it. -/
def Event.ClearsJoined (σ : Server) (e : Event) : Prop :=
  ∃ x X msg, e.Gives σ x X msg ∧ msg.id = .clearRequest ∧ X.peer ≠ none

/-- Whoever has a peer is joined to it. -/
def Server.PeersMutual (σ : Server) : Prop :=
  Mutual JzChannel.peer σ.heap.get?

section

variable {σ σ₁ σ' : Server} {now x y i : ℕ} {lcn : UInt16} {X Y : JzChannel} {msg : JzMsg}
  {as : List Act} {clears : Prop}

/-! ### Scripts and calls -/

/-- A script of a channel that does not leave its peer alone keeps all pointers mutual. -/
theorem Plays.mutual (h : Plays now x X as σ σ') (hclears : X.peer ≠ none → ¬ clears)
    (hout : ∀ y Y, X.peer = some y → InStep X Y →
      ∀ d, (duoSystem now x X).Run ⟨X, some Y, []⟩ as d → Outcome clears X Y d)
    (hagrees : σ.Agrees) (hσ : σ.PeersMutual) : σ'.PeersMutual := by
  refine Mutual.reaches hσ h.reaches h.shrinks fun y hjoined => ?_
  have hpeer : X.peer = some y := (points_iff h.found).1 hjoined.1
  obtain ⟨Y, hY, hback⟩ := id hjoined.2
  obtain ⟨X', Y', hX', hY', hpair⟩ :=
    h.pair hpeer hY (hout y Y hpeer (hagrees x y X Y hjoined h.found hY))
  rw [points_iff hX', points_iff hY']
  -- The two are still joined, or both have lost the other one.
  cases hpair with
  | kept hpX hpY =>
    rw [hpX, hpY]
    exact iff_of_true hpeer hback
  | parted hpX hpY =>
    rw [hpX, hpY]
    exact iff_of_false (by rintro ⟨⟩) (by rintro ⟨⟩)
  | left hclear => exact absurd hclear (hclears (by rw [hpeer]; rintro ⟨⟩))

/-- A ready channel is not joined to another. -/
theorem ready_alone (hagrees : σ.Agrees) (hσ : σ.PeersMutual) (hX : σ.heap.get? x = some X)
    (hs : X.state = .p1Ready) : ∀ y, ¬ Points JzChannel.peer σ.heap.get? x y := by
  intro y hxy
  have hjoined := hσ.joined hxy
  obtain ⟨Y, hY, -⟩ := id hjoined.2
  exact (inStep_ne _ _ (hagrees x y X Y hjoined hX hY).states).1 hs

theorem message_mutual (hσ : σ.Registered) (hX : σ.heap.get? x = some X)
    (hclears : X.peer ≠ none → msg.id ≠ .clearRequest)
    (h : jzChannelProcessMessage now x msg σ = .ok σ') (hagrees : σ.Agrees)
    (hmutual : σ.PeersMutual) : σ'.PeersMutual := by
  obtain ⟨as, hscript, hplays⟩ | ⟨hs, -, i, lcn, -, hcalls⟩ := processMessage_cases hσ hX h
  · exact hplays.mutual hclears (fun _ _ hpeer hstep _ hd => hscript.pair hpeer hstep hd) hagrees
      hmutual
  · exact (hcalls.joins hX).mutual hmutual (ready_alone hagrees hmutual hX hs) fun z =>
      not_points_of_none hσ.next_eq_none

theorem Task.mutual {t : Task} (hσ : σ.InOrder) (h : t.Does σ σ') (hmutual : σ.PeersMutual) :
    σ'.PeersMutual := by
  cases t with
  | clients =>
    unfold Server.PeersMutual
    rw [h.heap]
    exact hmutual
  | timers now x =>
    obtain rfl | ⟨X, as, hscript, hplays⟩ := timers_cases hσ.registered h
    · exact hmutual
    · -- The peers of a channel without a running clear are parted together.
      refine hplays.mutual (fun _ => id) (fun _ _ hpeer hstep _ hd => ?_) hσ.agrees hmutual
      exact hscript.pair hpeer hstep (hσ.timed x X hplays.found) hd
  | remove =>
    obtain ⟨X, σ₁, -, hremoves⟩ := remove_cases hσ.registered h
    obtain ⟨X₁, hX₁, -, hpeer⟩ := hremoves.alone
    have hmutual₁ : σ₁.PeersMutual :=
      hremoves.plays.mutual (fun _ => id) (fun _ _ _ _ _ hd => restart_pair hd) hσ.agrees hmutual
    exact (hremoves.removes.alone hX₁ hpeer).mutual hmutual₁

/-! ### Steps -/

theorem Works.mutual {xs : Set ℕ} (h : Works xs σ σ') (hσ : σ.InOrder)
    (hmutual : σ.PeersMutual) : σ'.PeersMutual := by
  obtain ⟨ts, hrun, -⟩ := h
  refine (hrun.preserves (fun τ => τ.InOrder ∧ τ.PeersMutual) ⟨hσ, hmutual⟩ ?_).2
  intro τ t τ' ⟨hτ, hτm⟩ hstep
  have hstale : ∀ x, t.channel = some x → ¬ τ.Stale x := fun _ _ => hτm.not_stale
  exact ⟨⟨hτ.registered.task hstep, timed_kept.task hτ.registered hstep hτ.timed,
    Task.agrees hτ.registered hτ.timed hstale hstep hτ.agrees⟩, Task.mutual hτ hstep hτm⟩

theorem Got.mutual {e : Event} (h : Got now x X msg σ e σ₁ σ') (hok : ¬ e.ClearsJoined σ)
    (hσ : σ.InOrder) (hmutual : σ.PeersMutual) : σ'.PeersMutual := by
  have hclears : X.peer ≠ none → msg.id ≠ .clearRequest := fun hpeer hid =>
    hok ⟨x, X, msg, h.gives, hid, hpeer⟩
  obtain rfl | ⟨hopen, -⟩ := h.opened
  · exact message_mutual h.registered h.found hclears h.processed hσ.agrees hmutual
  · have halone := hopen.alone hσ.registered.cleared
    exact message_mutual h.registered h.found hclears h.processed (halone.agree hσ.agrees)
      (halone.mutual hmutual)

/-- Where pointers are mutual, nobody acts through a stale one. -/
theorem Server.PeersMutual.not_usesStale (h : σ.PeersMutual) (e : Event) : ¬ e.UsesStale σ := by
  intro hstale
  -- Whatever the event uses, it is stale, and no channel is.
  cases e with
  | connect | badMessage | rehash => exact hstale
  | message =>
    obtain ⟨x, X, -, -, hx⟩ | ⟨-, x, -, hx⟩ := hstale
    · exact h.not_stale hx
    · exact h.not_stale hx
  | corrupt | hangup =>
    obtain ⟨x, -, hx⟩ := hstale
    exact h.not_stale hx
  | tick =>
    obtain ⟨x, -, hx, -⟩ := hstale
    exact h.not_stale hx

/-- **In every run** without a clear of a joined call pointers are mutual, and nobody acts
through a stale one. -/
theorem mutual_of_reachable
    (h : (serverSystem.restrict fun σ e => ¬ e.ClearsJoined σ).Reachable σ) :
    σ.PeersMutual ∧ (serverSystem.restrict fun σ e => ¬ e.UsesStale σ).Reachable σ := by
  refine h.invariant (fun σ => σ.PeersMutual ∧
    (serverSystem.restrict fun σ e => ¬ e.UsesStale σ).Reachable σ) ?_ ?_
  · rintro σ rfl
    refine ⟨?_, .init rfl⟩
    rintro x y ⟨X, hX, -⟩
    cases hX
  · rintro σ e σ' - ⟨hmutual, hreach⟩ ⟨hok, hstep⟩
    -- The run so far uses no stale channel, so the channels are in order.
    have hσ := inOrder_of_reachable hreach
    refine ⟨?_, hreach.step ⟨hmutual.not_usesStale e, hstep⟩⟩
    obtain ⟨now, x, X, msg, σ₁, hgot⟩ | hworks := step_cases hσ.registered hstep
    · exact hgot.mutual hok hσ hmutual
    · exact hworks.mutual hσ.cleared hmutual

/-! ### What is sent -/

/-- What has been sent more for a channel was sent for one of the channels `zs`. -/
def SendsFor (zs : Set ℕ) (σ σ' : Server) : Prop :=
  ∃ new, σ'.sent = σ.sent ++ new ∧ ∀ s ∈ new, ∀ z, s.channel = some z → z ∈ zs

namespace SendsFor

variable {zs zs' : Set ℕ}

theorem refl (σ : Server) : SendsFor zs σ σ :=
  ⟨[], (List.append_nil _).symm, fun _ h => absurd h List.not_mem_nil⟩

theorem trans (h : SendsFor zs σ σ₁) (h' : SendsFor zs σ₁ σ') : SendsFor zs σ σ' := by
  obtain ⟨new, hnew, hin⟩ := h
  obtain ⟨new', hnew', hin'⟩ := h'
  refine ⟨new ++ new', by rw [hnew', hnew, List.append_assoc], fun s hs => ?_⟩
  obtain hs | hs := List.mem_append.1 hs
  · exact hin s hs
  · exact hin' s hs

theorem mono (h : SendsFor zs σ σ') (hsub : zs ⊆ zs') : SendsFor zs' σ σ' := by
  obtain ⟨new, hnew, hin⟩ := h
  exact ⟨new, hnew, fun s hs z hz => hsub (hin s hs z hz)⟩

/-- Nothing had been sent before. -/
theorem mem (h : SendsFor zs { σ with sent := [] } σ') {s : Sent} {z : ℕ} (hs : s ∈ σ'.sent)
    (hz : s.channel = some z) : z ∈ zs := by
  obtain ⟨new, hnew, hin⟩ := h
  rw [hnew] at hs
  exact hin s hs z hz

end SendsFor

/-- The channels `xs`, and what they point at. -/
def Server.around (σ : Server) (xs : Set ℕ) : Set ℕ :=
  {z | ∃ x ∈ xs, z = x ∨ Points JzChannel.peer σ.heap.get? x z}

theorem Plays.sendsFor {xs : Set ℕ} (h : Plays now x X as σ σ') (hx : x ∈ xs) :
    SendsFor (σ.around xs) σ σ' := by
  obtain ⟨new, hnew, hin⟩ := h.touches.sends
  refine ⟨new, hnew, fun s hs z hz => ?_⟩
  obtain ⟨z', hz', hs'⟩ := hin s hs
  obtain rfl : z = z' := Option.some.inj (hz.symm.trans hs')
  exact ⟨x, hx, hz'.imp_right (.intro h.found)⟩

theorem Task.sendsFor {t : Task} {xs : Set ℕ} (hσ : σ.Registered) (h : t.Does σ σ')
    (hxs : ∀ x, t.channel = some x → x ∈ xs) : SendsFor (σ.around xs) σ σ' := by
  cases t with
  | clients =>
    obtain ⟨new, hnew, hin⟩ := h.sent
    refine ⟨new, hnew, fun s hs z hz => ?_⟩
    rw [hin s hs] at hz
    cases hz
  | timers now x =>
    obtain rfl | ⟨X, as, -, hplays⟩ := timers_cases hσ h
    · exact .refl _
    · exact hplays.sendsFor (hxs x rfl)
  | remove cause now i lcn x diagnostic =>
    obtain ⟨X, σ₁, -, hremoves⟩ := remove_cases hσ h
    obtain ⟨new, hnew, hin⟩ := hremoves.plays.sendsFor (hxs x rfl)
    exact ⟨new, hremoves.removes.sent.trans hnew, hin⟩

/-- Tasks send for the channels that they are about, and for what these pointed at. -/
theorem Works.sendsFor {xs : Set ℕ} (h : Works xs σ σ') (hσ : σ.Registered) :
    SendsFor (σ.around xs) σ σ' := by
  obtain ⟨ts, hrun, hts⟩ := h
  induction hrun with
  | nil => exact .refl _
  | @cons σ t σ₁ ts σ' hstep _ ih =>
    rw [List.forall_mem_cons] at hts
    refine (Task.sendsFor hσ hstep hts.1).trans ((ih (hσ.task hstep) hts.2).mono ?_)
    -- Nothing points where it did not point before.
    rintro z ⟨x, hx, hz⟩
    exact ⟨x, hx, hz.imp_right (Task.shrinks hσ hstep x z)⟩

/-- The event acts for the channel at `x`: it gives it a message, or is about it. -/
def Event.ActsFor (σ : Server) (x : ℕ) (e : Event) : Prop :=
  (∃ X msg, e.Gives σ x X msg) ∨ e.Sweeps σ x

/-- What a message makes the server send is for the channel, for what it points at, or for
the channel that has just been called. -/
theorem Got.sends {e : Event} {s : Sent} {z : ℕ} (h : Got now x X msg σ e σ₁ σ')
    (hσ : σ.Registered) (hs : s ∈ σ'.sent) (hz : s.channel = some z) :
    z = x ∨ Points JzChannel.peer σ.heap.get? x z ∨ Joined JzChannel.peer σ'.heap.get? x z := by
  -- Nothing has been sent before the message is processed.
  have hsent : σ₁.sent = [] := by
    obtain rfl | ⟨hopen, -⟩ := h.opened
    · rfl
    · exact hopen.sent
  have hbefore (hpoints : Points JzChannel.peer σ₁.heap.get? x z) :
      Points JzChannel.peer σ.heap.get? x z := by
    obtain rfl | ⟨hopen, -⟩ := h.opened
    · exact hpoints
    · exact (hopen.alone hσ.cleared).shrinks x z hpoints
  obtain ⟨as, -, hplays⟩ | ⟨-, -, i, lcn, -, hcalls⟩ :=
    processMessage_cases h.registered h.found h.processed
  · -- A script sends on behalf of the channel and its peer.
    obtain ⟨new, hnew, hin⟩ := hplays.sendsFor (Set.mem_singleton x)
    rw [hnew, hsent, List.nil_append] at hs
    obtain ⟨x', rfl, hz'⟩ := hin s hs z hz
    exact hz'.imp_right fun hpoints => .inl (hbefore hpoints)
  · -- A call sends on behalf of the channel that is called.
    rw [hcalls.sent, hsent, List.nil_append, List.mem_singleton] at hs
    rw [hs] at hz
    obtain rfl := Option.some.inj hz
    exact .inr (.inr (hcalls.joins h.found).1)

/-- The message of the event, if it has one, is not a clear request. -/
def Event.keepsCalls : Event → Bool
  | .message _ _ msg => msg.id ≠ .clearRequest
  | _ => true

theorem Event.not_clearsJoined {e : Event} (he : e.keepsCalls = true) : ¬ e.ClearsJoined σ := by
  rintro ⟨x, X, msg, hgives, hid, -⟩
  cases e with
  | message now i m =>
    obtain rfl : m = msg := hgives.1
    exact of_decide_eq_true he hid
  | connect | badMessage | corrupt | hangup | tick | rehash => exact hgives

theorem restrict_of_play {es : List Event} (h : ({} : Server).play es = some σ)
    (hes : ∀ e ∈ es, e.keepsCalls = true) :
    (serverSystem.restrict fun σ e => ¬ e.ClearsJoined σ).Reachable σ :=
  (Lts.Reachable.init rfl).run
    ((run_of_play h).restrict fun e he _ => Event.not_clearsJoined (hes e he))

/-! ### The theorems -/

/-- **Peer symmetry.** In every run in which no client clears a call that is joined to
another, the peer of a channel is a channel in the table of its client, and it is joined
back. What a further such step sends for a channel, it sends for the channel it acts for, or
for the one that is joined to it, before or after the step. -/
theorem peer_symmetry (h : (serverSystem.restrict fun σ e => ¬ e.ClearsJoined σ).Reachable σ) :
    (∀ x X y, σ.heap.get? x = some X → X.peer = some y →
      ∃ Y, σ.heap.get? y = some Y ∧ σ.Listed Y.parent Y.lcn y ∧ Y.peer = some x) ∧
    ∀ e σ', ¬ e.ClearsJoined σ → serverSystem.Step σ e σ' →
      ∀ s ∈ σ'.sent, ∀ z, s.channel = some z →
        ∃ x, e.ActsFor σ x ∧ (z = x ∨ Joined JzChannel.peer σ.heap.get? x z ∨
          Joined JzChannel.peer σ'.heap.get? x z) := by
  obtain ⟨hmutual, hreach⟩ := mutual_of_reachable h
  have hσ := registered_of_reachable h.of_restrict
  refine ⟨fun x X y hX hpeer => ?_, fun e σ' hok hstep s hs z hz => ?_⟩
  · obtain ⟨Y, hY, hback⟩ := hmutual x y (.intro hX hpeer)
    exact ⟨Y, hY, hσ.listed_of_get hY, hback⟩
  · -- A message of a client, or a series of tasks.
    obtain ⟨now, x, X, msg, σ₁, hgot⟩ | hworks := step_cases hσ hstep
    · refine ⟨x, .inl ⟨X, msg, hgot.gives⟩, ?_⟩
      exact (hgot.sends hσ hs hz).imp_right (Or.imp_left hmutual.joined)
    · obtain ⟨x, hx, hz'⟩ := (hworks.sendsFor hσ.cleared).mem hs hz
      exact ⟨x, .inr hx, hz'.imp_right fun hpoints => .inl (hmutual.joined hpoints)⟩

/-- The called channel is joined back to that of the caller. -/
theorem peer_symmetry_called : ∃ σ Y, ({} : Server).play callEvents = some σ ∧
    σ.heap.get? 1 = some Y ∧ σ.Listed Y.parent Y.lcn 1 ∧ Y.peer = some 0 := by
  have hplay : ({} : Server).play callEvents = some _ := rfl
  have hsymm := peer_symmetry (restrict_of_play hplay (by decide))
  obtain ⟨Y, hY, hlisted, hback⟩ := hsymm.1 0 _ 1 rfl rfl
  exact ⟨_, Y, hplay, hY, hlisted, hback⟩

/-- **A pointer is left behind.** `A` calls `B` and clears the call: the channel of `A`
points at one without a peer. -/
theorem peer_left : ∃ σ X Y, serverSystem.Reachable σ ∧ σ.heap.get? 0 = some X ∧
    X.peer = some 1 ∧ σ.heap.get? 1 = some Y ∧ Y.peer = none := by
  have hplay : ({} : Server).play (callEvents ++ [.message 0 0 (jzMsgNewClearRequest 1 0 0)]) =
    some _ := rfl
  exact ⟨_, _, _, reachable_of_play hplay, rfl, rfl, rfl, rfl⟩

/-- The pairs of states that joined channels may have. -/
def joinedStates : List (Sym2 ChannelState) :=
  [s(.p2ClientWaiting, .p3ServerWaiting), s(.p5CallCollision, .p5CallCollision),
    s(.d1FlowControlReady, .d1FlowControlReady),
    s(.d1FlowControlReady, .d3ServerResetIndication),
    s(.d2ClientResetRequest, .d3ServerResetIndication),
    s(.d3ServerResetIndication, .d3ServerResetIndication)]

theorem inStep_mem : ∀ s t, inStep s t = true → s(s, t) ∈ joinedStates := by
  decide

/-- **Joined-pair agreement.** In every run in which nobody acts through a stale pointer,
the states of joined channels are one of six pairs, and unless both are in `P5` they have
the same facilities. -/
theorem joined_pair_agreement
    (h : (serverSystem.restrict fun σ e => ¬ e.UsesStale σ).Reachable σ)
    (hX : σ.heap.get? x = some X) (hY : σ.heap.get? y = some Y) (hxy : X.peer = some y)
    (hyx : Y.peer = some x) :
    s(X.state, Y.state) ∈ joinedStates ∧
      (¬ (X.state = .p5CallCollision ∧ Y.state = .p5CallCollision) →
        X.window = Y.window ∧ X.throughput = Y.throughput ∧ X.packet = Y.packet) := by
  have hstep : InStep X Y :=
    (inOrder_of_reachable h).agrees x y X Y ⟨.intro hX hxy, .intro hY hyx⟩ hX hY
  refine ⟨inStep_mem _ _ hstep.states, fun hne => ?_⟩
  have hfacilities := hstep.facilities hne
  simp only [JzChannel.facilities, Prod.mk.injEq] at hfacilities
  exact hfacilities

/-- The two channels of a call that has just come in. -/
theorem joined_pair_agreement_called : ∃ σ X Y, ({} : Server).play callEvents = some σ ∧
    σ.heap.get? 0 = some X ∧ σ.heap.get? 1 = some Y ∧ X.window = Y.window := by
  have hplay : ({} : Server).play callEvents = some _ := rfl
  have hreach := (mutual_of_reachable (restrict_of_play hplay (by decide))).2
  have hagree := joined_pair_agreement (x := 0) (y := 1) hreach rfl rfl rfl rfl
  exact ⟨_, _, _, hplay, rfl, rfl, (hagree.2 (by decide)).1⟩

/-- Four clients connect. `A` calls `B` and clears the call. `B` confirms and calls `C`, and
then `A` commits an error on its old channel. `B` confirms the clear that it gets and calls
`D`, and then `C` accepts the call that it has got from `B`. -/
def staleEvents : List Event :=
  [.connect, .connect, .connect, .connect,
    .message 0 0 (jzMsgNewConnect (some (.ofBytes [65])) 0),
    .message 0 1 (jzMsgNewConnect (some (.ofBytes [66])) 0),
    .message 0 2 (jzMsgNewConnect (some (.ofBytes [67])) 0),
    .message 0 3 (jzMsgNewConnect (some (.ofBytes [68])) 0),
    .message 0 0 (jzMsgNewCallRequest 1 (some (.ofBytes [65])) (some (.ofBytes [66])) 6 2 10 []),
    .message 0 0 (jzMsgNewClearRequest 1 0 0),
    .message 0 1 (jzMsgNewClearConfirmation 1),
    .message 0 1 (jzMsgNewCallRequest 1 (some (.ofBytes [66])) (some (.ofBytes [67])) 6 2 10 []),
    .message 0 0 (jzMsgNewRr 1 0),
    .message 0 1 (jzMsgNewClearConfirmation 1),
    .message 0 1 (jzMsgNewCallRequest 1 (some (.ofBytes [66])) (some (.ofBytes [68])) 6 2 10 []),
    .message 0 2
      (jzMsgNewCallAccepted 1 (some (.ofBytes [66])) (some (.ofBytes [67])) 6 2 10 [])]

/-- **Two joined channels that do not fit together**, in the states `D1` and `P3`. -/
theorem joined_pair_disagrees : ∃ σ X Y, serverSystem.Reachable σ ∧
    σ.heap.get? 1 = some X ∧ σ.heap.get? 3 = some Y ∧ X.peer = some 3 ∧ Y.peer = some 1 ∧
    s(X.state, Y.state) ∉ joinedStates := by
  have hend : (({} : Server).play staleEvents).map (fun σ =>
      ((σ.heap.get? 1).map fun X => (X.peer, X.state),
        (σ.heap.get? 3).map fun Y => (Y.peer, Y.state))) =
      some (some (some 3, .d1FlowControlReady), some (some 1, .p3ServerWaiting)) := by
    decide +kernel
  obtain ⟨σ, hplay, hboth⟩ := Option.map_eq_some_iff.1 hend
  obtain ⟨hfirst, hsecond⟩ := Prod.mk.injEq _ _ _ _ ▸ hboth
  obtain ⟨X, hX, hx⟩ := Option.map_eq_some_iff.1 hfirst
  obtain ⟨Y, hY, hy⟩ := Option.map_eq_some_iff.1 hsecond
  obtain ⟨hxy, hXstate⟩ := Prod.mk.injEq _ _ _ _ ▸ hx
  obtain ⟨hyx, hYstate⟩ := Prod.mk.injEq _ _ _ _ ▸ hy
  refine ⟨σ, X, Y, reachable_of_play hplay, hX, hY, hxy, hyx, ?_⟩
  rw [hXstate, hYstate]
  decide

end

end Application10
end Jozabad
