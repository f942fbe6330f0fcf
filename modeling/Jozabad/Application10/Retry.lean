import Jozabad.Application10.Timers

/-!
# The second attempt (`jz_channel_check_timers`)

A channel in `D3` or `P7` has sent its client an indication and waits for the answer. When
its timer expires for the first time, the indication is to be sent once more, and the client
is to get the full time again before the second expiry gives up (`Retries`).

The code repeats the punishment that made the indication. But the channel gets the message of
the server in its state, and in `D3` and `P7` it ignores this message. So nothing is sent to
the client, and the timer is not started again: the next look at it is the second expiry
(`indication_not_retried`).
-/

namespace Jozabad
namespace Application10

variable {σ τ τ' : Server} {now x : ℕ} {X : JzChannel} {d d' : Duo} {as : List Act}
  {s : ChannelState} {id : MsgId} {t : JzChannelTimerType} {seconds : ℕ}

/-- The states in which a channel waits for the answer to an indication, with the
indication, its timer and how long this runs. -/
inductive Indication : ChannelState → MsgId → JzChannelTimerType → ℕ → Prop
  | reset : Indication .d3ServerResetIndication .resetRequest .resetIndication
      TIMER_RESET_INDICATION_DURATION_IN_SECONDS
  | clear : Indication .p7ServerClearIndication .clearRequest .clearIndication
      TIMER_CLEAR_INDICATION_DURATION_IN_SECONDS

/-- The client of `X` has been sent the indication. -/
def Resent (id : MsgId) (X : JzChannel) (τ τ' : Server) : Prop :=
  ∃ new, τ'.sent = τ.sent ++ new ∧
    ∃ m ∈ new, m.client = X.parent ∧ m.msg.lcn = X.lcn ∧ m.msg.id = id

/-- However often timers are looked at after an expiry at `now`, the timer of the channel does
not expire for the second time before it has run in full once more. -/
def Spaced (t : JzChannelTimerType) (seconds now x : ℕ) (τ : Server) : Prop :=
  ∀ readings τ' X' now', checkChannelTimers readings τ = .ok τ' → τ'.heap.get? x = some X' →
    X'.timerType = t → X'.timerCount = 1 → X'.timerExpirationTime ≤ now' →
    now + seconds * G_USEC_PER_SEC ≤ now'

/-- **The first expiry** sends the indication again, and the second one leaves the client the
time to answer. -/
def Retries (id : MsgId) (t : JzChannelTimerType) (seconds now x : ℕ) (X : JzChannel)
    (τ : Server) : Prop :=
  ∃ τ', jzChannelCheckTimers now x τ = .ok τ' ∧ Resent id X τ τ' ∧ Spaced t seconds now x τ'

/-! ### The channel and its peer -/

/-- What is told to the peer is sent to the peer's client, under the peer's number. -/
theorem tell_sent {f : JzChannel → JzMsg} (hlcn : ∀ Y, (f Y).lcn = Y.lcn)
    (h : (duoSystem now x X).Step d (.tell f) d') :
    d'.own = d.own ∧ ∃ new, d'.sent = d.sent ++ new ∧
      ∀ m ∈ new, ∃ Y, d.other = some Y ∧ (m.client, m.msg.lcn) = Y.owner := by
  obtain rfl | ⟨y, Y, Y', out, -, hother, heff, rfl⟩ := step_tell_cases h
  · exact ⟨rfl, [], (List.append_nil _).symm, fun _ h => absurd h List.not_mem_nil⟩
  · refine ⟨rfl, _, rfl, fun m hm => ⟨Y, hother, ?_⟩⟩
    obtain ⟨hclient, -, rfl⟩ := mem_post hm
    rw [hclient, heff.out_lcn, hlcn]
    rfl

/-- What the channel itself is given is ignored. -/
theorem self_ignored {msg : JzMsg} (hs : heeds d.own.state msg.id = false)
    (h : (duoSystem now x X).Step d (.self msg) d') : d' = d := by
  obtain ⟨X', out, heff, rfl⟩ := step_self h
  obtain ⟨rfl, rfl⟩ := heff.eq_ignored hs
  rw [post, Option.toList_none, List.map_nil, List.append_nil]

/-- **The first expiry on two channels** counts, and all that is sent goes to the client of
the peer. -/
theorem firstExpiry_duo (hind : Indication X.state id t seconds) (htimer : X.timerType = t)
    (hfirst : X.timerCount = 0) (hscript : ExpiryScript X as) (hown : d.own = X)
    (hrun : (duoSystem now x X).Run d as d') :
    d'.own = X.counted ∧ ∃ new, d'.sent = d.sent ++ new ∧
      ∀ m ∈ new, ∃ Y, d.other = some Y ∧ (m.client, m.msg.lcn) = Y.owner := by
  subst hown htimer
  generalize hstate : d.own.state = s at hind
  generalize htype : d.own.timerType = t at hind
  cases hscript with
  | incomingCall ht =>
    rw [ht] at htype
    subst htype
    cases hind
  | lastReset _ hcount | lastClear _ hcount =>
    rw [hfirst] at hcount
    cases hcount
  | firstReset ht =>
    rw [ht] at htype
    subst htype
    cases hind
    simp only [countAct, punishResetActs, Lts.Run.cons_iff, Lts.Run.nil_iff, step_own] at hrun
    obtain ⟨_, rfl, d₂, h₂, d₃, h₃, rfl⟩ := hrun
    have hheeds : heeds d.own.counted.state .resetRequest = false := by
      rw [show d.own.counted.state = d.own.state from rfl, hstate]
      rfl
    obtain rfl := self_ignored hheeds h₂
    exact tell_sent (fun _ => rfl) h₃
  | firstClear ht =>
    rw [ht] at htype
    subst htype
    cases hind
    simp only [countAct, punishClearActs, Lts.Run.cons_iff, Lts.Run.nil_iff, step_own,
      step_other] at hrun
    obtain ⟨_, rfl, d₂, h₂, _, rfl, d₄, h₄, rfl⟩ := hrun
    have hheeds : heeds d.own.counted.state .clearRequest = false := by
      rw [show d.own.counted.state = d.own.state from rfl, hstate]
      rfl
    obtain rfl := self_ignored hheeds h₂
    obtain ⟨hown, new, hsent, hnew⟩ := tell_sent (fun _ => rfl) h₄
    refine ⟨hown, new, hsent, fun m hm => ?_⟩
    obtain ⟨Y', hY', hm⟩ := hnew m hm
    obtain ⟨Y, hY, rfl⟩ := Option.map_eq_some_iff.1 hY'
    exact ⟨Y, hY, hm⟩

/-! ### The first expiry -/

/-- **The first expiry on the server.** The client is sent nothing, and the channel is due
again as soon as it is looked at. -/
theorem firstExpiry (hτ : τ.Registered) (hX : τ.heap.get? x = some X)
    (hind : Indication X.state id t seconds) (htimer : X.timerType = t)
    (hfirst : X.timerCount = 0) (hdue : X.timerExpirationTime ≤ now)
    (h : jzChannelCheckTimers now x τ = .ok τ') :
    ¬ Resent id X τ τ' ∧ τ'.heap.get? x = some X.counted := by
  have hexpired : ¬ (X.timerType = .none ∨ X.timerExpirationTime > now) := by
    rintro (hnone | hlater)
    · rw [htimer] at hnone
      subst hnone
      generalize X.state = s at hind
      cases hind
    · exact absurd hdue (not_le.2 hlater)
  obtain ⟨as, hscript, hrun⟩ := checkTimers_expired hX hexpired h
  obtain ⟨d, hd, hshows⟩ := run_shows hX (hτ.peer_ne hX) hrun
  obtain ⟨hown, new, hsent, hnew⟩ := firstExpiry_duo hind htimer hfirst hscript rfl hd
  refine ⟨?_, hown ▸ hshows.own⟩
  rintro ⟨new', hnew', m, hm, hclient, hlcn, -⟩
  -- What has been sent has been sent to the client of the peer.
  have hsame : new' = d.sent := by
    have happend := hnew'.symm.trans hshows.sent
    exact List.append_cancel_left happend
  have hnil : d.sent = new := hsent
  rw [hsame, hnil] at hm
  obtain ⟨Y, hY, howner⟩ := hnew m hm
  obtain ⟨y, hy, hYget⟩ := Option.bind_eq_some_iff.1 hY
  rw [hclient, hlcn] at howner
  obtain rfl := hτ.eq_of_owner hX hYget howner
  exact hτ.peer_ne hX hy

/-- A channel that is due again is not given the time. -/
theorem not_spaced (hX : τ'.heap.get? x = some X.counted)
    (hind : Indication s id t seconds) (htimer : X.timerType = t) (hfirst : X.timerCount = 0)
    (hdue : X.timerExpirationTime ≤ now) : ¬ Spaced t seconds now x τ' := by
  intro hspaced
  have hle := hspaced [] τ' X.counted now rfl hX htimer (by rw [JzChannel.counted, hfirst]) hdue
  have hpos : 0 < seconds * G_USEC_PER_SEC := by
    cases hind <;> decide
  omega

/-- **No retry.** Wherever a run has come to, and whatever timers have been looked at in the
tick before: the first expiry of a reset indication or of a clear indication does not send the
indication again, and it does not give the client more time either. -/
theorem indication_not_retried (h : serverSystem.Reachable σ) {before : List (ℕ × ℕ)}
    (hbefore : checkChannelTimers before { σ with sent := [] } = .ok τ)
    (hX : τ.heap.get? x = some X) (hind : Indication X.state id t seconds)
    (hfirst : X.timerCount = 0) (hdue : X.timerExpirationTime ≤ now) :
    ¬ Retries id t seconds now x X τ ∧
      ∀ τ', jzChannelCheckTimers now x τ = .ok τ' →
        ¬ Resent id X τ τ' ∧ ¬ Spaced t seconds now x τ' := by
  have hσtimed := timed_of_reachable h
  obtain ⟨hτ, htimed⟩ := checkChannelTimers_timed hbefore (registered_of_reachable h).cleared
    hσtimed
  have htimer : X.timerType = t := by
    rw [(htimed x X hX).timer]
    generalize X.state = s at hind
    cases hind <;> rfl
  have hfails : ∀ τ', jzChannelCheckTimers now x τ = .ok τ' →
      ¬ Resent id X τ τ' ∧ ¬ Spaced t seconds now x τ' := by
    intro τ' hcheck
    obtain ⟨hresent, hcounted⟩ := firstExpiry hτ hX hind htimer hfirst hdue hcheck
    exact ⟨hresent, not_spaced hcounted hind htimer hfirst hdue⟩
  refine ⟨?_, hfails⟩
  rintro ⟨τ', hcheck, hresent, -⟩
  exact (hfails τ' hcheck).1 hresent

/-- After the call is up, `A` sends a packet out of order, and the call is reset. Nobody
answers. -/
def unansweredEvents : List Event :=
  talkEvents ++ [.message 0 0 (jzMsgNewData 1 0 0 5 [1])]

/-- Six seconds later the timer of `A`'s channel expires for the first time. -/
theorem not_retried_unanswered : ∃ σ X, ({} : Server).play unansweredEvents = some σ ∧
    σ.heap.get? 0 = some X ∧
    ¬ Retries .resetRequest .resetIndication TIMER_RESET_INDICATION_DURATION_IN_SECONDS 6000000 0
      X { σ with sent := [] } := by
  have hplay : ({} : Server).play unansweredEvents = some _ := rfl
  have hbefore {τ : Server} : checkChannelTimers [] τ = .ok τ := rfl
  exact ⟨_, _, hplay, rfl, (indication_not_retried (reachable_of_play hplay) hbefore rfl
    .reset rfl (by decide)).1⟩

/-- **An expiry too early.** The first tick sends nothing to `A`, and a second one in the same
moment clears the call. -/
theorem expired_twice_at_once : ∃ σ τ₁ τ₂ X₁ X₂, serverSystem.Reachable σ ∧
    σ.heap.get? 0 = some X₁ ∧ X₁.state = .d3ServerResetIndication ∧ X₁.timerCount = 0 ∧
    serverSystem.Step σ (.tick (fun _ => 6000000) 0) τ₁ ∧ τ₁.sent = [] ∧
    serverSystem.Step τ₁ (.tick (fun _ => 6000000) 0) τ₂ ∧
    τ₂.heap.get? 0 = some X₂ ∧ X₂.state = .p7ServerClearIndication := by
  have hplay : ({} : Server).play unansweredEvents = some _ := rfl
  exact ⟨_, _, _, _, _, reachable_of_play hplay, rfl, rfl, rfl, ⟨by decide, rfl⟩, rfl,
    ⟨by decide, rfl⟩, rfl, rfl⟩

end Application10
end Jozabad
