import Jozabad.Application10.Steps

/-!
# The timer discipline

A channel runs a timer exactly in the states `P3`, `D3` and `P7`, and it is the timer of
that state (`timerOf`). The handlers start and cancel timers by hand. In the states without
a timer nothing is left of an old one, so a timer that is started counts from zero, and
none has expired more than once when it is looked at.

`JzChannel.Timed` is the invariant of one channel. A client's message may leave the timer
of the old state behind (`Unsettled`), which is what `timerActs` then cancels.

* `timer_discipline`: the timers of all channels in every reachable state, and the
  assertions about `timer_count`.
-/

namespace Jozabad
namespace Application10

/-- The timer that a channel runs in a state. -/
def timerOf : ChannelState → JzChannelTimerType
  | .p3ServerWaiting => .incomingCall
  | .d3ServerResetIndication => .resetIndication
  | .p7ServerClearIndication => .clearIndication
  | _ => .none

theorem timerOf_eq_incomingCall : ∀ s, timerOf s = .incomingCall ↔ s = .p3ServerWaiting := by
  intro s
  cases s <;> decide

theorem timerOf_eq_resetIndication : ∀ s, timerOf s = .resetIndication ↔
    s = .d3ServerResetIndication := by
  intro s
  cases s <;> decide

theorem timerOf_eq_clearIndication : ∀ s, timerOf s = .clearIndication ↔
    s = .p7ServerClearIndication := by
  intro s
  cases s <;> decide

/-- **The timer of a channel** is that of its state. It is not counted beyond one, and not
at all for an incoming call. A channel that waits for the confirmation of a clear has no
peer. -/
structure JzChannel.Timed (X : JzChannel) : Prop where
  timer : X.timerType = timerOf X.state
  count : X.timerCount ≤ 1
  first : X.state = .p3ServerWaiting → X.timerCount = 0
  alone : X.state = .p7ServerClearIndication → X.peer = none

section

variable {now x : ℕ} {X X' : JzChannel} {d d' : Duo} {msg : JzMsg} {as : List Act}

namespace JzChannel.Timed

/-- In a state without a timer there is nothing else to show. -/
theorem of_none (hstate : timerOf X.state = .none) (htimer : X.timerType = .none)
    (hcount : X.timerCount ≤ 1) : X.Timed where
  timer := by rw [htimer, hstate]
  count := hcount
  first hs := by
    rw [hs] at hstate
    cases hstate
  alone hs := by
    rw [hs] at hstate
    cases hstate

/-- The timer does not run. -/
theorem timer_none (h : X.Timed) {s : ChannelState} (hs : X.state = s)
    (hstate : timerOf s = .none) : X.timerType = .none := by
  rw [h.timer, hs, hstate]

/-- The timer tells the state. -/
theorem state_of_incomingCall (h : X.Timed) (ht : X.timerType = .incomingCall) :
    X.state = .p3ServerWaiting :=
  (timerOf_eq_incomingCall _).1 (h.timer.symm.trans ht)

theorem state_of_resetIndication (h : X.Timed) (ht : X.timerType = .resetIndication) :
    X.state = .d3ServerResetIndication :=
  (timerOf_eq_resetIndication _).1 (h.timer.symm.trans ht)

theorem state_of_clearIndication (h : X.Timed) (ht : X.timerType = .clearIndication) :
    X.state = .p7ServerClearIndication :=
  (timerOf_eq_clearIndication _).1 (h.timer.symm.trans ht)

theorem start_count {timerType : JzChannelTimerType} {seconds : ℕ} (hcount : X.timerCount ≤ 1) :
    (X.startTimer now timerType seconds).timerCount ≤ 1 := by
  unfold JzChannel.startTimer
  split
  · exact Nat.zero_le 1
  · exact hcount

/-- A timer that did not run is counted from zero. -/
theorem start_count_zero {timerType : JzChannelTimerType} {seconds : ℕ}
    (hne : X.timerType ≠ timerType) : (X.startTimer now timerType seconds).timerCount = 0 :=
  if_pos hne

/-- Server messages keep the discipline. -/
theorem server {out : Option JzMsg} (h : ServerEffect now X msg X' out) (hX : X.Timed) :
    X'.Timed := by
  cases h with
  | clear => exact ⟨rfl, start_count hX.count, (by rintro ⟨⟩), fun _ => rfl⟩
  | incomingCall _ hs =>
    have hzero : (({ X with state := .p3ServerWaiting }.storeFacilities msg).startTimer now
        .incomingCall TIMER_INCOMING_CALL_DURATION_IN_SECONDS).timerCount = 0 := by
      refine start_count_zero ?_
      change X.timerType ≠ _
      rw [hX.timer_none hs rfl]
      decide
    exact ⟨rfl, hzero.le.trans (Nat.zero_le 1), fun _ => hzero, (by rintro ⟨⟩)⟩
  | collision _ hs => exact .of_none rfl (hX.timer_none hs rfl) hX.count
  | connected _ hs =>
    obtain hs | hs := hs <;> exact .of_none rfl (hX.timer_none hs rfl) hX.count
  | confirmClear _ hs | confirmReset _ hs => exact .of_none rfl (hX.timer_none hs rfl) hX.count
  | reset _ hs => exact ⟨rfl, start_count hX.count, (by rintro ⟨⟩), (by rintro ⟨⟩)⟩
  | data _ hs | rr _ hs | rnr _ hs =>
    refine .of_none ?_ (hX.timer_none hs rfl) hX.count
    change timerOf X.state = _
    rw [hs]
    rfl
  | ignored => exact hX

/-- What does not look at the timer and the state may change. -/
theorem congr (h : X.Timed) (hstate : X'.state = X.state) (htimer : X'.timerType = X.timerType)
    (hcount : X'.timerCount = X.timerCount) (hpeer : X'.peer = X.peer ∨ X'.peer = none) :
    X'.Timed where
  timer := by rw [htimer, hstate, h.timer]
  count := hcount ▸ h.count
  first hs := by rw [hcount, h.first (hstate ▸ hs)]
  alone hs := by
    obtain hp | hp := hpeer
    · rw [hp, h.alone (hstate ▸ hs)]
    · exact hp

end JzChannel.Timed

/-- What happens to a channel as a peer keeps the discipline. -/
theorem timed_enduring : Enduring JzChannel.Timed where
  alone _ h := h.congr rfl rfl rfl (.inr rfl)
  told _ _ _ _ _ heff h := h.server heff

/-! ### The channel -/

theorem own_tell {f : JzChannel → JzMsg} (h : (duoSystem now x X).Step d (.tell f) d') :
    d'.own = d.own := by
  obtain rfl | ⟨y, Y, Y', out, -, -, -, rfl⟩ := step_tell_cases h
  · rfl
  · rfl

/-- What a message leaves behind: a channel with its discipline, or one in a state without
a timer that still has the timer of the old state `s`. -/
inductive Unsettled (s : ChannelState) (X' : JzChannel) : Prop
  | timed (h : X'.Timed)
  | left (hstate : timerOf X'.state = .none) (htimer : X'.timerType = timerOf s)
      (hcount : X'.timerCount ≤ 1)

/-- The timer of the old state is cancelled. -/
theorem Unsettled.reset {s : ChannelState} {t : JzChannelTimerType} (ht : timerOf s = t)
    (hne : t ≠ .none) (honly : ∀ s', timerOf s' = t → s' = s) (h : Unsettled s d.own)
    (hrun : (duoSystem now x X).Run d [resetTimerAct s t] d') : d'.own.Timed := by
  simp only [resetTimerAct, Lts.Run.cons_iff, Lts.Run.nil_iff, step_own] at hrun
  obtain ⟨_, rfl, rfl⟩ := hrun
  change (if d.own.state ≠ s ∧ d.own.timerType = t then jzChannelTimerReset d.own
    else d.own).Timed
  cases h with
  -- In the state of the timer it is kept, and in another one it does not run.
  | timed h =>
    rw [if_neg]
    · exact h
    · rintro ⟨hstate, htimer⟩
      exact hstate (honly _ (h.timer.symm.trans htimer))
  -- The state has changed, and the timer of the old one is what runs.
  | left hstate htimer hcount =>
    rw [if_pos]
    · exact .of_none hstate rfl (Nat.zero_le 1)
    · refine ⟨fun hs => hne ?_, htimer.trans ht⟩
      rw [← ht, ← hs, hstate]

theorem Unsettled.timerActs {s : ChannelState} (h : Unsettled s d.own)
    (hrun : (duoSystem now x X).Run d (timerActs s) d') : d'.own.Timed := by
  have hnone (hs : timerOf s = .none) (hrun : (duoSystem now x X).Run d [] d') :
      d'.own.Timed := by
    cases hrun
    cases h with
    | timed h => exact h
    | left hstate htimer hcount => exact .of_none hstate (htimer.trans hs) hcount
  cases s with
  | p3ServerWaiting =>
    refine h.reset (t := .incomingCall) rfl ?_ (fun s => (timerOf_eq_incomingCall s).1) hrun
    rintro ⟨⟩
  | d3ServerResetIndication =>
    refine h.reset (t := .resetIndication) rfl ?_ (fun s => (timerOf_eq_resetIndication s).1) hrun
    rintro ⟨⟩
  | p7ServerClearIndication =>
    refine h.reset (t := .clearIndication) rfl ?_ (fun s => (timerOf_eq_clearIndication s).1) hrun
    rintro ⟨⟩
  | p1Ready | p2ClientWaiting | p5CallCollision | p6ClientClearRequest | d1FlowControlReady
    | d2ClientResetRequest => exact hnone rfl hrun

/-- A punishment gives the channel a message of the server, and only that. -/
theorem own_punishClear {lcn : UInt16} {cause : ClearCause} {diagnostic : Diag}
    (h : (duoSystem now x X).Run d (punishClearActs lcn cause diagnostic) d') :
    ∃ out, ServerEffect now d.own (jzMsgNewClearRequest lcn cause.code diagnostic.code)
      d'.own out := by
  simp only [punishClearActs, Lts.Run.cons_iff, Lts.Run.nil_iff, step_other] at h
  obtain ⟨d₁, h₁, d₂, rfl, d₃, h₃, rfl⟩ := h
  obtain ⟨X', out, heff, rfl⟩ := step_self h₁
  exact ⟨out, own_tell h₃ ▸ heff⟩

theorem own_punishReset {lcn : UInt16} {cause : ResetCause} {diagnostic : Diag}
    (h : (duoSystem now x X).Run d (punishResetActs lcn cause diagnostic) d') :
    ∃ out, ServerEffect now d.own (jzMsgNewResetRequest lcn cause.code diagnostic.code)
      d'.own out := by
  simp only [punishResetActs, Lts.Run.cons_iff, Lts.Run.nil_iff] at h
  obtain ⟨d₁, h₁, d₂, h₂, rfl⟩ := h
  obtain ⟨X', out, heff, rfl⟩ := step_self h₁
  exact ⟨out, own_tell h₂ ▸ heff⟩

/-- A write, something told to the peer, and possibly another write. -/
theorem own_write_tell {g : JzChannel → JzChannel} {f : JzChannel → JzMsg}
    (h : (duoSystem now x X).Run d [.own g, .tell f] d') : d'.own = g d.own := by
  simp only [Lts.Run.cons_iff, Lts.Run.nil_iff, step_own] at h
  obtain ⟨_, rfl, d₂, h₂, rfl⟩ := h
  exact own_tell h₂

/-- **A client's message** leaves the timer of the old state behind at most. -/
theorem MessageScript.unsettled (hscript : MessageScript d.own msg as) (hX : d.own.Timed)
    (hrun : (duoSystem now x X).Run d as d') : Unsettled d.own.state d'.own := by
  cases hscript with
  | ignored =>
    cases hrun
    exact .timed hX
  | clear =>
    simp only [clearActs, Lts.Run.cons_iff, Lts.Run.nil_iff, step_own] at hrun
    obtain ⟨d₁, h₁, _, rfl, rfl⟩ := hrun
    have hown : d₁.own = d.own := own_tell h₁
    exact .left rfl (hown ▸ hX.timer) (hown ▸ hX.count)
  | punishClear =>
    obtain ⟨out, heff⟩ := own_punishClear hrun
    exact .timed (hX.server heff)
  | punishReset =>
    obtain ⟨out, heff⟩ := own_punishReset hrun
    exact .timed (hX.server heff)
  | accept | collide =>
    simp only [acceptActs, collideActs, Lts.Run.cons_iff, Lts.Run.nil_iff, step_own] at hrun
    obtain ⟨_, rfl, d₂, h₂, _, rfl, rfl⟩ := hrun
    have hown : d₂.own = JzChannel.storeFacilities msg d.own := own_tell h₂
    refine .left rfl ?_ ?_
    · change d₂.own.timerType = _
      rw [hown]
      exact hX.timer
    · change d₂.own.timerCount ≤ 1
      rw [hown]
      exact hX.count
  | confirmClear =>
    simp only [confirmClearActs, Lts.Run.cons_iff, Lts.Run.nil_iff, step_own] at hrun
    obtain ⟨_, rfl, rfl⟩ := hrun
    exact .left rfl hX.timer hX.count
  | reset | confirmReset =>
    have hown := own_write_tell hrun
    rw [hown]
    exact .left rfl hX.timer hX.count
  | data | rr | rnr =>
    have hown := own_write_tell hrun
    rw [hown]
    exact .timed (hX.congr rfl rfl rfl (.inl rfl))

theorem MessageScript.timed (hscript : MessageScript X msg as) :
    ScriptKeeps JzChannel.Timed X (as ++ timerActs X.state) := by
  rintro now x d d' rfl hnone hd hrun
  refine ⟨?_, run_other (timed_enduring.message hscript) hrun hd.other⟩
  obtain ⟨d₁, h₁, h₂⟩ := hrun.split
  exact (hscript.unsettled hd.own h₁).timerActs h₂

/-! ### Timers and restarts -/

/-- A clear starts the timer anew, whatever timer there was. -/
theorem ServerEffect.cleared_timed {out : Option JzMsg} (h : ServerEffect now X msg X' out)
    (hid : msg.id = .clearRequest)
    (hs : X.state ≠ .p6ClientClearRequest ∧ X.state ≠ .p7ServerClearIndication)
    (htimer : X.timerType ≠ .clearIndication) : X'.Timed := by
  obtain ⟨rfl, -⟩ := h.eq_cleared hid hs
  have hzero : (X.cleared now).timerCount = 0 := if_pos htimer
  exact ⟨rfl, hzero.le.trans (Nat.zero_le 1), (by rintro ⟨⟩), fun _ => rfl⟩

/-- The first expiration of a timer that may expire twice. -/
theorem JzChannel.Timed.counted (hX : X.Timed) (hcount : X.timerCount + 1 = 1)
    (hs : X.state ≠ .p3ServerWaiting) :
    ({ X with timerCount := X.timerCount + 1 } : JzChannel).Timed where
  timer := hX.timer
  count := hcount.le
  first h := absurd h hs
  alone := hX.alone

theorem ExpiryScript.timed (hscript : ExpiryScript X as) : ScriptKeeps JzChannel.Timed X as := by
  rintro now x d d' rfl hnone hd hrun
  have hX := hd.own
  -- The peer is only written to where there is none.
  have hother (hlast : d.own.timerType ≠ .clearIndication ∨ d.own.timerCount + 1 ≠ 2) :
      ∀ Y, d'.other = some Y → Y.Timed :=
    run_other (timed_enduring.expiry hscript hlast) hrun hd.other
  cases hscript with
  | incomingCall ht =>
    have hs : d.own.state = .p3ServerWaiting := hX.state_of_incomingCall ht
    refine ⟨?_, hother (.inl (by simp [ht]))⟩
    simp only [countAct, Lts.Run.cons_iff, step_own] at hrun
    obtain ⟨_, rfl, _, rfl, hrun⟩ := hrun
    obtain ⟨out, heff⟩ := own_punishClear hrun
    refine heff.cleared_timed rfl ?_ (by rintro ⟨⟩)
    change d.own.state ≠ _ ∧ d.own.state ≠ _
    rw [hs]
    exact ⟨by rintro ⟨⟩, by rintro ⟨⟩⟩
  | firstReset ht hcount =>
    have hs : d.own.state = .d3ServerResetIndication := hX.state_of_resetIndication ht
    refine ⟨?_, hother (.inl (by simp [ht]))⟩
    simp only [countAct, Lts.Run.cons_iff, step_own] at hrun
    obtain ⟨_, rfl, hrun⟩ := hrun
    obtain ⟨out, heff⟩ := own_punishReset hrun
    exact (hX.counted hcount (by simp [hs])).server heff
  | lastReset ht =>
    have hs : d.own.state = .d3ServerResetIndication := hX.state_of_resetIndication ht
    refine ⟨?_, hother (.inl (by simp [ht]))⟩
    simp only [countAct, Lts.Run.cons_iff, step_own] at hrun
    obtain ⟨_, rfl, hrun⟩ := hrun
    obtain ⟨out, heff⟩ := own_punishClear hrun
    refine heff.cleared_timed rfl ?_ ?_
    · change d.own.state ≠ _ ∧ d.own.state ≠ _
      rw [hs]
      exact ⟨by rintro ⟨⟩, by rintro ⟨⟩⟩
    · change d.own.timerType ≠ _
      rw [ht]
      rintro ⟨⟩
  | firstClear ht hcount =>
    have hs : d.own.state = .p7ServerClearIndication := hX.state_of_clearIndication ht
    refine ⟨?_, hother (.inr (by simp [hcount]))⟩
    simp only [countAct, Lts.Run.cons_iff, step_own] at hrun
    obtain ⟨_, rfl, hrun⟩ := hrun
    obtain ⟨out, heff⟩ := own_punishClear hrun
    exact (hX.counted hcount (by simp [hs])).server heff
  | lastClear ht =>
    have hs : d.own.state = .p7ServerClearIndication := hX.state_of_clearIndication ht
    have hnone : d.other = none := hnone (hX.alone hs)
    simp only [countAct, expireClearActs, Lts.Run.cons_iff, Lts.Run.nil_iff, step_own, step_other,
      step_notify] at hrun
    obtain ⟨_, rfl, _, rfl, _, rfl, _, rfl, rfl⟩ := hrun
    refine ⟨.of_none rfl rfl (Nat.zero_le 1), fun Y hY => ?_⟩
    change d.other.map _ = some Y at hY
    rw [hnone] at hY
    cases hY

theorem restart_timed (X : JzChannel) (cause : ClearCause) (diagnostic : UInt8) :
    ScriptKeeps JzChannel.Timed X (restartActs cause diagnostic) := by
  rintro now x d d' rfl - hd hrun
  refine ⟨?_, ?_⟩
  · simp only [restartActs, Lts.Run.cons_iff, Lts.Run.nil_iff, step_own, step_other] at hrun
    obtain ⟨_, rfl, _, rfl, d₃, h₃, _, rfl, rfl⟩ := hrun
    exact .of_none rfl rfl (Nat.zero_le 1)
  · exact run_other timed_enduring.restart hrun hd.other

/-! ### All channels -/

theorem timed_kept : Kept JzChannel.Timed where
  new _ _ := .of_none rfl rfl (Nat.zero_le 1)
  calling _ _ _ hs hX := .of_none rfl (hX.timer_none hs rfl) hX.count
  called _ _ _ _ _ := ⟨rfl, Nat.zero_le 1, fun _ => rfl, (by rintro ⟨⟩)⟩
  expiry _ _ := ExpiryScript.timed
  restart := restart_timed

/-- **In every reachable state** all channels keep the discipline. -/
theorem timed_of_reachable {σ : Server} (h : serverSystem.Reachable σ) :
    σ.Every JzChannel.Timed := by
  refine h.invariant (fun σ => σ.Every JzChannel.Timed) ?_ ?_
  · rintro σ rfl x X hX
    cases hX
  · intro σ e σ' hreach hσ hstep
    exact timed_kept.step (registered_of_reachable hreach)
      (fun x X msg as _ hscript => hscript.timed) hstep hσ

/-! ### The assertions about the counter -/

/-- What the timer code asserts of `timer_count`, once it has counted the expiration. -/
def JzChannel.CountAsserted (X : JzChannel) : Prop :=
  match X.timerType with
  | .none => True
  | .incomingCall => X.timerCount = 1
  | .resetIndication | .clearIndication => X.timerCount = 1 ∨ X.timerCount = 2

/-- The channel after the expiration is counted. -/
def JzChannel.counted (X : JzChannel) : JzChannel :=
  { X with timerCount := X.timerCount + 1 }

theorem JzChannel.Timed.countAsserted (hX : X.Timed) : X.counted.CountAsserted := by
  have hcount := hX.count
  unfold JzChannel.CountAsserted
  change match X.timerType with
    | .none => True
    | .incomingCall => X.timerCount + 1 = 1
    | .resetIndication | .clearIndication => X.timerCount + 1 = 1 ∨ X.timerCount + 1 = 2
  -- By the timer: only that of an incoming call may not expire twice.
  split
  · trivial
  · rename_i ht
    rw [hX.first (hX.state_of_incomingCall ht)]
  · omega
  · omega

/-- In the middle of a look at timers the channels still keep the discipline. -/
theorem checkChannelTimers_timed {readings : List (ℕ × ℕ)} {σ σ' : Server}
    (h : checkChannelTimers readings σ = .ok σ') (hσ : σ.Registered)
    (htimed : σ.Every JzChannel.Timed) : σ'.Registered ∧ σ'.Every JzChannel.Timed := by
  obtain ⟨ts, hrun, -⟩ := checkChannelTimers_works (fun _ _ => Set.mem_univ _) h
  exact hrun.preserves (fun τ => τ.Registered ∧ τ.Every JzChannel.Timed) ⟨hσ, htimed⟩
    fun _ _ _ hτ hstep => ⟨hτ.1.task hstep, timed_kept.task hτ.1 hstep hτ.2⟩

end

end Application10
end Jozabad
