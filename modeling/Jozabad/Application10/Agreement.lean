import Jozabad.Application10.PairStates

/-!
# The agreement of joined channels

Joined channels are in step (`InStep`) as long as nobody acts through a stale pointer. A
pointer becomes stale when a client clears a call: its channel keeps the pointer to the
peer, and the peer may then be joined to another channel. What the first channel passes on
after that reaches one of two other joined channels (`Event.UsesStale`).

* `step_agrees`: a step in which nobody acts through a stale pointer keeps all joined
  channels in step.
* `inOrder_of_reachable`: so they are in every run of such steps.
-/

namespace Jozabad
namespace Application10

open Partners

/-- What the channel at `x` points at points at a third one. -/
def Server.Stale (σ : Server) (x : ℕ) : Prop :=
  Partners.Stale JzChannel.peer σ.heap.get? x

/-- All joined channels are in step. -/
def Server.Agrees (σ : Server) : Prop :=
  Agree JzChannel.peer InStep σ.heap.get?

section

variable {σ σ₁ σ' : Server} {now x y i : ℕ} {lcn : UInt16} {X Y : JzChannel} {msg : JzMsg}
  {as : List Act} {clears : Prop}

/-! ### Scripts and calls -/

theorem Plays.reaches (h : Plays now x X as σ σ') :
    Reaches JzChannel.peer x σ.heap.get? σ'.heap.get? := by
  intro z hzx hz
  refine h.touches.frame z ?_
  rintro (rfl | hpeer)
  · exact hzx rfl
  · exact hz (.intro h.found hpeer)

/-- What a script makes of two joined channels. -/
theorem Plays.pair (h : Plays now x X as σ σ') (hpeer : X.peer = some y)
    (hY : σ.heap.get? y = some Y)
    (hout : ∀ d, (duoSystem now x X).Run ⟨X, some Y, []⟩ as d → Outcome clears X Y d) :
    ∃ X' Y', σ'.heap.get? x = some X' ∧ σ'.heap.get? y = some Y' ∧
      PairOutcome clears X Y X' Y' := by
  obtain ⟨d, hd, hshows⟩ := h.shows
  have hduo : σ.duo X = ⟨X, some Y, []⟩ := by
    rw [Server.duo, hpeer, Option.bind_some, hY]
  rw [hduo] at hd
  obtain ⟨Y', hother, hpair⟩ := hout d hd
  exact ⟨d.own, Y', hshows.own, (hshows.other y hpeer).trans hother, hpair⟩

/-- A script of a channel whose pointer is not stale keeps the agreement. -/
theorem Plays.agrees (h : Plays now x X as σ σ') (hstale : ¬ σ.Stale x)
    (hout : ∀ y Y, X.peer = some y → InStep X Y →
      ∀ d, (duoSystem now x X).Run ⟨X, some Y, []⟩ as d → Outcome clears X Y d)
    (hσ : σ.Agrees) : σ'.Agrees := by
  refine Agree.reaches hσ h.reaches h.shrinks hstale fun y X' Y' hjoined hjoined' hX' hY' => ?_
  have hpeer : X.peer = some y := (points_iff h.found).1 hjoined.1
  obtain ⟨Y, hY, -⟩ := id hjoined.2
  obtain ⟨X₁, Y₁, hX₁, hY₁, hpair⟩ :=
    h.pair hpeer hY (hout y Y hpeer (hσ x y X Y hjoined h.found hY))
  obtain rfl : X' = X₁ := Option.some.inj (hX'.symm.trans hX₁)
  obtain rfl : Y' = Y₁ := Option.some.inj (hY'.symm.trans hY₁)
  cases hpair with
  | kept _ _ hstep => exact ⟨hstep, hstep.symm⟩
  | parted _ hnone | left _ hnone =>
    -- They are still joined, so the second has a peer.
    have hpoints := (points_iff hY').1 hjoined'.2
    rw [hnone] at hpoints
    cases hpoints

/-- A restart parts the channel from its peer. -/
theorem restart_pair {cause : ClearCause} {diagnostic : UInt8} {d : Duo}
    (h : (duoSystem now x X).Run ⟨X, some Y, []⟩ (restartActs cause diagnostic) d) :
    Outcome False X Y d := by
  obtain ⟨hown, hother⟩ := restartActs_peer h
  have hkeeps := (Duo.Keeps.run restartActs_tame h).other
  generalize ho : d.other = o at hkeeps
  cases hkeeps with
  | some hY => exact ⟨_, ho, .parted hown (hother _ ho)⟩

theorem Calls.agrees (h : Calls now x msg i lcn σ σ') (hX : σ.heap.get? x = some X)
    (hσ : σ.Agrees) : σ'.Agrees := by
  refine (h.joins hX).agree hσ fun X' Y' hX' hY' => ?_
  obtain rfl := Option.some.inj ((h.own X hX).symm.trans hX')
  obtain rfl := Option.some.inj (h.other.symm.trans hY')
  have hstep : InStep (X.calling σ.next msg) (calledChannel now x i lcn msg) :=
    ⟨rfl, fun _ => rfl⟩
  exact ⟨hstep, hstep.symm⟩

/-! ### Messages and tasks -/

/-- A message that is left aside changes no channel. -/
theorem Plays.heap_of_leaves (h : Plays now x X (as ++ timerActs X.state) σ σ')
    (hscript : MessageScript X msg as) (hleaves : leaves X.state msg.id = true) :
    σ'.heap.get? = σ.heap.get? := by
  obtain ⟨d, hd, hshows⟩ := h.shows
  rw [hscript.eq_nil hleaves, List.nil_append] at hd
  -- The timer is only reset in another state.
  obtain rfl := timerActs_idle rfl hd
  funext z
  by_cases hzx : z = x
  · rw [hzx, hshows.own, h.found]
    rfl
  by_cases hz : X.peer = some z
  · rw [hshows.other z hz, (Shows.start h.found).other z hz]
  · exact hshows.frame z hzx hz

/-- A message to a channel keeps the agreement, if the pointer of the channel is not stale or
the message is left aside. -/
theorem message_agrees (hσ : σ.Registered) (hX : σ.heap.get? x = some X)
    (hstale : leaves X.state msg.id = false → ¬ σ.Stale x)
    (h : jzChannelProcessMessage now x msg σ = .ok σ') (hagrees : σ.Agrees) : σ'.Agrees := by
  obtain ⟨as, hscript, hplays⟩ | ⟨-, -, i, lcn, -, hcalls⟩ := processMessage_cases hσ hX h
  · -- A message that is ignored may come to a stale channel.
    cases hleaves : leaves X.state msg.id with
    | false =>
      exact hplays.agrees (hstale hleaves) (fun y Y hpeer hstep d hd =>
        hscript.pair hpeer hstep hd) hagrees
    | true =>
      unfold Server.Agrees
      rw [hplays.heap_of_leaves hscript hleaves]
      exact hagrees
  · exact hcalls.agrees hX hagrees

/-- No task makes a channel point where it did not. -/
theorem Task.shrinks {t : Task} (hσ : σ.Registered) (h : t.Does σ σ') :
    Shrinks JzChannel.peer σ.heap.get? σ'.heap.get? := by
  cases t with
  | clients =>
    rw [h.heap]
    exact .refl _
  | timers now x =>
    obtain rfl | ⟨X, as, -, hplays⟩ := timers_cases hσ h
    · exact .refl _
    · exact hplays.shrinks
  | remove =>
    obtain ⟨X, σ₁, -, hremoves⟩ := remove_cases hσ h
    obtain ⟨X₁, hX₁, -, hpeer⟩ := hremoves.alone
    exact hremoves.plays.shrinks.trans (hremoves.removes.alone hX₁ hpeer).shrinks

/-- Every script of a timer needs a timer. -/
theorem ExpiryScript.timer_ne (h : ExpiryScript X as) : X.timerType ≠ .none := by
  intro hnone
  cases h with
  | incomingCall ht | firstReset ht | lastReset ht | firstClear ht | lastClear ht =>
    rw [hnone] at ht
    cases ht

theorem expiry_agrees (h : Plays now x X as σ σ') (hscript : ExpiryScript X as)
    (hstale : ¬ σ.Stale x) (htimed : σ.Every JzChannel.Timed) (hagrees : σ.Agrees) :
    σ'.Agrees :=
  h.agrees hstale (fun _ _ hpeer hstep _ hd => hscript.pair hpeer hstep (htimed x X h.found) hd)
    hagrees

/-- A task about a channel whose pointer is not stale keeps the agreement. -/
theorem Task.agrees {t : Task} (hσ : σ.Registered) (htimed : σ.Every JzChannel.Timed)
    (hstale : ∀ x, t.channel = some x → ¬ σ.Stale x) (h : t.Does σ σ') (hagrees : σ.Agrees) :
    σ'.Agrees := by
  cases t with
  | clients =>
    unfold Server.Agrees
    rw [h.heap]
    exact hagrees
  | timers now x =>
    obtain rfl | ⟨X, as, hscript, hplays⟩ := timers_cases hσ h
    · exact hagrees
    · exact expiry_agrees hplays hscript (hstale x rfl) htimed hagrees
  | remove cause now i lcn x diagnostic =>
    obtain ⟨X, σ₁, -, hremoves⟩ := remove_cases hσ h
    obtain ⟨X₁, hX₁, -, hpeer⟩ := hremoves.alone
    -- The restart is played first, and then the channel is taken away.
    have hagrees₁ : σ₁.Agrees :=
      hremoves.plays.agrees (hstale x rfl) (fun _ _ _ _ _ hd => restart_pair hd) hagrees
    exact (hremoves.removes.alone hX₁ hpeer).agree hagrees₁

/-- What the tasks of one event keep. -/
structure Server.InOrder (σ : Server) : Prop where
  registered : σ.Registered
  timed : σ.Every JzChannel.Timed
  agrees : σ.Agrees

/-- **Tasks about channels whose pointers are not stale** keep the agreement. -/
theorem Works.agrees {xs : Set ℕ} (h : Works xs σ σ') (hstale : ∀ x ∈ xs, ¬ σ.Stale x)
    (hσ : σ.InOrder) : σ'.Agrees := by
  obtain ⟨ts, hrun, hts⟩ := h
  induction hrun with
  | nil => exact hσ.agrees
  | @cons σ t σ₁ ts σ' hstep _ ih =>
    rw [List.forall_mem_cons] at hts
    have hstale₁ : ∀ x, t.channel = some x → ¬ σ.Stale x := fun x hx => hstale x (hts.1 x hx)
    -- No task makes a channel stale.
    refine ih (fun x hx hstale₂ => ?_) ?_ hts.2
    · exact hstale x hx ((Task.shrinks hσ.registered hstep).stale hstale₂)
    · exact ⟨hσ.registered.task hstep, timed_kept.task hσ.registered hstep hσ.timed,
        Task.agrees hσ.registered hσ.timed hstale₁ hstep hσ.agrees⟩

/-- **A look at timers** of channels whose timers do not run where their pointers are stale
keeps the agreement. The timers of such channels stay as they are meanwhile. -/
theorem checkChannelTimers_agrees {readings : List (ℕ × ℕ)}
    (hquiet : ∀ r ∈ readings, σ.Stale r.2 → ∀ X, σ.heap.get? r.2 = some X → X.timerType = .none)
    (hσ : σ.InOrder) (h : checkChannelTimers readings σ = .ok σ') : σ'.Agrees := by
  induction readings generalizing σ with
  | nil =>
    cases h
    exact hσ.agrees
  | cons r readings ih =>
    obtain ⟨σ₁, h₁, h₂⟩ := bind_eq_ok h
    rw [List.forall_mem_cons] at hquiet
    obtain rfl | ⟨X, as, hscript, hplays⟩ := timers_cases hσ.registered h₁
    · exact ih hquiet.2 hσ h₂
    -- A timer has expired, so its channel is not stale.
    have hstale : ¬ σ.Stale r.2 := fun hstale =>
      hscript.timer_ne (hquiet.1 hstale X hplays.found)
    refine ih (fun r' hr' hstale' Z hZ => ?_) ?_ h₂
    · have hstale₁ : σ.Stale r'.2 := hplays.shrinks.stale hstale'
      -- A stale channel is neither the one whose timer has expired nor the peer of it.
      have hne : r'.2 ≠ r.2 := fun heq => hstale (heq ▸ hstale₁)
      have hpeer : ¬ Points JzChannel.peer σ.heap.get? r.2 r'.2 := by
        intro hpoints
        obtain ⟨y, z, hy, hz, hzne⟩ := hstale₁
        by_cases hyr : y = r.2
        · subst hyr
          exact hzne (hz.unique hpoints)
        · exact hstale ⟨r'.2, y, hpoints, hy, hyr⟩
      -- Another stale channel is out of reach of the script.
      rw [hplays.reaches _ hne hpeer] at hZ
      exact hquiet.2 r' hr' hstale₁ Z hZ
    · exact ⟨hplays.registered hσ.registered,
        hplays.every hscript.timed hσ.timed,
        expiry_agrees hplays hscript hstale hσ.timed hσ.agrees⟩

/-! ### Steps -/

/-- **A step acts through a stale pointer**: a message comes to a channel with a stale
pointer and is not left aside, or such a channel is restarted, or the timer of such a
channel or of its client runs when it is looked at. -/
def Event.UsesStale (σ : Server) : Event → Prop
  | .message now i msg =>
    (∃ x X, Event.Gives σ x X msg (.message now i msg) ∧ leaves X.state msg.id = false ∧
      σ.Stale x) ∨
      (σ.Restarts i msg ∧ ∃ x ∈ σ.channelsOf i, σ.Stale x)
  | .corrupt _ i | .hangup _ i => ∃ x ∈ σ.channelsOf i, σ.Stale x
  | .tick _ i => ∃ x ∈ σ.channelsOf i, σ.Stale x ∧
      ((∃ X, σ.heap.get? x = some X ∧ X.timerType ≠ .none) ∨
        ∃ C, σ.clients[i]? = some C ∧ C.timerType ≠ .none)
  | .connect | .badMessage _ _ | .rehash _ _ => False

theorem Server.InOrder.cleared (hσ : σ.InOrder) : ({ σ with sent := [] } : Server).InOrder :=
  ⟨hσ.registered.cleared, hσ.timed, hσ.agrees⟩

theorem Got.agrees {e : Event} (h : Got now x X msg σ e σ₁ σ')
    (hok : leaves X.state msg.id = false → ¬ σ.Stale x) (hσ : σ.InOrder) : σ'.Agrees := by
  obtain rfl | ⟨hopen, -⟩ := h.opened
  · exact message_agrees h.registered h.found hok h.processed hσ.agrees
  · have halone := hopen.alone hσ.registered.cleared
    refine message_agrees h.registered h.found (fun hheard hstale => hok hheard ?_) h.processed
      (halone.agree hσ.agrees)
    exact halone.shrinks.stale hstale

/-- **A step that does not act through a stale pointer** keeps the agreement. -/
theorem step_agrees {e : Event} (hσ : σ.InOrder) (hok : ¬ e.UsesStale σ)
    (h : serverSystem.Step σ e σ') : σ'.Agrees := by
  obtain ⟨now, x, X, msg, σ₁, hgot⟩ | hworks := step_cases hσ.registered h
  · -- A channel gets a message: it is not one of a stale channel that is heard.
    cases e with
    | message now' i msg' =>
      obtain rfl : msg' = msg := hgot.gives.1
      exact hgot.agrees (fun hheard hstale => hok (.inl ⟨x, X, hgot.gives, hheard, hstale⟩)) hσ
    | connect | badMessage | corrupt | hangup | tick | rehash => exact hgot.gives.elim
  · have hswept (hstale : ∀ x, e.Sweeps σ x → ¬ σ.Stale x) : σ'.Agrees :=
      hworks.agrees hstale hσ.cleared
    cases e with
    | connect | badMessage | rehash => exact hswept fun _ hx => hx.elim
    | message => exact hswept fun x hx hstale => hok (.inr ⟨hx.1, x, hx.2, hstale⟩)
    | corrupt | hangup => exact hswept fun x hx hstale => hok ⟨x, hx, hstale⟩
    -- A tick may come to stale channels, as long as no timer runs on them.
    | tick clock i =>
      by_cases hquiet : ∃ C, σ.clients[i]? = some C ∧ C.timerType ≠ .none
      · exact hswept fun x hx hstale => hok ⟨x, hx, hstale, .inr hquiet⟩
      · obtain ⟨C, hC, -⟩ := bind_eq_ok h.2
        have hC := client_eq_ok hC
        have hnone : C.timerType = .none := by
          by_contra hne
          exact hquiet ⟨C, hC, hne⟩
        obtain ⟨readings, hin, hreadings⟩ := clientCheckTimers_quiet hC hnone h.2
        refine checkChannelTimers_agrees (fun r hr hstale X hX => ?_) hσ.cleared hreadings
        by_contra hne
        exact hok ⟨r.2, hin r hr, hstale, .inl ⟨X, hX, hne⟩⟩

/-- **In every run** whose steps do not act through stale pointers. -/
theorem inOrder_of_reachable
    (h : (serverSystem.restrict fun σ e => ¬ e.UsesStale σ).Reachable σ) : σ.InOrder := by
  refine ⟨registered_of_reachable h.of_restrict, timed_of_reachable h.of_restrict, ?_⟩
  refine h.invariant Server.Agrees ?_ ?_
  · rintro σ rfl x y X Y - hX
    cases hX
  · intro σ e σ' hreach hagrees hstep
    exact step_agrees ⟨registered_of_reachable hreach.of_restrict,
      timed_of_reachable hreach.of_restrict, hagrees⟩ hstep.1 hstep.2

end

end Application10
end Jozabad
