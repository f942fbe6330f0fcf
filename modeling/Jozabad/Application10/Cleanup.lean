import Jozabad.Application10.Clearing

/-!
# Restarts and hang-ups

A restart of a client and its hang-up go through the table of its channels. Each channel is
parted from its peer, the peer is told that the call is cleared, and the channel is taken
out of the table and freed. The loop only looks at the pointers of the channels of the
client. So it is right as long as no pointer between them and the channels of other clients
is stale (`Server.Tidy`).

`Sweep` is the invariant of the loop: what is left of the table, and what has become of the
channels of the other clients (`Fate`). A joined channel can be told that its call is cleared
because it does not wait for the confirmation of a clear itself (`Server.Attached`).

* `restart_cleans_up`: what the clean-up of a tidy client does.
* `restart_disturbs`: a client hangs up, and a call is cleared that another client does not
  have.
-/

namespace Jozabad
namespace Application10

open Partners

section

variable {σ σ₁ τ τ' σ' : Server} {now x y z i : ℕ} {lcn : UInt16} {X Y Z : JzChannel}
  {msg : JzMsg} {as : List Act} {e : Event} {cause : ClearCause} {diagnostic : UInt8}

/-! ### Joined channels that are not being cleared -/

/-- The channel does not wait for the confirmation of a clear. -/
def NotClearing (X : JzChannel) : Prop :=
  X.state ≠ .p6ClientClearRequest

/-- Joined channels do not wait for the confirmation of a clear. -/
def Server.Attached (σ : Server) : Prop :=
  ∀ x y X, Joined JzChannel.peer σ.heap.get? x y → σ.heap.get? x = some X → NotClearing X

theorem afterServer_ne_clearing : ∀ s id, s ≠ .p6ClientClearRequest →
    afterServer s id ≠ .p6ClientClearRequest := by
  intro s id
  cases s <;> cases id <;> decide

theorem notClearing_enduring : Enduring NotClearing where
  alone _ h := h
  told now Z msg Z' out heff h := by
    unfold NotClearing
    rw [heff.state]
    exact afterServer_ne_clearing _ _ h

/-- A message of the server to the channel. -/
theorem self_notClearing : (Act.self msg).KeepsOwn NotClearing :=
  fun now Z Z' out heff h => notClearing_enduring.told now Z msg Z' out heff h

/-- A write of another state, or of none. -/
theorem own_notClearing {f : JzChannel → JzChannel}
    (h : ∀ X, (f X).state = X.state ∨ NotClearing (f X)) : (Act.own f).KeepsOwn NotClearing := by
  intro X hX
  obtain hsame | hother := h X
  · unfold NotClearing
    rw [hsame]
    exact hX
  · exact hother

theorem punishClearActs_notClearing {cause : ClearCause} {diagnostic : Diag} :
    ∀ a ∈ punishClearActs lcn cause diagnostic, a.KeepsOwn NotClearing :=
  List.forall_mem_cons.2 ⟨self_notClearing, List.forall_mem_cons.2 ⟨trivial,
    List.forall_mem_singleton.2 trivial⟩⟩

theorem punishResetActs_notClearing {cause : ResetCause} {diagnostic : Diag} :
    ∀ a ∈ punishResetActs lcn cause diagnostic, a.KeepsOwn NotClearing :=
  List.forall_mem_cons.2 ⟨self_notClearing, List.forall_mem_singleton.2 trivial⟩

theorem timerActs_notClearing (s : ChannelState) :
    ∀ a ∈ timerActs s, a.KeepsOwn NotClearing := by
  have hreset {original : ChannelState} {timerType : JzChannelTimerType} :
      ∀ a ∈ [resetTimerAct original timerType], a.KeepsOwn NotClearing := by
    refine List.forall_mem_singleton.2 (own_notClearing fun X => .inl ?_)
    split
    · rfl
    · rfl
  cases s with
  | p3ServerWaiting | d3ServerResetIndication | p7ServerClearIndication => exact hreset
  | p1Ready | p2ClientWaiting | p5CallCollision | p6ClientClearRequest | d1FlowControlReady
    | d2ClientResetRequest => exact fun _ h => absurd h List.not_mem_nil

/-- **Only a clear request** of the client makes a channel wait for the confirmation. -/
theorem MessageScript.notClearing (h : MessageScript X msg as) :
    as = clearActs msg ∨ ∀ a ∈ as ++ timerActs X.state, a.KeepsOwn NotClearing := by
  suffices hkeeps : as = clearActs msg ∨ ∀ a ∈ as, a.KeepsOwn NotClearing from
    hkeeps.imp_right fun hown => List.forall_mem_append.2 ⟨hown, timerActs_notClearing _⟩
  -- A write to the state, or none at all, and something that is told to the peer.
  have hwrite {f : JzChannel → JzChannel} {g : JzChannel → JzMsg}
      (h : ∀ X, (f X).state = X.state ∨ NotClearing (f X)) :
      ∀ a ∈ [Act.own f, Act.tell g], a.KeepsOwn NotClearing :=
    List.forall_mem_cons.2 ⟨own_notClearing h, List.forall_mem_singleton.2 trivial⟩
  cases h with
  | ignored => exact .inr fun _ h => absurd h List.not_mem_nil
  | clear => exact .inl rfl
  | punishClear => exact .inr punishClearActs_notClearing
  | punishReset => exact .inr punishResetActs_notClearing
  | accept | collide =>
    exact .inr (List.forall_mem_cons.2 ⟨own_notClearing fun _ => .inl rfl,
      List.forall_mem_cons.2 ⟨trivial,
        List.forall_mem_singleton.2 (own_notClearing fun _ => .inr (by rintro ⟨⟩))⟩⟩)
  | confirmClear =>
    exact .inr (List.forall_mem_singleton.2 (own_notClearing fun _ => .inr (by rintro ⟨⟩)))
  | reset => exact .inr (hwrite fun _ => .inr (by rintro ⟨⟩))
  | confirmReset => exact .inr (hwrite fun _ => .inr (by rintro ⟨⟩))
  | data | rr | rnr => exact .inr (hwrite fun _ => .inl rfl)

theorem ExpiryScript.notClearing (h : ExpiryScript X as) : ∀ a ∈ as, a.KeepsOwn NotClearing := by
  have hcount : countAct.KeepsOwn NotClearing := own_notClearing fun _ => .inl rfl
  cases h with
  | incomingCall =>
    exact List.forall_mem_cons.2 ⟨hcount, List.forall_mem_cons.2
      ⟨own_notClearing fun _ => .inl rfl, punishClearActs_notClearing⟩⟩
  | firstReset => exact List.forall_mem_cons.2 ⟨hcount, punishResetActs_notClearing⟩
  | lastReset | firstClear => exact List.forall_mem_cons.2 ⟨hcount, punishClearActs_notClearing⟩
  | lastClear =>
    exact List.forall_mem_cons.2 ⟨hcount, List.forall_mem_cons.2 ⟨trivial, List.forall_mem_cons.2
      ⟨own_notClearing fun _ => .inr (by rintro ⟨⟩), List.forall_mem_singleton.2 trivial⟩⟩⟩

theorem restartActs_notClearing :
    ∀ a ∈ restartActs cause diagnostic, a.KeepsOwn NotClearing :=
  List.forall_mem_cons.2 ⟨own_notClearing fun _ => .inl rfl, List.forall_mem_cons.2 ⟨trivial,
    List.forall_mem_cons.2 ⟨trivial,
      List.forall_mem_singleton.2 (own_notClearing fun _ => .inr (by rintro ⟨⟩))⟩⟩⟩

/-- A script that keeps the two channels from waiting for a confirmation. -/
theorem Plays.attached (h : Plays now x X as σ σ') (hown : ∀ a ∈ as, a.KeepsOwn NotClearing)
    (hother : ∀ y, X.peer = some y → ∀ a ∈ as, a.KeepsOther NotClearing) (hσ : σ.Attached) :
    σ'.Attached := by
  intro a b A' hjoined hA'
  have hjoined₀ := h.shrinks.joined hjoined
  obtain ⟨A, hA, -⟩ := id hjoined₀.1
  have hclear : NotClearing A := hσ a b A hjoined₀ hA
  by_cases hax : a = x
  · subst hax
    obtain rfl : X = A := Option.some.inj (h.found.symm.trans hA)
    obtain ⟨d, hd, hshows⟩ := h.shows
    obtain rfl : d.own = A' := Option.some.inj (hshows.own.symm.trans hA')
    exact run_own hown hd hclear
  · obtain ⟨A₁, hA₁, hclear₁⟩ := h.has hax (hother a) ⟨A, hA, hclear⟩
    rwa [Option.some.inj (hA'.symm.trans hA₁)]

/-- What a clear request of the client leaves is not joined to its channel. -/
theorem clear_attached (h : Plays now x X (clearActs msg ++ timerActs X.state) σ σ')
    (hid : msg.id = .clearRequest)
    (hs : X.state ≠ .p6ClientClearRequest ∧ X.state ≠ .p7ServerClearIndication)
    (htimed : σ.Every JzChannel.Timed) (hσ : σ.Attached) : σ'.Attached := by
  intro a b A' hjoined hA'
  have hjoined₀ := h.shrinks.joined hjoined
  obtain ⟨A, hA, -⟩ := id hjoined₀.1
  by_cases hax : a = x
  · subst hax
    -- The peer has lost its pointer, so the two are not joined.
    obtain ⟨B, hB, hback⟩ := id hjoined₀.2
    have hpeer : X.peer = some b := (points_iff h.found).1 hjoined₀.1
    obtain ⟨d, hd, hshows⟩ := h.shows
    have hduo : σ.duo X = ⟨X, some B, []⟩ := by
      rw [Server.duo, hpeer, Option.bind_some, hB]
    rw [hduo] at hd
    obtain ⟨d₁, hd₁, htimer⟩ := hd.split
    simp only [clearActs, Lts.Run.cons_iff, Lts.Run.nil_iff, step_own] at hd₁
    obtain ⟨d₂, h₂, _, rfl, rfl⟩ := hd₁
    obtain ⟨B', out, heff, rfl⟩ := step_tell hpeer rfl h₂
    have hcleared : B.state ≠ .p7ServerClearIndication := by
      intro hstate
      rw [(htimed b B hB).alone hstate] at hback
      cases hback
    obtain ⟨rfl, -⟩ := heff.eq_cleared rfl ⟨hσ b a B hjoined₀.symm hB, hcleared⟩
    have hB' : σ'.heap.get? b = some (B.cleared now) :=
      (hshows.other b hpeer).trans (timerActs_run htimer).1
    have hpoints := (points_iff hB').1 hjoined.2
    cases hpoints
  · obtain ⟨A₁, hA₁, hclear₁⟩ := h.has hax
      (fun _ => notClearing_enduring.message (.clear hid hs)) ⟨A, hA, hσ a b A hjoined₀ hA⟩
    rwa [Option.some.inj (hA'.symm.trans hA₁)]

theorem Opens.attached (h : Opens i lcn σ σ') (hσ : σ.Registered) (hattached : σ.Attached) :
    σ'.Attached := by
  intro a b A hjoined hA
  have hne : a ≠ σ.next := by
    rintro rfl
    exact (h.alone hσ).2.1 b hjoined.1
  exact hattached a b A ((h.alone hσ).shrinks.joined hjoined) ((h.get_of_ne hne).symm.trans hA)

theorem Calls.attached (h : Calls now x msg i lcn σ σ') (hX : σ.heap.get? x = some X)
    (hattached : σ.Attached) : σ'.Attached := by
  have hbefore : Agree JzChannel.peer (fun X _ => NotClearing X) σ.heap.get? :=
    fun a b A _ hjoined hA _ => hattached a b A hjoined hA
  have hafter : Agree JzChannel.peer (fun X _ => NotClearing X) σ'.heap.get? := by
    refine (h.joins hX).agree hbefore fun X' Y' hX' hY' => ?_
    obtain rfl := Option.some.inj ((h.own X hX).symm.trans hX')
    obtain rfl := Option.some.inj (h.other.symm.trans hY')
    exact ⟨by rintro ⟨⟩, by rintro ⟨⟩⟩
  intro a b A hjoined hA
  obtain ⟨B, hB, -⟩ := id hjoined.2
  exact hafter a b A B hjoined hA hB

/-! ### Runs -/

/-- What is kept in the middle of an event, too. -/
structure Server.Coherent (σ : Server) : Prop where
  registered : σ.Registered
  timed : σ.Every JzChannel.Timed
  attached : σ.Attached

theorem Server.Coherent.cleared (hσ : σ.Coherent) : ({ σ with sent := [] } : Server).Coherent :=
  ⟨hσ.registered.cleared, hσ.timed, hσ.attached⟩

theorem Task.attached {t : Task} (hσ : σ.Coherent) (h : t.Does σ σ') : σ'.Attached := by
  cases t with
  | clients =>
    unfold Server.Attached
    rw [h.heap]
    exact hσ.attached
  | timers now x =>
    obtain rfl | ⟨X, as, hscript, hplays⟩ := timers_cases hσ.registered h
    · exact hσ.attached
    · refine hplays.attached hscript.notClearing (fun y hpeer => ?_) hσ.attached
      exact notClearing_enduring.expiry_of_peer (hσ.timed x X hplays.found) hpeer hscript
  | remove =>
    obtain ⟨X, σ₁, -, hremoves⟩ := remove_cases hσ.registered h
    obtain ⟨X₁, hX₁, -, hpeer⟩ := hremoves.alone
    have hattached := hremoves.plays.attached restartActs_notClearing
      (fun _ _ => notClearing_enduring.restart) hσ.attached
    have halone := hremoves.removes.alone hX₁ hpeer
    intro a b A hjoined hA
    refine hattached a b A (halone.shrinks.joined hjoined) ?_
    rw [← hA, halone.2.2 a]
    rintro rfl
    exact halone.2.1 b hjoined.1

theorem Task.coherent {t : Task} (hσ : σ.Coherent) (h : t.Does σ σ') : σ'.Coherent :=
  ⟨hσ.registered.task h, timed_kept.task hσ.registered h hσ.timed, Task.attached hσ h⟩

theorem Works.coherent {xs : Set ℕ} (h : Works xs σ σ') (hσ : σ.Coherent) : σ'.Coherent := by
  obtain ⟨ts, hrun, -⟩ := h
  exact hrun.preserves Server.Coherent hσ fun _ _ _ hτ hstep => Task.coherent hτ hstep

theorem message_attached (hσ : σ.Coherent) (hX : σ.heap.get? x = some X)
    (h : jzChannelProcessMessage now x msg σ = .ok σ') : σ'.Attached := by
  obtain ⟨as, hscript, hplays⟩ | ⟨-, -, i, lcn, -, hcalls⟩ :=
    processMessage_cases hσ.registered hX h
  · obtain rfl | hown := hscript.notClearing
    · cases hscript with
      | clear hid hs => exact clear_attached hplays hid hs hσ.timed hσ.attached
    · exact hplays.attached hown (fun _ _ => notClearing_enduring.message hscript) hσ.attached
  · exact hcalls.attached hX hσ.attached

/-- **In every reachable state** joined channels do not wait for a confirmation. -/
theorem coherent_of_reachable (h : serverSystem.Reachable σ) : σ.Coherent := by
  refine ⟨registered_of_reachable h, timed_of_reachable h, ?_⟩
  refine h.invariant Server.Attached ?_ ?_
  · rintro σ rfl x y X - hX
    cases hX
  · intro σ e σ' hreach hattached hstep
    have hσ : σ.Coherent := ⟨registered_of_reachable hreach, timed_of_reachable hreach, hattached⟩
    obtain ⟨now, x, X, msg, σ₁, hgot⟩ | hworks := step_cases hσ.registered hstep
    · refine message_attached ⟨hgot.registered, ?_, ?_⟩ hgot.found hgot.processed
      · obtain rfl | ⟨hopen, -⟩ := hgot.opened
        · exact hσ.timed
        · exact hopen.every (timed_kept.new _ _) hσ.timed
      · obtain rfl | ⟨hopen, -⟩ := hgot.opened
        · exact hσ.attached
        · exact hopen.attached hσ.registered.cleared hσ.attached
    · exact (hworks.coherent hσ.cleared).attached

/-- The server while it handles an event: it has done some tasks since a reachable state. -/
def Server.Underway (σ : Server) : Prop :=
  ∃ σ₀ xs, serverSystem.Reachable σ₀ ∧ Works xs { σ₀ with sent := [] } σ

theorem Server.Underway.coherent (h : σ.Underway) : σ.Coherent := by
  obtain ⟨σ₀, xs, hreach, hworks⟩ := h
  exact hworks.coherent (coherent_of_reachable hreach).cleared

/-! ### One removal -/

/-- What the removal of the channel `X` at `x` does to the other channels. -/
inductive Parts (now x : ℕ) (X : JzChannel) (cause : ClearCause) (diagnostic : UInt8)
    (σ σ' : Server) : Prop
  | alone (hpeer : X.peer = none) (hframe : ∀ z, z ≠ x → σ'.heap.get? z = σ.heap.get? z)
      (hsent : σ'.sent = σ.sent)
  /-- The peer loses its pointer, and is then told that the call is cleared. -/
  | told (y : ℕ) (Y Y' : JzChannel) (out : Option JzMsg) (hpeer : X.peer = some y)
      (hY : σ.heap.get? y = some Y)
      (heff : ServerEffect now { Y with peer := none }
        (jzMsgNewClearRequest Y.lcn cause.code diagnostic) Y' out)
      (hY' : σ'.heap.get? y = some Y')
      (hframe : ∀ z, z ≠ x → z ≠ y → σ'.heap.get? z = σ.heap.get? z)
      (hsent : σ'.sent = σ.sent ++ post Y y out)

/-- A restart that goes through has found the peer. -/
theorem restart_peer (h : (actSystem now x X).Run σ (restartActs cause diagnostic) σ')
    (hne : y ≠ x) (hpeer : X.peer = some y) : ∃ Y, σ.heap.get? y = some Y := by
  simp only [restartActs, Lts.Run.cons_iff] at h
  obtain ⟨σ₁, h₁, σ₂, h₂, -⟩ := h
  obtain ⟨X₀, -, rfl⟩ := update_eq_ok h₁
  simp only [actSystem, Act.run, JzChannel.updatePeer, hpeer] at h₂
  obtain ⟨Y, hY, -⟩ := update_eq_ok h₂
  exact ⟨Y, (get_setChannel_of_ne hne).symm.trans hY⟩

/-- **A removal** parts the channel from its peer. -/
theorem RestartsAndRemoves.parts (h : RestartsAndRemoves cause diagnostic now x X σ σ₁ σ') :
    Parts now x X cause diagnostic σ σ' := by
  obtain ⟨d, hd, hshows⟩ := h.plays.shows
  cases hpeer : X.peer with
  | none =>
    simp only [restartActs, Lts.Run.cons_iff, Lts.Run.nil_iff, step_own, step_other] at hd
    obtain ⟨_, rfl, _, rfl, d₃, h₃, _, rfl, rfl⟩ := hd
    obtain rfl | ⟨y, Y, Y', out, hy, -⟩ := step_tell_cases h₃
    · refine .alone hpeer (fun z hz => (h.removes.get_of_ne hz).trans ?_) ?_
      · exact hshows.frame z hz (by rw [hpeer]; rintro ⟨⟩)
      · rw [h.removes.sent, hshows.sent]
        exact List.append_nil _
    · rw [hpeer] at hy
      cases hy
  | some y =>
    have hne : y ≠ x := by
      rintro rfl
      exact h.plays.apart hpeer
    obtain ⟨Y, hY⟩ := restart_peer h.plays.run hne hpeer
    have hduo : σ.duo X = ⟨X, some Y, []⟩ := by
      rw [Server.duo, hpeer, Option.bind_some, hY]
    rw [hduo] at hd
    simp only [restartActs, Lts.Run.cons_iff, Lts.Run.nil_iff, step_own, step_other] at hd
    obtain ⟨_, rfl, _, rfl, d₃, h₃, _, rfl, rfl⟩ := hd
    obtain ⟨Y', out, heff, rfl⟩ := step_tell hpeer rfl h₃
    refine .told y Y Y' out hpeer hY heff ?_ (fun z hzx hzy => ?_) ?_
    · exact (h.removes.get_of_ne hne).trans (hshows.other y hpeer)
    · refine (h.removes.get_of_ne hzx).trans (hshows.frame z hzx fun hz => hzy ?_)
      exact Option.some.inj (hz.symm.trans hpeer)
    · rw [h.removes.sent, hshows.sent]
      rfl

/-- No channel appears, and the owners stay. -/
theorem RestartsAndRemoves.owner (h : RestartsAndRemoves cause diagnostic now x X σ σ₁ σ')
    (hZ : σ'.heap.get? z = some Z) : ∃ Z₀, σ.heap.get? z = some Z₀ ∧ Z₀.owner = Z.owner := by
  have hne : z ≠ x := by
    rintro rfl
    rw [h.removes.heap, Table.get?_remove_self] at hZ
    cases hZ
  rw [h.removes.get_of_ne hne] at hZ
  have howner := h.plays.touches.owner z
  rw [hZ, Option.map_some] at howner
  exact Option.map_eq_some_iff.1 howner.symm

/-! ### The loop -/

/-- How many of the messages tell the client of `Z` that its call on `Z` is cleared. -/
def clearsSent (new : List Sent) (Z : JzChannel) : ℕ :=
  new.countP fun s =>
    s.client = Z.parent ∧ s.msg.id = .clearRequest ∧ s.msg.lcn = Z.lcn

theorem clearsSent_append (new more : List Sent) (Z : JzChannel) :
    clearsSent (new ++ more) Z = clearsSent new Z + clearsSent more Z :=
  List.countP_append

theorem clearsSent_eq_zero {new : List Sent} (h : ∀ s ∈ new, s.client ≠ Z.parent) :
    clearsSent new Z = 0 :=
  List.countP_eq_zero.2 fun s hs => by simp [h s hs]

/-- **A client is tidy** if no pointer between its channels and those of other clients is
stale. -/
structure Server.Tidy (σ : Server) (i : ℕ) : Prop where
  /-- Whoever points at a channel of the client is joined to it, and nobody else points at
  it. -/
  into : ∀ x z, x ∈ σ.channelsOf i → z ∉ σ.channelsOf i →
    Points JzChannel.peer σ.heap.get? z x → Points JzChannel.peer σ.heap.get? x z ∧
      ∀ z', Points JzChannel.peer σ.heap.get? z' x → z' = z
  /-- What a channel of the client points at points at one of its channels, or it has been
  cleared. -/
  out : ∀ x y Y, x ∈ σ.channelsOf i → y ∉ σ.channelsOf i →
    Points JzChannel.peer σ.heap.get? x y → σ.heap.get? y = some Y →
      Y.state = .p7ServerClearIndication ∨
        ∃ x' ∈ σ.channelsOf i, Points JzChannel.peer σ.heap.get? y x'

/-- The channel at `z` is joined to a channel of the client `i`. -/
def Server.JoinedTo (σ : Server) (i z : ℕ) : Prop :=
  ∃ x ∈ σ.channelsOf i, Joined JzChannel.peer σ.heap.get? z x

/-- **What has become of the channel `Z`** of another client, while the loop goes through the
channels of the client `i`. -/
inductive Fate (i now : ℕ) (σ τ : Server) (new : List Sent) (z : ℕ) (Z : JzChannel) : Prop
  /-- It is as it was, and if it is joined to a channel, then this is still to come. -/
  | kept (hZ : τ.heap.get? z = some Z)
      (hback : ∀ x, x ∈ σ.channelsOf i → Joined JzChannel.peer σ.heap.get? z x →
        Points JzChannel.peer τ.heap.get? x z)
      (hsent : clearsSent new Z = 0)
  /-- It has been cleared. -/
  | cleared (hjoined : σ.JoinedTo i z) (hZ : τ.heap.get? z = some (Z.cleared now))
      (hsent : clearsSent new Z = 1)

/-- **The invariant of the loop** over the channels of the client `i`. It began in `σ`, the
messages `new` have been sent since, and `left` is what is left of the table. -/
structure Sweep (i now : ℕ) (σ τ : Server) (new : List Sent) (left : List ((_ : UInt16) × ℕ)) :
    Prop where
  registered : τ.Registered
  listed : ∀ lcn x, τ.Listed i lcn x ↔ (⟨lcn, x⟩ : (_ : UInt16) × ℕ) ∈ left
  shrinks : Shrinks JzChannel.peer σ.heap.get? τ.heap.get?
  owner : ∀ z Z, τ.heap.get? z = some Z → ∃ Z₀, σ.heap.get? z = some Z₀ ∧ Z₀.owner = Z.owner
  sent : τ.sent = σ.sent ++ new
  fate : ∀ z Z, σ.heap.get? z = some Z → Z.parent ≠ i → Fate i now σ τ new z Z

/-- A channel that has been cleared ignores the server. -/
theorem ServerEffect.of_cleared {X' : JzChannel} {out : Option JzMsg}
    (h : ServerEffect now X msg X' out) (hs : X.state = .p7ServerClearIndication) :
    X' = X ∧ out = none := by
  cases h with
  | ignored => exact ⟨rfl, rfl⟩
  | clear _ hs' => exact absurd hs hs'.2
  | connected _ hs' =>
    rw [hs] at hs'
    simp only [reduceCtorEq, or_self] at hs'
  | incomingCall _ hs' | collision _ hs' | confirmClear _ hs' | reset _ hs' | confirmReset _ hs'
    | data _ hs' | rr _ hs' | rnr _ hs' =>
    rw [hs] at hs'
    cases hs'

theorem not_mem_channelsOf (hσ : σ.Registered) (hZ : σ.heap.get? z = some Z)
    (hne : Z.parent ≠ i) : z ∉ σ.channelsOf i := by
  rintro ⟨lcn, hlisted⟩
  obtain ⟨Z₀, hZ₀, howner⟩ := hσ.get_of_listed hlisted
  obtain rfl : Z = Z₀ := Option.some.inj (hZ.symm.trans hZ₀)
  exact hne (congrArg Prod.fst howner)

namespace Fate

variable {new : List Sent}

/-- The channel is still there, under its owner. -/
theorem get (h : Fate i now σ τ new z Z) : ∃ Z', τ.heap.get? z = some Z' ∧ Z'.owner = Z.owner := by
  cases h with
  | kept hZ => exact ⟨Z, hZ, rfl⟩
  | cleared _ hZ => exact ⟨Z.cleared now, hZ, rfl⟩

/-- A channel without a peer is removed. -/
theorem alone (h : Fate i now σ τ new z Z) (hX : τ.heap.get? x = some X) (hpeer : X.peer = none)
    (hframe : ∀ z, z ≠ x → τ'.heap.get? z = τ.heap.get? z) (hzx : z ≠ x) :
    Fate i now σ τ' new z Z := by
  cases h with
  | kept hZ hback hsent =>
    refine .kept ((hframe z hzx).trans hZ) (fun x₁ hx₁ hjoined => ?_) hsent
    have hpoints := hback x₁ hx₁ hjoined
    have hne : x₁ ≠ x := by
      rintro rfl
      rw [points_iff hX, hpeer] at hpoints
      cases hpoints
    exact (points_congr (hframe x₁ hne)).2 hpoints
  | cleared hjoined hZ hsent => exact .cleared hjoined ((hframe z hzx).trans hZ) hsent

/-- The peer of the channel that is removed is another channel. -/
theorem spared (h : Fate i now σ τ new z Z) (hX : τ.heap.get? x = some X)
    (hpeer : X.peer = some y) {more : List Sent} (hmore : clearsSent more Z = 0)
    (hframe : ∀ z, z ≠ x → z ≠ y → τ'.heap.get? z = τ.heap.get? z) (hzx : z ≠ x) (hzy : z ≠ y)
    (hy : ¬ (y ∈ σ.channelsOf i ∧ Joined JzChannel.peer σ.heap.get? z y)) :
    Fate i now σ τ' (new ++ more) z Z := by
  have hcount : clearsSent (new ++ more) Z = clearsSent new Z := by
    rw [clearsSent_append, hmore, Nat.add_zero]
  cases h with
  | kept hZ hback hsent =>
    refine .kept ((hframe z hzx hzy).trans hZ) (fun x₁ hx₁ hjoined => ?_) (hcount.trans hsent)
    have hpoints := hback x₁ hx₁ hjoined
    have hne : x₁ ≠ x := by
      rintro rfl
      rw [points_iff hX, hpeer] at hpoints
      exact hzy (Option.some.inj hpoints).symm
    have hne' : x₁ ≠ y := by
      rintro rfl
      exact hy ⟨hx₁, hjoined⟩
    exact (points_congr (hframe x₁ hne hne')).2 hpoints
  | cleared hjoined hZ hsent =>
    exact .cleared hjoined ((hframe z hzx hzy).trans hZ) (hcount.trans hsent)

/-- The channel is told that its call is cleared. Either it is joined to a channel of the
client, or it has been cleared before and ignores what it is told. -/
theorem told (h : Fate i now σ τ new z Z) (hσ : σ.Coherent) (htidy : σ.Tidy i)
    (hZ₀ : σ.heap.get? z = some Z) (hx : x ∈ σ.channelsOf i) (hz : z ∉ σ.channelsOf i)
    (hpoints : Points JzChannel.peer σ.heap.get? x z) {Y Y' : JzChannel} {out : Option JzMsg}
    (hY : τ.heap.get? z = some Y)
    (heff : ServerEffect now { Y with peer := none }
      (jzMsgNewClearRequest Y.lcn cause.code diagnostic) Y' out)
    (hY' : τ'.heap.get? z = some Y') : Fate i now σ τ' (new ++ post Y z out) z Z := by
  cases h with
  | kept hZ hback hsent =>
    obtain rfl : Z = Y := Option.some.inj (hZ.symm.trans hY)
    obtain hs | ⟨x', hx', hjoined⟩ := htidy.out x z Z hx hz hpoints hZ₀
    · have hpeer : Z.peer = none := (hσ.timed z Z hZ₀).alone hs
      obtain ⟨rfl, rfl⟩ := heff.of_cleared hs
      have hsame : ({ Z with peer := none } : JzChannel) = Z := by
        rw [← hpeer]
      refine .kept (hY'.trans (congrArg some hsame)) (fun x₁ _ hjoined => ?_) ?_
      · rw [Partners.Joined, points_iff hZ₀, hpeer] at hjoined
        cases hjoined.1
      · rw [clearsSent_append, hsent]
        rfl
    · have hjoined : Joined JzChannel.peer σ.heap.get? z x' :=
        ⟨hjoined, (htidy.into x' z hx' hz hjoined).1⟩
      have hs : Z.state ≠ .p7ServerClearIndication := by
        intro hs
        rw [Partners.Joined, points_iff hZ₀, (hσ.timed z Z hZ₀).alone hs] at hjoined
        cases hjoined.1
      obtain ⟨rfl, rfl⟩ := heff.eq_cleared rfl ⟨hσ.attached z x' Z hjoined hZ₀, hs⟩
      refine .cleared ⟨x', hx', hjoined⟩ hY' ?_
      rw [clearsSent_append, hsent]
      simp [clearsSent, post, jzMsgNewClearRequest]
  | cleared hjoined hZ hsent =>
    obtain rfl : Z.cleared now = Y := Option.some.inj (hZ.symm.trans hY)
    obtain ⟨rfl, rfl⟩ := heff.of_cleared rfl
    refine .cleared hjoined hY' ?_
    rw [clearsSent_append, hsent]
    rfl

end Fate

namespace Sweep

variable {new : List Sent} {left : List ((_ : UInt16) × ℕ)}

/-- A channel that is left is one of the channels of the client. -/
theorem mem_channelsOf (h : Sweep i now σ τ new left) (hσ : σ.Registered)
    (hX : τ.heap.get? x = some X) (hparent : X.parent = i) : x ∈ σ.channelsOf i := by
  obtain ⟨X₀, hX₀, howner⟩ := h.owner x X hX
  obtain rfl : X₀.parent = i := (congrArg Prod.fst howner).trans hparent
  exact ⟨X₀.lcn, hσ.listed_of_get hX₀⟩

/-- What is left of the table are the other numbers. -/
theorem mem_left (h : Sweep i now σ τ new (⟨lcn, x⟩ :: left))
    (hnodup : (⟨lcn, x⟩ :: left : List ((_ : UInt16) × ℕ)).NodupKeys) (lcn' : UInt16) (x' : ℕ) :
    (⟨lcn', x'⟩ : (_ : UInt16) × ℕ) ∈ left ↔ τ.Listed i lcn' x' ∧ lcn' ≠ lcn := by
  rw [h.listed, List.mem_cons]
  rw [List.nodupKeys_cons] at hnodup
  symm
  constructor
  · rintro ⟨heq | hmem, hne⟩
    · cases heq
      exact absurd rfl hne
    · exact hmem
  · refine fun hmem => ⟨.inr hmem, ?_⟩
    rintro rfl
    have hkey := List.mem_keys_of_mem hmem
    exact hnodup.1 hkey

/-- What the client of a channel gets does not concern any other channel. -/
theorem clearsSent_post (h : Sweep i now σ τ new left) (hZ : σ.heap.get? z = some Z)
    (hparent : Z.parent ≠ i) (hY : τ.heap.get? y = some Y) (hzy : z ≠ y)
    (hlcn : ∀ s ∈ post Y y out, s.msg.lcn = Y.lcn) : clearsSent (post Y y out) Z = 0 := by
  refine List.countP_eq_zero.2 fun s hs => ?_
  obtain ⟨hclient, -, -⟩ := mem_post hs
  obtain ⟨Z', hZ', howner'⟩ := (h.fate z Z hZ hparent).get
  simp only [decide_eq_true_eq, not_and]
  intro hclient' _ hlcn'
  refine hzy (h.registered.eq_of_owner hZ' hY ?_)
  rw [howner', JzChannel.owner, JzChannel.owner, ← hclient', ← hlcn', hclient, hlcn s hs]

/-- **One channel is removed.** -/
theorem remove (h : Sweep i now σ τ new (⟨lcn, x⟩ :: left)) (hσ : σ.Coherent)
    (htidy : σ.Tidy i) (hnodup : (⟨lcn, x⟩ :: left : List ((_ : UInt16) × ℕ)).NodupKeys)
    (hdoes : (Task.remove cause now i lcn x diagnostic).Does τ τ') :
    ∃ new', Sweep i now σ τ' new' left := by
  obtain ⟨X, τ₁, howner, hremoves⟩ := remove_cases h.registered hdoes
  have hX : τ.heap.get? x = some X := hremoves.plays.found
  obtain ⟨rfl, rfl⟩ := Prod.mk.injEq _ _ _ _ ▸ howner
  have hx : x ∈ σ.channelsOf X.parent := h.mem_channelsOf hσ.registered hX rfl
  have hne {z : ℕ} {Z : JzChannel} (hZ : σ.heap.get? z = some Z) (hparent : Z.parent ≠ X.parent) :
      z ≠ x := by
    rintro rfl
    exact not_mem_channelsOf hσ.registered hZ hparent hx
  -- What does not depend on the peer.
  have hlisted : ∀ lcn' x', τ'.Listed X.parent lcn' x' ↔
      (⟨lcn', x'⟩ : (_ : UInt16) × ℕ) ∈ left := by
    intro lcn' x'
    rw [hremoves.removes.listed, Listed.congr hremoves.plays.touches.clients,
      h.mem_left hnodup]
    simp only [true_and, ne_eq]
  have hshrinks := h.shrinks.trans (Task.shrinks h.registered hdoes)
  have howners : ∀ z Z, τ'.heap.get? z = some Z →
      ∃ Z₀, σ.heap.get? z = some Z₀ ∧ Z₀.owner = Z.owner := by
    intro z Z hZ
    obtain ⟨Z₁, hZ₁, howner₁⟩ := hremoves.owner hZ
    obtain ⟨Z₀, hZ₀, howner₀⟩ := h.owner z Z₁ hZ₁
    exact ⟨Z₀, hZ₀, howner₀.trans howner₁⟩
  have hregistered := (hremoves.registered h.registered).2
  cases hremoves.parts with
  | alone hpeer hframe hsent =>
    exact ⟨new, hregistered, hlisted, hshrinks, howners, hsent.trans h.sent,
      fun z Z hZ hparent => (h.fate z Z hZ hparent).alone hX hpeer hframe (hne hZ hparent)⟩
  | told y Y Y' out hpeer hY heff hY' hframe hsent =>
    have hxy : Points JzChannel.peer σ.heap.get? x y := h.shrinks x y (.intro hX hpeer)
    refine ⟨new ++ post Y y out, hregistered, hlisted, hshrinks, howners, ?_,
      fun z Z hZ hparent => ?_⟩
    · rw [hsent, h.sent, List.append_assoc]
    have hz := not_mem_channelsOf hσ.registered hZ hparent
    have hfate := h.fate z Z hZ hparent
    by_cases hzy : z = y
    · subst hzy
      exact hfate.told hσ htidy hZ hx hz hxy hY heff hY'
    -- Another channel has another owner, and is not joined to a channel that `x` points at.
    have hmore : clearsSent (post Y y out) Z = 0 := by
      refine h.clearsSent_post hZ hparent hY hzy fun s hs => ?_
      obtain ⟨-, -, rfl⟩ := mem_post hs
      exact heff.out_lcn
    exact hfate.spared hX hpeer hmore hframe (hne hZ hparent) hzy
      fun hy => hne hZ hparent ((htidy.into y z hy.1 hz hy.2.1).2 x hxy).symm

/-- **The loop** removes all that is left. -/
theorem foreachRemove (hσ : σ.Coherent) (htidy : σ.Tidy i) (hnodup : left.NodupKeys)
    (h : Sweep i now σ τ new left)
    (hloop : Application10.foreachRemove i (fun x => restartChannel cause now x diagnostic) left τ =
      .ok τ') : ∃ new', Sweep i now σ τ' new' [] := by
  induction left generalizing τ new with
  | nil =>
    cases hloop
    exact ⟨new, h⟩
  | cons entry left ih =>
    obtain ⟨τ₁, h₁, hloop⟩ := bind_eq_ok hloop
    obtain ⟨τ₂, h₂, hloop⟩ := bind_eq_ok hloop
    obtain ⟨τ₃, h₃, hloop⟩ := bind_eq_ok hloop
    have hlisted : τ.Listed i entry.1 entry.2 := (h.listed entry.1 entry.2).2 List.mem_cons_self
    obtain ⟨new', h'⟩ := h.remove hσ htidy hnodup ⟨hlisted, τ₁, τ₂, h₁, h₂, h₃⟩
    exact ih (List.nodupKeys_cons.1 hnodup).2 h' hloop

/-- Before the loop only the client itself is sent messages. -/
theorem start {C : JzClient} (hC : τ.clients[i]? = some C) (hτ : τ.Registered)
    (hheap : τ.heap = σ.heap) (hsent : τ.sent = σ.sent ++ new) (hnew : ∀ s ∈ new, s.client = i) :
    Sweep i now σ τ new C.channels.entries where
  registered := hτ
  listed lcn x := by
    rw [← Table.get?_eq_some, Server.Listed, hC]
    simp only [Option.some.injEq, exists_eq_left']
  shrinks := by
    rw [hheap]
    exact .refl _
  owner z Z hZ := by
    rw [hheap] at hZ
    exact ⟨Z, hZ, rfl⟩
  sent := hsent
  fate z Z hZ hparent := by
    refine .kept (hheap ▸ hZ) (fun x _ hjoined => ?_) (clearsSent_eq_zero fun s hs => ?_)
    · rw [hheap]
      exact hjoined.2
    · rw [hnew s hs]
      exact hparent.symm

/-- After the loop only the client itself changes, and is sent messages. -/
theorem clients {more : List Sent} (h : Sweep i now σ τ new left) (hchanges : ChangesClients τ τ')
    (hsent : τ'.sent = τ.sent ++ more) (hmore : ∀ s ∈ more, s.client = i) :
    Sweep i now σ τ' (new ++ more) left where
  registered := h.registered.clients hchanges.heap hchanges.next hchanges.listed
  listed lcn x := (hchanges.listed i lcn x).trans (h.listed lcn x)
  shrinks := by
    rw [hchanges.heap]
    exact h.shrinks
  owner := by
    rw [hchanges.heap]
    exact h.owner
  sent := by rw [hsent, h.sent, List.append_assoc]
  fate z Z hZ hparent := by
    have hnone : clearsSent more Z = 0 := clearsSent_eq_zero fun s hs => by
      rw [hmore s hs]
      exact hparent.symm
    have hcount : clearsSent (new ++ more) Z = clearsSent new Z := by
      rw [clearsSent_append, hnone, Nat.add_zero]
    cases h.fate z Z hZ hparent with
    | kept hZ' hback hsent =>
      rw [← hchanges.heap] at hZ' hback
      exact .kept hZ' hback (hcount.trans hsent)
    | cleared hjoined hZ' hsent =>
      rw [← hchanges.heap] at hZ'
      exact .cleared hjoined hZ' (hcount.trans hsent)

theorem update {f : JzClient → JzClient} (h : Sweep i now σ τ new left)
    (hupdate : τ.updateClient i f = .ok τ') (hsame : ∀ C, (f C).channels = C.channels) :
    Sweep i now σ τ' new left := by
  obtain ⟨C, hC, rfl⟩ := updateClient_eq_ok hupdate
  have hnone : ∀ s ∈ ([] : List Sent), s.client = i := fun _ hs => absurd hs List.not_mem_nil
  have hsweep := h.clients (updateClient_changes hupdate hsame) (List.append_nil _).symm hnone
  rwa [List.append_nil] at hsweep

end Sweep

/-! ### The clean-up -/

/-- **The channels of the client `i` are cleaned up** between `σ` and `σ'`, and the messages
`new` are sent. -/
structure Cleanup (i : ℕ) (σ σ' : Server) (new : List Sent) : Prop where
  sent : σ'.sent = σ.sent ++ new
  /-- The client has no channels. -/
  emptied : σ'.channelsOf i = ∅
  /-- The call of every channel that was joined to one of them is cleared, and its client is
  told so once. -/
  joined : ∀ z Z, σ.heap.get? z = some Z → Z.parent ≠ i → σ.JoinedTo i z →
    ∃ Z', σ'.heap.get? z = some Z' ∧ Z'.owner = Z.owner ∧
      Z'.state = .p7ServerClearIndication ∧ Z'.peer = none ∧ clearsSent new Z = 1
  /-- Every other channel of another client is as it was. -/
  others : ∀ z Z, σ.heap.get? z = some Z → Z.parent ≠ i → ¬ σ.JoinedTo i z →
    σ'.heap.get? z = some Z
  /-- No channel points at one that was removed. -/
  undangled : ∀ z Z y, σ'.heap.get? z = some Z → Z.peer = some y → y ∉ σ.channelsOf i

/-- After the loop the client is cleaned up. -/
theorem Sweep.cleanup {new : List Sent} (h : Sweep i now σ τ new []) (hσ : σ.Coherent)
    (htidy : σ.Tidy i) : Cleanup i σ τ new := by
  have hgone {x : ℕ} (hx : x ∈ τ.channelsOf i) : False := by
    obtain ⟨lcn, hlisted⟩ := hx
    exact List.not_mem_nil ((h.listed lcn x).1 hlisted)
  have hother {z : ℕ} {Z : JzChannel} (hZ : τ.heap.get? z = some Z) : Z.parent ≠ i := by
    rintro rfl
    exact hgone ⟨Z.lcn, h.registered.listed_of_get hZ⟩
  -- A channel that is joined to one of the client would find it still to come.
  have hunjoined {z x : ℕ} (hx : x ∈ σ.channelsOf i) : ¬ Points JzChannel.peer τ.heap.get? x z := by
    rintro ⟨X, hX, -⟩
    obtain ⟨X₀, hX₀, howner⟩ := h.owner x X hX
    refine not_mem_channelsOf hσ.registered hX₀ ?_ hx
    rw [show X₀.parent = X.parent from congrArg Prod.fst howner]
    exact hother hX
  refine ⟨h.sent, Set.eq_empty_of_forall_notMem fun x => hgone, fun z Z hZ hparent hjoined => ?_,
    fun z Z hZ hparent hnot => ?_, fun z Z y hZ hpeer hy => ?_⟩
  · cases h.fate z Z hZ hparent with
    | kept _ hback =>
      obtain ⟨x, hx, hjoined⟩ := hjoined
      exact absurd (hback x hx hjoined) (hunjoined hx)
    | cleared _ hZ' hsent => exact ⟨Z.cleared now, hZ', rfl, rfl, rfl, hsent⟩
  · cases h.fate z Z hZ hparent with
    | kept hZ' => exact hZ'
    | cleared hjoined => exact absurd hjoined hnot
  · obtain ⟨Z₀, hZ₀, howner⟩ := h.owner z Z hZ
    have hparent : Z₀.parent ≠ i := by
      rw [show Z₀.parent = Z.parent from congrArg Prod.fst howner]
      exact hother hZ
    have hpoints : Points JzChannel.peer σ.heap.get? z y := h.shrinks z y (.intro hZ hpeer)
    have hback := (htidy.into y z hy (not_mem_channelsOf hσ.registered hZ₀ hparent) hpoints).1
    cases h.fate z Z₀ hZ₀ hparent with
    | kept _ hkept => exact hunjoined hy (hkept y hy ⟨hpoints, hback⟩)
    | cleared _ hZ' =>
      obtain rfl : Z = Z₀.cleared now := Option.some.inj (hZ.symm.trans hZ')
      cases hpeer

/-- **The client `i` is restarted** by its own request or as a punishment, or it hangs up. -/
inductive Restarting (now i : ℕ) (σ σ' : Server) : Prop
  | request (cause diagnostic : UInt8) (h : jzClientDoRestart now i cause diagnostic σ = .ok σ')
  | punishment (cause : RestartCause) (diagnostic : Diag)
      (h : jzClientDoPunishmentRestart now i cause diagnostic σ = .ok σ')
  | hangup (h : jzClientDoHangup now i σ = .ok σ')

theorem doPunishmentRestart_sweeps {cause : RestartCause} {diagnostic : Diag} (hσ : σ.Coherent)
    (htidy : σ.Tidy i) (h : jzClientDoPunishmentRestart now i cause diagnostic σ = .ok σ') :
    ∃ new, Sweep i now σ σ' new [] := by
  obtain ⟨σ₁, h₁, h⟩ := bind_eq_ok h
  obtain rfl := sendMsg_eq_ok h₁
  obtain ⟨C, hC, h⟩ := bind_eq_ok h
  obtain ⟨σ₂, h₂, h⟩ := bind_eq_ok h
  have hstart : Sweep i now σ _ _ C.channels.entries :=
    .start (client_eq_ok hC) (hσ.registered.clients rfl rfl fun _ _ _ => Iff.rfl) rfl rfl
      fun s hs => by rw [List.mem_singleton.1 hs]
  obtain ⟨new, hend⟩ := hstart.foreachRemove hσ htidy C.channels.nodupKeys h₂
  exact ⟨new, hend.update h fun _ => rfl⟩

theorem doRestart_sweeps {cause diagnostic : UInt8} (hσ : σ.Coherent) (htidy : σ.Tidy i)
    (h : jzClientDoRestart now i cause diagnostic σ = .ok σ') :
    ∃ new, Sweep i now σ σ' new [] := by
  unfold jzClientDoRestart at h
  split at h
  · exact doPunishmentRestart_sweeps hσ htidy h
  obtain ⟨σ₁, h₁, h⟩ := bind_eq_ok h
  have hchanges := updateClient_changes h₁ fun _ => rfl
  have hregistered := hσ.registered.clients hchanges.heap hchanges.next hchanges.listed
  obtain ⟨C₀, -, rfl⟩ := updateClient_eq_ok h₁
  obtain ⟨C, hC, h⟩ := bind_eq_ok h
  obtain ⟨σ₂, h₂, h⟩ := bind_eq_ok h
  obtain ⟨σ₃, h₃, h⟩ := bind_eq_ok h
  have hstart : Sweep i now σ _ [] C.channels.entries :=
    .start (client_eq_ok hC) hregistered rfl (List.append_nil _).symm
      fun _ hs => absurd hs List.not_mem_nil
  obtain ⟨new, hend⟩ := hstart.foreachRemove hσ htidy C.channels.nodupKeys h₂
  -- The client is sent the confirmation.
  have hconfirmed := hend.clients (sendMsg_changes h₃) (congrArg Server.sent (sendMsg_eq_ok h₃))
    fun s hs => by rw [List.mem_singleton.1 hs]
  exact ⟨_, hconfirmed.update h fun _ => rfl⟩

theorem doHangup_sweeps (hσ : σ.Coherent) (htidy : σ.Tidy i)
    (h : jzClientDoHangup now i σ = .ok σ') : ∃ new, Sweep i now σ σ' new [] := by
  obtain ⟨C, hC, h⟩ := bind_eq_ok h
  obtain ⟨σ₁, h₁, h⟩ := bind_eq_ok h
  have hstart : Sweep i now σ σ [] C.channels.entries :=
    .start (client_eq_ok hC) hσ.registered rfl (List.append_nil _).symm
      fun _ hs => absurd hs List.not_mem_nil
  obtain ⟨new, hend⟩ := hstart.foreachRemove hσ htidy C.channels.nodupKeys h₁
  exact ⟨new, hend.update h fun _ => rfl⟩

/-- **The clean-up.** A client that is restarted by its own request or as a punishment, or that
hangs up, has no channels afterwards. If it was tidy, then every channel that was joined to one
of its channels is in `P7`, without a peer, and its client has been told so once, every other
channel of another client is as it was, and no channel points at a removed one. -/
theorem restart_cleans_up (hσ : σ.Underway) (htidy : σ.Tidy i) (h : Restarting now i σ σ') :
    ∃ new, Cleanup i σ σ' new := by
  have hcoherent := hσ.coherent
  obtain ⟨new, hsweep⟩ : ∃ new, Sweep i now σ σ' new [] := by
    cases h with
    | request _ _ h => exact doRestart_sweeps hcoherent htidy h
    | punishment _ _ h => exact doPunishmentRestart_sweeps hcoherent htidy h
    | hangup h => exact doHangup_sweeps hcoherent htidy h
  exact ⟨new, hsweep.cleanup hcoherent htidy⟩

/-- Where pointers are mutual, every client is tidy. -/
theorem Server.PeersMutual.tidy (h : σ.PeersMutual) : σ.Tidy i where
  into x z _ _ hzx := ⟨h z x hzx, fun z' hz' => (h z' x hz').unique (h z x hzx)⟩
  out x y _ hx _ hxy _ := .inr ⟨x, hx, h x y hxy⟩

/-- When an event comes in, nothing has been done for it yet. -/
theorem underway_of_reachable (h : serverSystem.Reachable σ) :
    ({ σ with sent := [] } : Server).Underway :=
  ⟨σ, ∅, h, .refl _⟩

/-- The events, and then the client `A` hangs up. -/
def hangupAfter (es : List Event) : Option (Server × Server) :=
  (({} : Server).play es).bind fun σ =>
    (jzClientDoHangup 0 0 { σ with sent := [] }).toOption.map fun σ' => (σ, σ')

theorem hangupAfter_spec {es : List Event} (h : hangupAfter es = some (σ, σ')) :
    ({} : Server).play es = some σ ∧
      jzClientDoHangup 0 0 { σ with sent := [] } = .ok σ' := by
  obtain ⟨σ₀, hplay, h⟩ := Option.bind_eq_some_iff.1 h
  obtain ⟨σ₁, hhangup, heq⟩ := toOption_map_eq_some h
  obtain ⟨rfl, rfl⟩ := Prod.mk.injEq _ _ _ _ ▸ heq
  exact ⟨hplay, hhangup⟩

/-- `A` hangs up in the middle of a call, and `B` is told once. -/
theorem restart_cleans_up_talk : ∃ σ σ' new, hangupAfter talkEvents = some (σ, σ') ∧
    Cleanup 0 { σ with sent := [] } σ' new := by
  have hsome : (hangupAfter talkEvents).isSome = true := by decide +kernel
  obtain ⟨⟨σ, σ'⟩, h⟩ := Option.isSome_iff_exists.1 hsome
  obtain ⟨hplay, hhangup⟩ := hangupAfter_spec h
  have hmutual := (mutual_of_reachable (restrict_of_play hplay (by decide))).1
  have htidy : Server.Tidy { σ with sent := [] } 0 := Server.PeersMutual.tidy hmutual
  obtain ⟨new, hnew⟩ :=
    restart_cleans_up (underway_of_reachable (reachable_of_play hplay)) htidy (.hangup hhangup)
  exact ⟨σ, σ', new, h, hnew⟩

/-- `A` clears its call of `B`, and `B` confirms. -/
def leftEvents : List Event :=
  talkEvents ++ [.message 0 0 (jzMsgNewClearRequest 1 0 0),
    .message 0 1 (jzMsgNewClearConfirmation 1)]

/-- **A call is cleared that there is not.** After `A` has cleared its call, its channel still
points at that of `B`, which is ready. `A` hangs up, and the channel of `B` gets into `P7`. -/
theorem restart_disturbs : ∃ σ σ', σ.Underway ∧ Restarting 0 0 σ σ' ∧
    ¬ ∃ new, Cleanup 0 σ σ' new := by
  have hend : (hangupAfter leftEvents).map (fun p =>
      ((p.1.heap.get? 1).map fun Z => (Z.parent, Z.peer, Z.state),
        (p.2.heap.get? 1).map JzChannel.state)) =
      some (some (1, none, .p1Ready), some .p7ServerClearIndication) := by
    decide +kernel
  obtain ⟨⟨σ, σ'⟩, h, hboth⟩ := Option.map_eq_some_iff.1 hend
  obtain ⟨hplay, hhangup⟩ := hangupAfter_spec h
  obtain ⟨hbefore, hafter⟩ := Prod.mk.injEq _ _ _ _ ▸ hboth
  obtain ⟨Z, hZ, hfields⟩ := Option.map_eq_some_iff.1 hbefore
  simp only [Prod.mk.injEq] at hfields
  obtain ⟨hparent, hpeer, hstate⟩ := hfields
  refine ⟨_, σ', underway_of_reachable (reachable_of_play hplay), .hangup hhangup, ?_⟩
  rintro ⟨new, hnew⟩
  -- The channel of `B` has no peer, and yet it is changed.
  have hsame : σ'.heap.get? 1 = some Z := by
    refine hnew.others 1 Z hZ (by rw [hparent]; decide) ?_
    rintro ⟨x, -, hpoints, -⟩
    have hpointed := (points_iff hZ).1 hpoints
    rw [hpeer] at hpointed
    cases hpointed
  rw [hsame, Option.map_some, hstate] at hafter
  cases hafter

end

end Application10
end Jozabad
