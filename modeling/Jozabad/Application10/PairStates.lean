import Jozabad.Application10.Timers
import Mathlib.Data.Fintype.Prod

/-!
# Two joined channels

The states of two channels that are each other's peers are one of six pairs, and but for
call collisions their facilities are the same (`InStep`). Every script that leaves them
joined leaves them in step. A script of a client's message has one of three outcomes
(`MessageScript.pair`): the two are in step, they are parted, or, after a clear request of
the client, the peer is parted and the channel still points at it.
-/

namespace Jozabad
namespace Application10

instance : Fintype ChannelState where
  elems := {.p1Ready, .p2ClientWaiting, .p3ServerWaiting, .p5CallCollision, .p6ClientClearRequest,
    .p7ServerClearIndication, .d1FlowControlReady, .d2ClientResetRequest, .d3ServerResetIndication}
  complete s := by cases s <;> decide

/-- The states of joined channels, in either order. -/
def inStep : ChannelState → ChannelState → Bool
  | .p2ClientWaiting, .p3ServerWaiting | .p3ServerWaiting, .p2ClientWaiting
  | .p5CallCollision, .p5CallCollision
  | .d1FlowControlReady, .d1FlowControlReady
  | .d1FlowControlReady, .d3ServerResetIndication
  | .d3ServerResetIndication, .d1FlowControlReady
  | .d2ClientResetRequest, .d3ServerResetIndication
  | .d3ServerResetIndication, .d2ClientResetRequest
  | .d3ServerResetIndication, .d3ServerResetIndication => true
  | _, _ => false

def JzChannel.facilities (X : JzChannel) : UInt16 × UInt8 × UInt8 :=
  (X.window, X.throughput, X.packet)

/-- **Two joined channels are in step.** -/
structure InStep (X Y : JzChannel) : Prop where
  states : inStep X.state Y.state = true
  facilities : ¬ (X.state = .p5CallCollision ∧ Y.state = .p5CallCollision) →
    X.facilities = Y.facilities

/-! ### The table of states -/

theorem inStep_symm : ∀ s t, inStep s t = true → inStep t s = true := by
  decide

theorem inStep_ne : ∀ s t, inStep s t = true →
    s ≠ .p1Ready ∧ s ≠ .p6ClientClearRequest ∧ s ≠ .p7ServerClearIndication := by
  decide

theorem inStep_p3 : ∀ t, inStep .p3ServerWaiting t = true → t = .p2ClientWaiting := by
  decide

theorem inStep_d1 : ∀ t, inStep .d1FlowControlReady t = true →
    t = .d1FlowControlReady ∨ t = .d3ServerResetIndication := by
  decide

theorem inStep_d3 : ∀ t, inStep .d3ServerResetIndication t = true →
    t = .d1FlowControlReady ∨ t = .d2ClientResetRequest ∨ t = .d3ServerResetIndication := by
  decide

variable {now x y : ℕ} {X X' Y Y' : JzChannel} {d d' : Duo} {msg : JzMsg} {as : List Act}

theorem InStep.symm (h : InStep X Y) : InStep Y X :=
  ⟨inStep_symm _ _ h.states, fun hne => (h.facilities fun hs => hne hs.symm).symm⟩

/-- Channels in step in a state of data transfer or reset have the same facilities. -/
theorem InStep.facilities_eq (h : InStep X Y) (hs : X.state ≠ .p5CallCollision) :
    X.facilities = Y.facilities :=
  h.facilities fun hp => hs hp.1

/-! ### Server messages -/

/-- The state after a server message. -/
def afterServer (s : ChannelState) (id : MsgId) : ChannelState :=
  match s, id with
  | .p6ClientClearRequest, .clearRequest | .p6ClientClearRequest, .clearConfirmation =>
    .d1FlowControlReady
  | .p7ServerClearIndication, _ => .p7ServerClearIndication
  | _, .clearRequest => .p7ServerClearIndication
  | .p1Ready, .callRequest => .p3ServerWaiting
  | .p2ClientWaiting, .callRequest => .p5CallCollision
  | .p2ClientWaiting, .callAccepted | .p5CallCollision, .callAccepted => .d1FlowControlReady
  | .d1FlowControlReady, .resetRequest => .d3ServerResetIndication
  | .d2ClientResetRequest, .resetRequest | .d2ClientResetRequest, .resetConfirmation =>
    .d1FlowControlReady
  | s, _ => s

theorem ServerEffect.state {out : Option JzMsg} (h : ServerEffect now X msg X' out) :
    X'.state = afterServer X.state msg.id := by
  cases h with
  | clear hid hs =>
    rw [hid]
    revert hs
    change _ → ChannelState.p7ServerClearIndication = _
    generalize X.state = s
    revert s
    decide
  | incomingCall hid hs | collision hid hs | reset hid hs =>
    rw [hid, hs]
    rfl
  | connected hid hs =>
    obtain hs | hs := hs <;> rw [hid, hs] <;> rfl
  | confirmClear hid hs | confirmReset hid hs =>
    obtain hid | hid := hid <;> rw [hid, hs] <;> rfl
  -- Data and acknowledgements leave the state alone.
  | data hid hs | rr hid hs | rnr hid hs =>
    change X.state = _
    rw [hid, hs]
    rfl
  | ignored hs =>
    revert hs
    generalize X.state = s
    generalize msg.id = id
    cases s <;> cases id <;> decide

/-- Only the set-up of a call changes facilities. -/
theorem ServerEffect.facilities {out : Option JzMsg} (h : ServerEffect now X msg X' out)
    (hid : msg.id ≠ .callRequest ∧ msg.id ≠ .callAccepted) : X'.facilities = X.facilities := by
  cases h with
  | incomingCall hid' => exact absurd hid' hid.1
  | connected hid' => exact absurd hid' hid.2
  | clear | collision | confirmClear | reset | confirmReset | data | rr | rnr | ignored => rfl

/-- A server message that is no clear request leaves the peer. -/
theorem ServerEffect.peer_eq {out : Option JzMsg} (h : ServerEffect now X msg X' out)
    (hid : msg.id ≠ .clearRequest) : X'.peer = X.peer := by
  obtain ⟨hpeer, -⟩ | ⟨-, -, hclear⟩ := h.peer
  · exact hpeer
  · exact absurd hclear hid

/-- A clear request leaves no peer, where the channel is not being cleared. -/
theorem ServerEffect.peer_eq_none {out : Option JzMsg} (h : ServerEffect now X msg X' out)
    (hid : msg.id = .clearRequest)
    (hs : X.state ≠ .p6ClientClearRequest ∧ X.state ≠ .p7ServerClearIndication) :
    X'.peer = none := by
  rw [(h.eq_cleared hid hs).1]
  rfl

/-! ### The timer after a client's message -/

/-- Nothing but the timer changes. -/
def JzChannel.SameButTimer (X X' : JzChannel) : Prop :=
  ∃ timerType timerExpirationTime timerCount,
    X' = { X with timerType, timerExpirationTime, timerCount }

/-- What comes after a client's message only resets a timer. -/
theorem timerActs_run {s : ChannelState} (h : (duoSystem now x X).Run d (timerActs s) d') :
    d'.other = d.other ∧ d'.sent = d.sent ∧ d.own.SameButTimer d'.own := by
  -- The one act there may be touches nothing but the timer.
  have hreset {original : ChannelState} {timerType : JzChannelTimerType}
      (h : (duoSystem now x X).Run d [resetTimerAct original timerType] d') :
      d'.other = d.other ∧ d'.sent = d.sent ∧ d.own.SameButTimer d'.own := by
    simp only [resetTimerAct, Lts.Run.cons_iff, Lts.Run.nil_iff, step_own] at h
    obtain ⟨_, rfl, rfl⟩ := h
    refine ⟨rfl, rfl, ?_⟩
    split
    · exact ⟨.none, 0, 0, rfl⟩
    · exact ⟨_, _, _, rfl⟩
  cases s with
  | p3ServerWaiting | d3ServerResetIndication | p7ServerClearIndication => exact hreset h
  | p1Ready | p2ClientWaiting | p5CallCollision | p6ClientClearRequest | d1FlowControlReady
    | d2ClientResetRequest =>
    cases h
    exact ⟨rfl, rfl, _, _, _, rfl⟩

/-- Where the state is the old one, the timer is left alone. -/
theorem timerActs_idle {s : ChannelState} (hs : d.own.state = s)
    (h : (duoSystem now x X).Run d (timerActs s) d') : d' = d := by
  have hidle {timerType : JzChannelTimerType}
      (h : (duoSystem now x X).Run d [resetTimerAct s timerType] d') : d' = d := by
    simp only [resetTimerAct, Lts.Run.cons_iff, Lts.Run.nil_iff, step_own] at h
    obtain ⟨_, rfl, rfl⟩ := h
    rw [if_neg fun hne => hne.1 hs]
  cases s with
  | p3ServerWaiting | d3ServerResetIndication | p7ServerClearIndication => exact hidle h
  | p1Ready | p2ClientWaiting | p5CallCollision | p6ClientClearRequest | d1FlowControlReady
    | d2ClientResetRequest =>
    cases h
    rfl

/-! ### Outcomes -/

variable {clears : Prop}

/-- **What can become of two joined channels** after a script of the first. Only where the
client asks to clear the call (`clears`) can one of them be left. -/
inductive PairOutcome (clears : Prop) (X Y X' Y' : JzChannel) : Prop
  /-- They stay joined and in step. -/
  | kept (hX : X'.peer = X.peer) (hY : Y'.peer = Y.peer) (h : InStep X' Y')
  /-- They are parted. -/
  | parted (hX : X'.peer = none) (hY : Y'.peer = none)
  /-- The first still points at the second. -/
  | left (hclears : clears) (hY : Y'.peer = none)

theorem PairOutcome.sameButTimer {X'' : JzChannel} (h : PairOutcome clears X Y X' Y')
    (hsame : X'.SameButTimer X'') : PairOutcome clears X Y X'' Y' := by
  obtain ⟨_, _, _, rfl⟩ := hsame
  cases h with
  | kept hX hY h => exact .kept hX hY ⟨h.states, h.facilities⟩
  | parted hX hY => exact .parted hX hY
  | left hclears hY => exact .left hclears hY

/-- The outcome of a script on two channels. -/
def Outcome (clears : Prop) (X Y : JzChannel) (d : Duo) : Prop :=
  ∃ Y', d.other = some Y' ∧ PairOutcome clears X Y d.own Y'

theorem PairOutcome.before {X₁ Y₁ : JzChannel} (h : PairOutcome clears X₁ Y₁ X' Y')
    (hX : X₁.peer = X.peer) (hY : Y₁.peer = Y.peer) : PairOutcome clears X Y X' Y' := by
  cases h with
  | kept hX' hY' h => exact .kept (hX'.trans hX) (hY'.trans hY) h
  | parted hX' hY' => exact .parted hX' hY'
  | left hclears hY' => exact .left hclears hY'

/-- A punishment clear parts the two. -/
theorem punishClear_pair {lcn : UInt16} {cause : ClearCause} {diagnostic : Diag}
    (hpeer : X.peer = some y) (hother : d.other = some Y) (hstep : InStep d.own Y)
    (h : (duoSystem now x X).Run d (punishClearActs lcn cause diagnostic) d') :
    Outcome clears d.own Y d' := by
  simp only [punishClearActs, Lts.Run.cons_iff, Lts.Run.nil_iff, step_other] at h
  obtain ⟨d₁, h₁, d₂, rfl, d₃, h₃, rfl⟩ := h
  obtain ⟨X', out, heff, rfl⟩ := step_self h₁
  -- The punished channel has not been cleared before, so it loses its peer.
  have hX' : X'.peer = none := heff.peer_eq_none rfl (inStep_ne _ _ hstep.states).2
  obtain ⟨Y', out', heff', rfl⟩ := step_tell hpeer (by rw [hother, Option.map_some]) h₃
  refine ⟨Y', rfl, .parted hX' ?_⟩
  obtain hY' | hY' := heff'.keeps.peer
  · exact hY'
  · exact hY'

/-- Two server messages that set up no call and clear none. -/
theorem InStep.serverMessages {msg' : JzMsg} {out out' : Option JzMsg} (h : InStep X Y)
    (hX : ServerEffect now X msg X' out) (hY : ServerEffect now Y msg' Y' out')
    (hid : msg.id ≠ .callRequest ∧ msg.id ≠ .callAccepted)
    (hid' : msg'.id ≠ .callRequest ∧ msg'.id ≠ .callAccepted) (hs : X.state ≠ .p5CallCollision)
    (hstates : inStep (afterServer X.state msg.id) (afterServer Y.state msg'.id) = true) :
    InStep X' Y' := by
  refine ⟨by rw [hX.state, hY.state, hstates], fun _ => ?_⟩
  rw [hX.facilities hid, hY.facilities hid', h.facilities_eq hs]

/-- A punishment reset keeps the two in step. -/
theorem punishReset_pair {lcn : UInt16} {cause : ResetCause} {diagnostic : Diag}
    (hpeer : X.peer = some y) (hother : d.other = some Y) (hstep : InStep d.own Y)
    (hs : d.own.state = .d1FlowControlReady ∨ d.own.state = .d2ClientResetRequest ∨
      d.own.state = .d3ServerResetIndication)
    (h : (duoSystem now x X).Run d (punishResetActs lcn cause diagnostic) d') :
    Outcome clears d.own Y d' := by
  simp only [punishResetActs, Lts.Run.cons_iff, Lts.Run.nil_iff] at h
  obtain ⟨d₁, h₁, d₂, h₂, rfl⟩ := h
  obtain ⟨X', out, heff, rfl⟩ := step_self h₁
  obtain ⟨Y', out', heff', rfl⟩ :=
    step_tell (d := { d with own := X', sent := d.sent ++ post d.own x out }) hpeer hother h₂
  refine ⟨Y', rfl, .kept (heff.peer_eq (by rintro ⟨⟩)) (heff'.peer_eq (by rintro ⟨⟩)) ?_⟩
  -- Both channels are given a reset request, and these are in step again.
  refine hstep.serverMessages heff heff' ⟨by rintro ⟨⟩, by rintro ⟨⟩⟩
    ⟨by rintro ⟨⟩, by rintro ⟨⟩⟩ ?_ ?_
  · obtain hs | hs | hs := hs <;> simp [hs]
  · have hstates := hstep.states
    -- Over the states of the two, this is a finite check.
    revert hs hstates
    change _ → _ → inStep (afterServer d.own.state .resetRequest)
      (afterServer Y.state .resetRequest) = true
    generalize d.own.state = s
    generalize Y.state = t
    revert s t
    decide

/-- The peer is told something that neither sets up nor clears a call, after the state of
the channel has changed. -/
theorem tell_pair {f : JzChannel → JzMsg} {id : MsgId} (hpeer : X.peer = some y)
    (hother : d.other = some Y)
    (h : (duoSystem now x X).Step d (.tell f) d') (hid : ∀ Y, (f Y).id = id)
    (hset : id ≠ .callRequest ∧ id ≠ .callAccepted ∧ id ≠ .clearRequest)
    (hfacilities : d.own.facilities = Y.facilities)
    (hstates : inStep d.own.state (afterServer Y.state id) = true) : Outcome clears d.own Y d' := by
  obtain ⟨Y', out, heff, rfl⟩ := step_tell hpeer hother h
  -- None of the three messages that do more than change the state.
  have hclear : (f Y).id ≠ .clearRequest := by
    rw [hid]
    exact hset.2.2
  have hcall : (f Y).id ≠ .callRequest ∧ (f Y).id ≠ .callAccepted := by
    rw [hid]
    exact ⟨hset.1, hset.2.1⟩
  refine ⟨Y', rfl, .kept rfl (heff.peer_eq hclear) ⟨?_, fun _ => ?_⟩⟩
  · rw [heff.state, hid, hstates]
  · rw [heff.facilities hcall, hfacilities]

/-- The channel is written to, and then its peer is told something. -/
theorem own_tell_pair {g : JzChannel → JzChannel} {f : JzChannel → JzMsg} {id : MsgId}
    (hpeer : X.peer = some y) (hother : d.other = some Y)
    (h : (duoSystem now x X).Run d [.own g, .tell f] d') (hid : ∀ Y, (f Y).id = id)
    (hset : id ≠ .callRequest ∧ id ≠ .callAccepted ∧ id ≠ .clearRequest)
    (hown : (g d.own).peer = d.own.peer)
    (hfacilities : (g d.own).facilities = Y.facilities)
    (hstates : inStep (g d.own).state (afterServer Y.state id) = true) :
    Outcome clears d.own Y d' := by
  simp only [Lts.Run.cons_iff, Lts.Run.nil_iff, step_own] at h
  obtain ⟨_, rfl, d₂, h₂, rfl⟩ := h
  obtain ⟨Y', hY', hout⟩ := tell_pair (d := { d with own := g d.own }) hpeer hother h₂ hid hset
    hfacilities hstates
  exact ⟨Y', hY', hout.before hown rfl⟩

/-- The call is accepted. -/
theorem accept_pair (hpeer : X.peer = some y) (hother : d.other = some Y)
    (hs : Y.state = .p2ClientWaiting) (h : (duoSystem now x X).Run d (acceptActs msg) d') :
    Outcome clears d.own Y d' := by
  simp only [acceptActs, Lts.Run.cons_iff, Lts.Run.nil_iff, step_own] at h
  obtain ⟨_, rfl, d₂, h₂, _, rfl, rfl⟩ := h
  obtain ⟨Y', out, heff, rfl⟩ :=
    step_tell (d := { d with own := JzChannel.storeFacilities msg d.own }) hpeer hother h₂
  have hstate := heff.state
  rw [hs] at hstate
  refine ⟨Y', rfl, .kept rfl (heff.peer_eq (by rintro ⟨⟩)) ⟨by rw [hstate]; rfl, fun _ => ?_⟩⟩
  -- A channel that waits for the answer takes it.
  cases heff with
  | connected => rfl
  | clear hid | incomingCall hid | collision hid | reset hid | data hid | rr hid | rnr hid =>
    cases hid
  | confirmClear _ hs' | confirmReset _ hs' =>
    rw [hs] at hs'
    cases hs'
  | ignored hs' =>
    rw [hs] at hs'
    cases hs'

/-- Both sides have called. -/
theorem collide_pair (hpeer : X.peer = some y) (hother : d.other = some Y)
    (hs : Y.state = .p2ClientWaiting) (h : (duoSystem now x X).Run d (collideActs msg) d') :
    Outcome clears d.own Y d' := by
  simp only [collideActs, Lts.Run.cons_iff, Lts.Run.nil_iff, step_own] at h
  obtain ⟨_, rfl, d₂, h₂, _, rfl, rfl⟩ := h
  obtain ⟨Y', out, heff, rfl⟩ :=
    step_tell (d := { d with own := JzChannel.storeFacilities msg d.own }) hpeer hother h₂
  have hstate := heff.state
  rw [hs] at hstate
  -- Both channels end up in a collision, where the facilities may differ.
  have hcollision : Y'.state = .p5CallCollision := hstate
  refine ⟨Y', rfl, .kept rfl (heff.peer_eq (by rintro ⟨⟩)) ⟨?_, fun hne => ?_⟩⟩
  · rw [hcollision]
    rfl
  · exact absurd ⟨rfl, hcollision⟩ hne

/-- The client asks to clear the call. -/
theorem clear_pair (hpeer : X.peer = some y) (hother : d.other = some Y)
    (hstep : InStep d.own Y) (hclears : clears)
    (h : (duoSystem now x X).Run d (clearActs msg) d') : Outcome clears d.own Y d' := by
  simp only [clearActs, Lts.Run.cons_iff, Lts.Run.nil_iff, step_own] at h
  obtain ⟨d₁, h₁, _, rfl, rfl⟩ := h
  obtain ⟨Y', out, heff, rfl⟩ := step_tell hpeer hother h₁
  exact ⟨Y', rfl, .left hclears (heff.peer_eq_none rfl (inStep_ne _ _ hstep.symm.states).2)⟩

/-- **A client's message to one of two joined channels.** -/
theorem MessageScript.pair (hscript : MessageScript X msg as) (hpeer : X.peer = some y)
    (hstep : InStep X Y)
    (h : (duoSystem now x X).Run ⟨X, some Y, []⟩ (as ++ timerActs X.state) d') :
    Outcome (msg.id = .clearRequest) X Y d' := by
  obtain ⟨d, hd, htimer⟩ := h.split
  obtain ⟨hother, -, hsame⟩ := timerActs_run htimer
  -- The reset of the timer changes nothing that matters.
  suffices hout : Outcome (msg.id = .clearRequest) X Y d by
    obtain ⟨Y', hY', hpair⟩ := hout
    exact ⟨Y', hother.trans hY', hpair.sameButTimer hsame⟩
  have hne := inStep_ne _ _ hstep.states
  have hstates := hstep.states
  have hfacilities (hs : X.state ≠ .p5CallCollision) : X.facilities = Y.facilities :=
    hstep.facilities_eq hs
  cases hscript with
  | ignored =>
    cases hd
    exact ⟨Y, rfl, .kept rfl rfl hstep⟩
  | clear hid => exact clear_pair hpeer rfl hstep hid hd
  | punishClear => exact punishClear_pair hpeer rfl hstep hd
  | punishReset cause diagnostic hs =>
    exact punishReset_pair hpeer rfl hstep (hs.imp_right .inl) hd
  | accept _ hs =>
    rw [hs] at hstates
    exact accept_pair hpeer rfl (inStep_p3 _ hstates) hd
  | collide _ hs =>
    rw [hs] at hstates
    exact collide_pair hpeer rfl (inStep_p3 _ hstates) hd
  -- A joined channel has not been cleared by the server.
  | confirmClear _ hs => exact absurd hs hne.2.2
  -- From here on the channel writes to itself and tells its peer one thing.
  | reset _ hs =>
    rw [hs] at hstates
    refine own_tell_pair hpeer rfl hd (fun _ => rfl) ⟨by rintro ⟨⟩, by rintro ⟨⟩, by rintro ⟨⟩⟩ rfl
      (hfacilities (by simp [hs])) ?_
    obtain ht | ht := inStep_d1 _ hstates <;> rw [ht] <;> rfl
  | confirmReset _ hs =>
    rw [hs] at hstates
    refine own_tell_pair hpeer rfl hd (fun _ => rfl) ⟨by rintro ⟨⟩, by rintro ⟨⟩, by rintro ⟨⟩⟩ rfl
      (hfacilities (by simp [hs])) ?_
    obtain ht | ht | ht := inStep_d3 _ hstates <;> rw [ht] <;> rfl
  | data _ hs =>
    rw [hs] at hstates
    refine own_tell_pair hpeer rfl hd (fun _ => rfl) ⟨by rintro ⟨⟩, by rintro ⟨⟩, by rintro ⟨⟩⟩ rfl
      (hfacilities (by simp [hs])) ?_
    obtain ht | ht := inStep_d1 _ hstates <;> simp only [hs, ht] <;> rfl
  | rr _ hs | rnr _ hs =>
    rw [hs] at hstates
    refine own_tell_pair hpeer rfl hd (fun _ => rfl) ⟨by rintro ⟨⟩, by rintro ⟨⟩, by rintro ⟨⟩⟩ rfl
      (hfacilities (by simp [hs])) ?_
    obtain ht | ht := inStep_d1 _ hstates <;> simp only [hs, ht] <;> rfl

/-- What only the timer of the first channel tells apart. -/
theorem InStep.sameButTimer (h : InStep X Y) (hsame : X.SameButTimer X') : InStep X' Y := by
  obtain ⟨_, _, _, rfl⟩ := hsame
  exact ⟨h.states, h.facilities⟩

theorem Outcome.sameButTimer (h : Outcome clears X' Y d') (hsame : X.SameButTimer X') :
    Outcome clears X Y d' := by
  obtain ⟨_, _, _, rfl⟩ := hsame
  obtain ⟨Y', hY', hout⟩ := h
  exact ⟨Y', hY', hout.before rfl rfl⟩

/-- **The timer of one of two joined channels.** -/
theorem ExpiryScript.pair (hscript : ExpiryScript X as) (hpeer : X.peer = some y)
    (hstep : InStep X Y) (hX : X.Timed)
    (h : (duoSystem now x X).Run ⟨X, some Y, []⟩ as d') : Outcome False X Y d' := by
  have hne := inStep_ne _ _ hstep.states
  -- A joined channel does not wait for the confirmation of a clear.
  have hclear : X.timerType ≠ .clearIndication := fun ht =>
    hne.2.2 (hX.state_of_clearIndication ht)
  cases hscript with
  -- Up to the timer, an expiration is a punishment.
  | incomingCall =>
    simp only [countAct, Lts.Run.cons_iff, step_own] at h
    obtain ⟨_, rfl, _, rfl, h⟩ := h
    have hsame : X.SameButTimer (jzChannelTimerReset X.counted) := ⟨_, _, _, rfl⟩
    exact (punishClear_pair hpeer rfl (hstep.sameButTimer hsame) h).sameButTimer hsame
  | firstReset ht =>
    simp only [countAct, Lts.Run.cons_iff, step_own] at h
    obtain ⟨_, rfl, h⟩ := h
    have hsame : X.SameButTimer X.counted := ⟨_, _, _, rfl⟩
    have hs : X.counted.state = .d3ServerResetIndication := hX.state_of_resetIndication ht
    exact (punishReset_pair hpeer rfl (hstep.sameButTimer hsame) (.inr (.inr hs))
      h).sameButTimer hsame
  | lastReset =>
    simp only [countAct, Lts.Run.cons_iff, step_own] at h
    obtain ⟨_, rfl, h⟩ := h
    have hsame : X.SameButTimer X.counted := ⟨_, _, _, rfl⟩
    exact (punishClear_pair hpeer rfl (hstep.sameButTimer hsame) h).sameButTimer hsame
  | firstClear ht => exact absurd ht hclear
  | lastClear ht => exact absurd ht hclear

end Application10
end Jozabad
