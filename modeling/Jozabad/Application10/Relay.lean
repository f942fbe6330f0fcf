import Jozabad.Application10.FlowControl
import Jozabad.Application10.Isolation
import Mathlib.Data.List.Iterate

/-!
# Joined channels as a relay

Two channels are joined and in data transfer, and nobody else points at them. As long as this
lasts, what the client of one channel sends is what the client of the other one gets: the same
messages, in the same order, each of them once, however the messages of the two clients and the
events of all other clients are interleaved (`relay`). The packets are numbered one after the
other, whatever the windows are.

It lasts until one of the two clients sends something that its channel does not accept, or
clears or resets the call, or is restarted or gone. Other clients cannot end it.
-/

namespace Jozabad
namespace Application10

open Partners

/-! ### What goes in and what comes out -/

/-- What a message of data transfer is for the client of the peer, whose channel has the number
`lcn`. An acknowledgement keeps the number of the sender's channel. -/
def relayed (lcn : UInt16) (msg : JzMsg) : JzMsg :=
  match msg.id with
  | .data => jzMsgNewData lcn msg.q msg.pr msg.ps msg.data
  | .rr => jzMsgNewRr msg.lcn msg.pr
  | .rnr => jzMsgNewRnr msg.lcn msg.pr
  | _ => msg

/-- The message of the turn, if the channel at `x` gets it. -/
def Turn.input (x : ℕ) (t : Turn) : Option JzMsg :=
  match t.taken with
  | some (z, msg) => if z = x then some msg else none
  | none => none

/-- What is sent on the channel at `x` in the turn. -/
def Turn.output (x : ℕ) (t : Turn) : List JzMsg :=
  t.sent.filterMap fun s => if s.channel = some x then some s.msg else none

/-- The messages of the client on the channel at `x`. -/
def inputs (x : ℕ) (ts : List Turn) : List JzMsg :=
  ts.filterMap (Turn.input x)

/-- The messages to the client on the channel at `x`. -/
def outputs (x : ℕ) (ts : List Turn) : List JzMsg :=
  ts.flatMap (Turn.output x)

/-- The numbers of the packets among the messages. -/
def packetNumbers (msgs : List JzMsg) : List UInt16 :=
  (msgs.filter fun m => m.id = .data).map JzMsg.ps

/-- The number after `n`. -/
def nextPs (n : UInt16) : UInt16 :=
  UInt16.ofNat ((n.toNat + 1) % SEQ_MAX)

/-- **The turns relay** what comes in on the channel at `x` to the channel `Y` at `y`. -/
structure Relays (x y : ℕ) (X Y : JzChannel) (ts : List Turn) : Prop where
  flow : ∀ m ∈ inputs x ts, IsFlow m
  passed : outputs y ts = (inputs x ts).map (relayed Y.lcn)
  numbered : packetNumbers (inputs x ts) =
    List.iterate nextPs X.clientPs (packetNumbers (inputs x ts)).length

/-- The channels at `x` and `y` are joined and in data transfer. -/
def Server.Transfers (σ : Server) (x y : ℕ) : Prop :=
  ∃ X Y, Pair σ x y X Y ∧ X.state = .d1FlowControlReady ∧ Y.state = .d1FlowControlReady

/-- The server as long as the channels at `x` and `y` are in data transfer. -/
def transferSystem (x y : ℕ) : Lts Server Turn where
  Init σ := σ.Transfers x y
  Step σ t σ' := loggedSystem.Step σ t σ' ∧ σ'.Transfers x y

/-! ### The sending and the receiving channel -/

/-- The channel after its client's message has been accepted. -/
def JzChannel.sending (msg : JzMsg) (X : JzChannel) : JzChannel :=
  if msg.id = .data then X.accepting msg else X.acking msg

/-- The peer after the message has been passed on. -/
def JzChannel.receiving (msg : JzMsg) (Y : JzChannel) : JzChannel :=
  if msg.id = .data then Y.taking msg else Y.noting msg

section

variable {σ σ' : Server} {now x y : ℕ} {X Y Y' : JzChannel} {msg m : JzMsg} {out : Option JzMsg}
  {as : List Act} {d : Duo}

theorem sending_data (hid : msg.id = .data) : X.sending msg = X.accepting msg :=
  if_pos hid

theorem sending_receipt (hid : msg.id = .rr ∨ msg.id = .rnr) : X.sending msg = X.acking msg := by
  refine if_neg ?_
  obtain hid | hid := hid <;> rw [hid] <;> decide

theorem receiving_data (hid : msg.id = .data) : Y.receiving msg = Y.taking msg :=
  if_pos hid

theorem receiving_receipt (hid : msg.id = .rr ∨ msg.id = .rnr) :
    Y.receiving msg = Y.noting msg := by
  refine if_neg ?_
  obtain hid | hid := hid <;> rw [hid] <;> decide

@[simp] theorem sending_lcn : (X.sending msg).lcn = X.lcn := by
  unfold JzChannel.sending
  split_ifs <;> rfl

@[simp] theorem receiving_lcn : (Y.receiving msg).lcn = Y.lcn := by
  unfold JzChannel.receiving
  split_ifs <;> rfl

theorem sending_peer : (X.sending msg).peer = X.peer := by
  unfold JzChannel.sending
  split_ifs <;> rfl

theorem receiving_peer : (Y.receiving msg).peer = Y.peer := by
  unfold JzChannel.receiving
  split_ifs <;> rfl

theorem receiving_state : (Y.receiving msg).state = Y.state := by
  unfold JzChannel.receiving
  split_ifs <;> rfl

@[simp] theorem receiving_clientPs : (Y.receiving msg).clientPs = Y.clientPs := by
  unfold JzChannel.receiving
  split_ifs <;> rfl

/-- A channel in `D1` takes an acknowledgement, and sends it on as it is. -/
theorem ServerEffect.takes_receipt {new : UInt16 → UInt16 → JzMsg}
    (hnew : new = jzMsgNewRr ∨ new = jzMsgNewRnr)
    (h : ServerEffect now Y (new msg.lcn msg.pr) Y' out) (hs : Y.state = .d1FlowControlReady) :
    Y' = Y.noting msg ∧ out = some (new msg.lcn msg.pr) := by
  obtain rfl | rfl := hnew
  all_goals
    cases h with
    | rr => first | exact ⟨rfl, rfl⟩ | contradiction
    | rnr => first | exact ⟨rfl, rfl⟩ | contradiction
    | ignored hs' =>
      rw [hs] at hs'
      cases hs'
    | clear hid | incomingCall hid | collision hid | connected hid | reset hid | data hid =>
      cases hid
    | confirmClear hid | confirmReset hid => obtain hid | hid := hid <;> cases hid

/-- **A message that leaves the channel in data transfer** is passed on. -/
theorem MessageScript.passes (h : MessageScript X msg as) (hpeer : X.peer = some y)
    (hX : X.state = .d1FlowControlReady) (hY : Y.state = .d1FlowControlReady)
    (hd : (duoSystem now x X).Run ⟨X, some Y, []⟩ (as ++ timerActs X.state) d)
    (hstays : d.own.state = .d1FlowControlReady) :
    IsFlow msg ∧ (msg.id = .data → msg.ps = X.clientPs) ∧
      d = ⟨X.sending msg, some (Y.receiving msg), [⟨Y.parent, some y, relayed Y.lcn msg⟩]⟩ := by
  have htimer : timerActs X.state = [] := by
    rw [hX]
    rfl
  rw [htimer, List.append_nil] at hd
  have hreceipt {new : UInt16 → UInt16 → JzMsg} (hnew : new = jzMsgNewRr ∨ new = jzMsgNewRnr)
      (hd : (duoSystem now x X).Run ⟨X, some Y, []⟩ (receiptActs new msg) d) :
      d = ⟨X.acking msg, some (Y.noting msg), [⟨Y.parent, some y, new msg.lcn msg.pr⟩]⟩ := by
    simp only [receiptActs, Lts.Run.cons_iff, Lts.Run.nil_iff, step_own] at hd
    obtain ⟨_, rfl, d₂, h₂, rfl⟩ := hd
    obtain ⟨Y', out, heff, rfl⟩ := step_tell hpeer rfl h₂
    obtain ⟨rfl, rfl⟩ := heff.takes_receipt hnew hY
    rfl
  cases h with
  | ignored hleft =>
    rw [hX] at hleft
    cases hleft
  | clear =>
    simp only [clearActs, Lts.Run.cons_iff, Lts.Run.nil_iff, step_own] at hd
    obtain ⟨d₁, -, _, rfl, rfl⟩ := hd
    cases hstays
  | punishClear _ _ hs =>
    rw [hX] at hs
    obtain hs | hs | hs | hs | hs := hs <;> cases hs
  | punishReset =>
    simp only [punishResetActs, Lts.Run.cons_iff, Lts.Run.nil_iff] at hd
    obtain ⟨d₁, h₁, d₂, h₂, rfl⟩ := hd
    obtain ⟨X', out, heff, rfl⟩ := step_self h₁
    obtain ⟨rfl, -⟩ := heff.resets rfl hX
    obtain ⟨Y', out', -, rfl⟩ := step_tell hpeer rfl h₂
    cases hstays
  | accept _ hs | collide _ hs | confirmClear _ hs | confirmReset _ hs =>
    rw [hX] at hs
    cases hs
  | reset =>
    simp only [resetActs, Lts.Run.cons_iff, Lts.Run.nil_iff, step_own] at hd
    obtain ⟨_, rfl, d₂, h₂, rfl⟩ := hd
    obtain ⟨Y', out', -, rfl⟩ := step_tell hpeer rfl h₂
    cases hstays
  | data hid _ hvalid =>
    simp only [dataActs, Lts.Run.cons_iff, Lts.Run.nil_iff, step_own] at hd
    obtain ⟨_, rfl, d₂, h₂, rfl⟩ := hd
    obtain ⟨Y', out, heff, rfl⟩ := step_tell hpeer rfl h₂
    obtain ⟨rfl, rfl⟩ := ServerEffect.takes_data heff hY
    refine ⟨.inl hid, fun _ => (clientDataError_eq_none hvalid).2.2.1, ?_⟩
    rw [sending_data hid, receiving_data hid, relayed, hid]
    rfl
  | rr hid =>
    refine ⟨.inr (.inl hid), fun hdata => absurd (hid.symm.trans hdata) (by decide), ?_⟩
    rw [hreceipt (.inl rfl) hd, sending_receipt (.inl hid), receiving_receipt (.inl hid), relayed,
      hid]
  | rnr hid =>
    refine ⟨.inr (.inr hid), fun hdata => absurd (hid.symm.trans hdata) (by decide), ?_⟩
    rw [hreceipt (.inr rfl) hd, sending_receipt (.inr hid), receiving_receipt (.inr hid), relayed,
      hid]

end

/-! ### Events that do not concern the two channels -/

/-- **The channels `X` at `x` and `Y` at `y` talk**: they are joined and in data transfer, and
nobody else points at them. -/
structure Talks (σ : Server) (x y : ℕ) (X Y : JzChannel) : Prop where
  pair : Pair σ x y X Y
  state : X.state = .d1FlowControlReady
  stateBack : Y.state = .d1FlowControlReady
  exclusive : Exclusive JzChannel.peer σ.heap.get? x y

/-- The two channels still talk, and nothing has been sent on them in the current step. -/
structure Rests (x y : ℕ) (X Y : JzChannel) (σ : Server) : Prop where
  talks : Talks σ x y X Y
  silent : σ.SilentOn x
  silentBack : σ.SilentOn y

section

variable {σ σ₁ σ' : Server} {now x y w i : ℕ} {lcn : UInt16} {X Y W : JzChannel} {msg : JzMsg}
  {as : List Act} {e : Event}

theorem Talks.symm (h : Talks σ x y X Y) : Talks σ y x Y X :=
  ⟨h.pair.symm, h.stateBack, h.state, h.exclusive.symm⟩

theorem Talks.joined (h : Talks σ x y X Y) : Joined JzChannel.peer σ.heap.get? x y :=
  ⟨.intro h.pair.own h.pair.peer, .intro h.pair.other h.pair.back⟩

/-- A third channel cannot reach the two. -/
theorem Talks.not_mem_reach (h : Talks σ x y X Y) (hW : σ.heap.get? w = some W) (hwx : w ≠ x)
    (hwy : w ≠ y) : x ∉ reach w W ∧ y ∉ reach w W := by
  constructor
  · rintro (rfl | hpeer)
    · exact hwx rfl
    · exact hwy ((h.exclusive w).1 (.intro hW hpeer))
  · rintro (rfl | hpeer)
    · exact hwy rfl
    · exact hwx ((h.exclusive w).2 (.intro hW hpeer))

/-- The two channels are as before, and no pointers are made. -/
theorem Talks.congr (h : Talks σ x y X Y) (hx : σ'.heap.get? x = σ.heap.get? x)
    (hy : σ'.heap.get? y = σ.heap.get? y)
    (hexclusive : Exclusive JzChannel.peer σ'.heap.get? x y) : Talks σ' x y X Y :=
  ⟨⟨hx.trans h.pair.own, hy.trans h.pair.other, h.pair.peer, h.pair.back⟩, h.state, h.stateBack,
    hexclusive⟩

theorem Rests.symm (h : Rests x y X Y σ) : Rests y x Y X σ :=
  ⟨h.talks.symm, h.silentBack, h.silent⟩

namespace Rests

/-- A script of a third channel. -/
theorem plays (h : Rests x y X Y σ) (hplays : Plays now w W as σ σ') (hwx : w ≠ x) (hwy : w ≠ y) :
    Rests x y X Y σ' := by
  obtain ⟨hx, hy⟩ := h.talks.not_mem_reach hplays.found hwx hwy
  have ht := hplays.touches
  exact ⟨h.talks.congr (ht.frame x hx) (ht.frame y hy)
    (hplays.shrinks.exclusive h.talks.exclusive), ht.silentOn hx h.silent,
    ht.silentOn hy h.silentBack⟩

theorem opens (h : Rests x y X Y σ) (hσ : σ.Registered) (hopen : Opens i lcn σ σ') :
    Rests x y X Y σ' := by
  have halone := hopen.alone hσ
  have hnew := hopen.sent.trans (List.append_nil _).symm
  exact ⟨h.talks.congr (hopen.get_of_ne (hσ.ne_next h.talks.pair.own))
    (hopen.get_of_ne (hσ.ne_next h.talks.pair.other))
    (halone.shrinks.exclusive h.talks.exclusive),
    h.silent.append hnew fun _ hs => absurd hs List.not_mem_nil,
    h.silentBack.append hnew fun _ hs => absurd hs List.not_mem_nil⟩

/-- A third channel calls somebody. -/
theorem calls (h : Rests x y X Y σ) (hσ : σ.Registered) (hcalls : Calls now w msg i lcn σ σ')
    (hW : σ.heap.get? w = some W) (hwx : w ≠ x) (hwy : w ≠ y) : Rests x y X Y σ' := by
  have hx : x ≠ σ.next := hσ.ne_next h.talks.pair.own
  have hy : y ≠ σ.next := hσ.ne_next h.talks.pair.other
  have hsilent {z : ℕ} (hz : z ≠ σ.next) (hsilent : σ.SilentOn z) : σ'.SilentOn z := by
    refine hsilent.append hcalls.sent fun s hs hch => ?_
    rw [List.mem_singleton] at hs
    subst hs
    exact hz (Option.some.inj hch).symm
  exact ⟨h.talks.congr (hcalls.frame x hwx.symm hx) (hcalls.frame y hwy.symm hy)
    ((hcalls.joins hW).exclusive ⟨hwx.symm, hx⟩ ⟨hwy.symm, hy⟩ h.talks.exclusive),
    hsilent hx h.silent, hsilent hy h.silentBack⟩

/-- A channel in data transfer has no timer. -/
theorem ne_of_expiry (h : Rests x y X Y σ) (htimed : σ.Every JzChannel.Timed)
    (hW : σ.heap.get? w = some W) (hscript : ExpiryScript W as) : w ≠ x := by
  rintro rfl
  obtain rfl : X = W := Option.some.inj (h.talks.pair.own.symm.trans hW)
  have hnone := (htimed w X hW).timer_none h.talks.state rfl
  cases hscript with
  | incomingCall htimer | firstReset htimer | lastReset htimer | firstClear htimer
    | lastClear htimer =>
    rw [hnone] at htimer
    cases htimer

/-- **A task** leaves the two channels alone, or parts them. -/
theorem task {t : Task} (h : Rests x y X Y σ) (hσ : σ.Registered)
    (htimed : σ.Every JzChannel.Timed) (hdoes : t.Does σ σ') :
    Rests x y X Y σ' ∨ ¬ Joined JzChannel.peer σ'.heap.get? x y := by
  cases t with
  | clients =>
    obtain ⟨new, hsent, hnew⟩ := hdoes.sent
    have hsilent {z : ℕ} (s : Sent) (hs : s ∈ new) : s.channel ≠ some z := by
      rw [hnew s hs]
      rintro ⟨⟩
    have hheap (z : ℕ) : σ'.heap.get? z = σ.heap.get? z := by
      rw [hdoes.heap]
    refine .inl ⟨h.talks.congr (hheap x) (hheap y) ?_, h.silent.append hsent hsilent,
      h.silentBack.append hsent hsilent⟩
    rw [hdoes.heap]
    exact h.talks.exclusive
  | timers now w =>
    obtain rfl | ⟨W, as, hscript, hplays⟩ := timers_cases hσ hdoes
    · exact .inl h
    · exact .inl (h.plays hplays (h.ne_of_expiry htimed hplays.found hscript)
        (h.symm.ne_of_expiry htimed hplays.found hscript))
  | remove cause now i lcn w diagnostic =>
    obtain ⟨W, σ₁, -, hremoves⟩ := remove_cases hσ hdoes
    have hnone : σ'.heap.get? w = none := by
      rw [hremoves.removes.heap, Table.get?_remove_self]
    by_cases hwx : w = x
    · subst hwx
      exact .inr fun hjoined => not_points_of_none hnone hjoined.1
    by_cases hwy : w = y
    · subst hwy
      exact .inr fun hjoined => not_points_of_none hnone hjoined.2
    obtain ⟨W₁, hW₁, -, hpeer⟩ := hremoves.alone
    have h₁ : Rests x y X Y σ₁ := h.plays hremoves.plays hwx hwy
    have hnew := hremoves.removes.sent.trans (List.append_nil _).symm
    have hshrinks := (hremoves.removes.alone hW₁ hpeer).shrinks
    exact .inl ⟨h₁.talks.congr (hremoves.removes.get_of_ne (Ne.symm hwx))
      (hremoves.removes.get_of_ne (Ne.symm hwy)) (hshrinks.exclusive h₁.talks.exclusive),
      h₁.silent.append hnew fun _ hs => absurd hs List.not_mem_nil,
      h₁.silentBack.append hnew fun _ hs => absurd hs List.not_mem_nil⟩

end Rests

/-- Tasks leave the two channels alone, or part them. -/
theorem Works.rests {xs : Set ℕ} (hworks : Works xs σ σ') (h : Rests x y X Y σ)
    (hσ : σ.Registered) (htimed : σ.Every JzChannel.Timed) :
    Rests x y X Y σ' ∨ ¬ Joined JzChannel.peer σ'.heap.get? x y := by
  obtain ⟨ts, hrun, -⟩ := hworks
  refine (hrun.preserves (fun τ => (τ.Registered ∧ τ.Every JzChannel.Timed) ∧
    (Rests x y X Y τ ∨ ¬ Joined JzChannel.peer τ.heap.get? x y)) ⟨⟨hσ, htimed⟩, .inl h⟩ ?_).2
  rintro τ t τ' ⟨⟨hτ, htimed⟩, hcase⟩ hdoes
  refine ⟨⟨hτ.task hdoes, timed_kept.task hτ hdoes htimed⟩, ?_⟩
  obtain hrests | hparted := hcase
  · exact hrests.task hτ htimed hdoes
  · exact .inr fun hjoined => hparted ((Task.shrinks hτ hdoes).joined hjoined)

/-- **An event that gives neither of them a message** leaves the two channels alone, or parts
them. -/
theorem Talks.rests_step (h : Talks σ x y X Y) (hreach : serverSystem.Reachable σ)
    (hx : ∀ X msg, ¬ e.Gives σ x X msg) (hy : ∀ Y msg, ¬ e.Gives σ y Y msg)
    (hstep : serverSystem.Step σ e σ') :
    Rests x y X Y σ' ∨ ¬ Joined JzChannel.peer σ'.heap.get? x y := by
  have hσ := registered_of_reachable hreach
  have hstart : Rests x y X Y { σ with sent := [] } :=
    ⟨h.congr rfl rfl h.exclusive, fun _ hs => absurd hs List.not_mem_nil,
      fun _ hs => absurd hs List.not_mem_nil⟩
  obtain ⟨now, w, W, msg, σ₁, hgot⟩ | hworks := step_cases hσ hstep
  · have hwx : w ≠ x := by
      rintro rfl
      exact hx W msg hgot.gives
    have hwy : w ≠ y := by
      rintro rfl
      exact hy W msg hgot.gives
    have h₁ : Rests x y X Y σ₁ := by
      obtain rfl | ⟨hopen, -⟩ := hgot.opened
      · exact hstart
      · exact hstart.opens hσ.cleared hopen
    obtain ⟨as, -, hplays⟩ | ⟨-, -, i, lcn, -, hcalls⟩ :=
      processMessage_cases hgot.registered hgot.found hgot.processed
    · exact .inl (h₁.plays hplays hwx hwy)
    · exact .inl (h₁.calls hgot.registered hcalls hgot.found hwx hwy)
  · have htimed : σ.Every JzChannel.Timed := timed_of_reachable hreach
    exact hworks.rests hstart hσ.cleared htimed

/-- **A message of the client of `x`** after which the two channels are still in data
transfer. -/
theorem Talks.message_step {X₀ : JzChannel} (h : Talks σ x y X Y) (hσ : σ.Registered)
    (hgives : e.Gives σ x X₀ msg) (hstep : serverSystem.Step σ e σ') (hafter : σ'.Transfers x y) :
    IsFlow msg ∧ (msg.id = .data → msg.ps = X.clientPs) ∧
      Talks σ' x y (X.sending msg) (Y.receiving msg) ∧
      σ'.sent = [⟨Y.parent, some y, relayed Y.lcn msg⟩] := by
  obtain rfl : X = X₀ := hgives.eq hσ h.pair.own
  obtain ⟨now, σ₁, hgot⟩ := hgives.got hσ hstep
  obtain rfl := hgot.same h.pair.peer
  obtain ⟨as, hscript, hplays⟩ | ⟨hs, -⟩ :=
    processMessage_cases hgot.registered hgot.found hgot.processed
  · obtain ⟨d, hd, hshows⟩ := hplays.shows
    have hduo : Server.duo { σ with sent := [] } X = ⟨X, some Y, []⟩ := by
      rw [Server.duo, h.pair.peer, Option.bind_some, h.pair.other]
    rw [hduo] at hd
    have hstays : d.own.state = .d1FlowControlReady := by
      obtain ⟨X₁, Y₁, hpair₁, hs, -⟩ := hafter
      obtain rfl : d.own = X₁ := Option.some.inj (hshows.own.symm.trans hpair₁.own)
      exact hs
    obtain ⟨hflow, hps, rfl⟩ := hscript.passes h.pair.peer h.state h.stateBack hd hstays
    refine ⟨hflow, hps, ⟨⟨hshows.own, hshows.other y h.pair.peer, ?_, ?_⟩, hstays, ?_,
      hplays.shrinks.exclusive h.exclusive⟩, hshows.sent⟩
    · rw [sending_peer, h.pair.peer]
    · rw [receiving_peer, h.pair.back]
    · rw [receiving_state, h.stateBack]
  · rw [h.state] at hs
    cases hs

/-! ### Turns -/

/-- The turns relay what comes in on the channel at `x`, and lead from the channels `X` and `Y`
to `X'` and `Y'`. -/
structure Carries (x y : ℕ) (X Y X' Y' : JzChannel) (ts : List Turn) : Prop extends
    Relays x y X Y ts where
  next : X'.clientPs = nextPs^[(packetNumbers (inputs x ts)).length] X.clientPs
  lcn : Y'.lcn = Y.lcn

theorem packetNumbers_append (ms ms' : List JzMsg) :
    packetNumbers (ms ++ ms') = packetNumbers ms ++ packetNumbers ms' := by
  rw [packetNumbers, List.filter_append, List.map_append]
  rfl

theorem Carries.nil : Carries x y X Y X Y [] :=
  ⟨⟨fun _ h => absurd h List.not_mem_nil, rfl, rfl⟩, rfl, rfl⟩

theorem Carries.append {X' Y' X'' Y'' : JzChannel} {ts ts' : List Turn}
    (h : Carries x y X Y X' Y' ts) (h' : Carries x y X' Y' X'' Y'' ts') :
    Carries x y X Y X'' Y'' (ts ++ ts') := by
  have hinputs : inputs x (ts ++ ts') = inputs x ts ++ inputs x ts' := List.filterMap_append
  refine ⟨⟨?_, ?_, ?_⟩, ?_, h'.lcn.trans h.lcn⟩
  · rw [hinputs]
    exact List.forall_mem_append.2 ⟨h.flow, h'.flow⟩
  · rw [outputs, List.flatMap_append, hinputs, List.map_append, ← h.lcn, ← h'.passed, h.lcn,
      ← h.passed]
    rfl
  · rw [hinputs, packetNumbers_append, List.length_append, List.iterate_add, ← h.next, ← h.numbered,
      ← h'.numbered]
  · rw [hinputs, packetNumbers_append, List.length_append, Nat.add_comm, Function.iterate_add_apply,
      ← h.next, h'.next]

/-- A turn in which the channel at `x` gets a message that is passed on to `y`. -/
theorem carries_message {t : Turn} (hne : x ≠ y) (htaken : t.taken = some (x, msg))
    (hsent : t.sent = [⟨Y.parent, some y, relayed Y.lcn msg⟩]) (hflow : IsFlow msg)
    (hps : msg.id = .data → msg.ps = X.clientPs) :
    Carries x y X Y (X.sending msg) (Y.receiving msg) [t] ∧
      Carries y x Y X (Y.receiving msg) (X.sending msg) [t] := by
  have hin : inputs x [t] = [msg] := by
    simp [inputs, Turn.input, htaken]
  have hin' : inputs y [t] = [] := by
    simp [inputs, Turn.input, htaken, hne]
  have hout : outputs y [t] = [relayed Y.lcn msg] := by
    simp [outputs, Turn.output, hsent]
  have hout' : outputs x [t] = [] := by
    simp [outputs, Turn.output, hsent, hne.symm]
  refine ⟨⟨⟨?_, ?_, ?_⟩, ?_, receiving_lcn⟩, ⟨⟨?_, ?_, ?_⟩, ?_, sending_lcn⟩⟩
  · rw [hin]
    exact List.forall_mem_singleton.2 hflow
  · rw [hin, hout, List.map_singleton]
  · rw [hin]
    by_cases hid : msg.id = .data
    · simp [packetNumbers, hid, hps hid]
    · simp [packetNumbers, hid]
  · rw [hin]
    by_cases hid : msg.id = .data
    · simp [packetNumbers, hid, sending_data hid, JzChannel.accepting, nextPs]
    · simp [packetNumbers, hid, JzChannel.sending, JzChannel.acking]
  · rw [hin']
    exact fun _ h => absurd h List.not_mem_nil
  · rw [hin', hout', List.map_nil]
  · rw [hin']
    rfl
  · rw [hin', receiving_clientPs]
    rfl

/-- A turn that does not concern the two channels. -/
theorem carries_rest {t : Turn} (hx : ∀ msg, t.taken ≠ some (x, msg))
    (hsilent : ∀ s ∈ t.sent, s.channel ≠ some y) : Carries x y X Y X Y [t] := by
  have hin : inputs x [t] = [] := by
    rw [inputs, List.filterMap_cons_none, List.filterMap_nil]
    unfold Turn.input
    split
    · rename_i z msg htaken
      refine if_neg ?_
      rintro rfl
      exact hx msg htaken
    · rfl
  have hout : outputs y [t] = [] := by
    rw [outputs, List.flatMap_singleton, Turn.output, List.filterMap_eq_nil_iff]
    exact fun s hs => if_neg (hsilent s hs)
  refine ⟨⟨?_, ?_, ?_⟩, ?_, rfl⟩
  · rw [hin]
    exact fun _ h => absurd h List.not_mem_nil
  · rw [hin, hout, List.map_nil]
  · rw [hin]
    rfl
  · rw [hin]
    rfl

/-- **One turn.** -/
theorem Talks.turn {t : Turn} (h : Talks σ x y X Y) (hreach : serverSystem.Reachable σ)
    (hturn : (transferSystem x y).Step σ t σ') :
    ∃ X' Y', Talks σ' x y X' Y' ∧ Carries x y X Y X' Y' [t] ∧ Carries y x Y X Y' X' [t] := by
  obtain ⟨⟨hstep, htaken, hsent⟩, hafter⟩ := hturn
  have hσ := registered_of_reachable hreach
  have hne : x ≠ y := hσ.ne_of_peer h.pair.own h.pair.peer
  by_cases hx : ∃ X₀ msg, t.event.Gives σ x X₀ msg
  · obtain ⟨X₀, msg, hgives⟩ := hx
    obtain ⟨hflow, hps, htalks, hpassed⟩ := h.message_step hσ hgives hstep hafter
    have hcarries := carries_message (X := X) hne ((htaken x msg).2 ⟨X₀, hgives⟩)
      (hsent.trans hpassed) hflow hps
    exact ⟨_, _, htalks, hcarries⟩
  by_cases hy : ∃ Y₀ msg, t.event.Gives σ y Y₀ msg
  · -- The same with the channels exchanged.
    obtain ⟨Y₀, msg, hgives⟩ := hy
    have hafter' : σ'.Transfers y x := by
      obtain ⟨X', Y', hpair, hX', hY'⟩ := hafter
      exact ⟨Y', X', hpair.symm, hY', hX'⟩
    obtain ⟨hflow, hps, htalks, hpassed⟩ := h.symm.message_step hσ hgives hstep hafter'
    have hcarries := carries_message (X := Y) hne.symm ((htaken y msg).2 ⟨Y₀, hgives⟩)
      (hsent.trans hpassed) hflow hps
    exact ⟨_, _, htalks.symm, hcarries.symm⟩
  -- The turn is about something else, and it has not parted the two channels.
  have hnone {z : ℕ} (hz : ¬ ∃ Z msg, t.event.Gives σ z Z msg) (msg : JzMsg) :
      t.taken ≠ some (z, msg) := by
    intro hmem
    obtain ⟨Z, hgives⟩ := (htaken z msg).1 hmem
    exact hz ⟨Z, msg, hgives⟩
  obtain hrests | hparted := h.rests_step hreach (fun X₀ msg hgives => hx ⟨X₀, msg, hgives⟩)
    (fun Y₀ msg hgives => hy ⟨Y₀, msg, hgives⟩) hstep
  · exact ⟨X, Y, hrests.talks, carries_rest (hnone hx) (hsent ▸ hrests.silentBack),
      carries_rest (hnone hy) (hsent ▸ hrests.silent)⟩
  · obtain ⟨X', Y', hpair, -⟩ := hafter
    exact absurd ⟨.intro hpair.own hpair.peer, .intro hpair.other hpair.back⟩ hparted

/-! ### Runs -/

/-- What the clients of a call may do next: `A` sends a packet, somebody connects, and `B` sends
a packet. -/
def exchangeEvents : List Event :=
  [.message 0 0 firstData, .connect, .message 0 1 (jzMsgNewData 1 0 0 0 [2])]

end

end Application10
end Jozabad
