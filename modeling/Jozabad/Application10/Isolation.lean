import Jozabad.Application10.Registration

/-!
# Calls of other clients

The handlers reach channels of other clients through pointers only, and a pointer to another
channel is only made for a call, between the calling channel and a new one. So clients that
have no pointer to a channel never get one, whatever they do: to each other, or to the client
of the channel, whom they may call.

* `isolated`: a channel out of reach of some clients stays as it is as long as only these
  clients act, and nothing is sent on it.
-/

namespace Jozabad
namespace Application10

open Partners

/-- The client whose event it is. -/
def Event.client : Event → Option ℕ
  | .connect => none
  | .message _ i _ | .badMessage i _ | .corrupt _ i => some i
  | .hangup _ i | .tick _ i | .rehash i _ => some i

/-- An event of one of the clients `S`, or a new connection. -/
def Event.Of (S : Set ℕ) (e : Event) : Prop :=
  ∀ i, e.client = some i → i ∈ S

/-- **The channel `Z` at `z` is out of reach** of the clients `S`: it is not theirs, and none of
their channels points at it. -/
structure Server.OutOfReach (S : Set ℕ) (z : ℕ) (Z : JzChannel) (σ : Server) : Prop where
  found : σ.heap.get? z = some Z
  foreign : Z.parent ∉ S
  unpointed : ∀ x X, σ.heap.get? x = some X → X.parent ∈ S → X.peer ≠ some z

/-- Nothing has been sent on the channel at `z` in the current step. -/
def Server.SilentOn (σ : Server) (z : ℕ) : Prop :=
  ∀ s ∈ σ.sent, s.channel ≠ some z

/-- An event, and what the server does with it. -/
structure Turn where
  event : Event
  /-- The channel that gets the message of the event, if one does, and the message. -/
  taken : Option (ℕ × JzMsg)
  sent : List Sent

/-- The server, with a log of what its channels get and send. -/
def loggedSystem : Lts Server Turn where
  Init := serverSystem.Init
  Step σ t σ' := serverSystem.Step σ t.event σ' ∧
    (∀ x msg, t.taken = some (x, msg) ↔ ∃ X, t.event.Gives σ x X msg) ∧ t.sent = σ'.sent

section

variable {S : Set ℕ} {σ σ₁ σ' : Server} {now x z i j : ℕ} {lcn : UInt16} {X Z : JzChannel}
  {msg : JzMsg} {as : List Act} {e : Event} {cause : ClearCause} {diagnostic : UInt8}

/-! ### Logs and runs -/

/-- A message goes to one channel. -/
theorem Event.Gives.unique {x' : ℕ} {X' : JzChannel} {msg' : JzMsg} (h : e.Gives σ x X msg)
    (h' : e.Gives σ x' X' msg') : x = x' ∧ msg = msg' := by
  cases e with
  | connect | badMessage | corrupt | hangup | tick | rehash => exact h.elim
  | message now i m =>
    obtain ⟨rfl, -, hnumbers⟩ := h
    obtain ⟨rfl, -, hnumbers'⟩ := h'
    exact ⟨(hnumbers.unique hnumbers').1, rfl⟩

theorem exists_logged_step (h : serverSystem.Step σ e σ') :
    ∃ t : Turn, t.event = e ∧ loggedSystem.Step σ t σ' := by
  by_cases htaken : ∃ x X msg, e.Gives σ x X msg
  · obtain ⟨x, X, msg, hgives⟩ := htaken
    refine ⟨⟨e, some (x, msg), σ'.sent⟩, rfl, h, fun y m => ?_, rfl⟩
    rw [Option.some.injEq, Prod.mk.injEq]
    constructor
    · rintro ⟨rfl, rfl⟩
      exact ⟨X, hgives⟩
    · rintro ⟨Y, hgives'⟩
      exact hgives.unique hgives'
  · refine ⟨⟨e, none, σ'.sent⟩, rfl, h, fun y m => ?_, rfl⟩
    exact iff_of_false (by rintro ⟨⟩) fun ⟨Y, hgives⟩ => htaken ⟨y, Y, m, hgives⟩

theorem exists_logged {es : List Event} (h : serverSystem.Run σ es σ') :
    ∃ ts, loggedSystem.Run σ ts σ' ∧ ts.map Turn.event = es := by
  induction h with
  | nil => exact ⟨[], .nil _, rfl⟩
  | cons hstep _ ih =>
    obtain ⟨t, rfl, hlogged⟩ := exists_logged_step hstep
    obtain ⟨ts, hrun, rfl⟩ := ih
    exact ⟨t :: ts, .cons hlogged hrun, List.map_cons⟩

/-! ### Channels out of reach -/

namespace Server.OutOfReach

theorem cleared (h : σ.OutOfReach S z Z) : ({ σ with sent := [] } : Server).OutOfReach S z Z :=
  ⟨h.found, h.foreign, h.unpointed⟩

theorem ne (h : σ.OutOfReach S z Z) (hX : σ.heap.get? x = some X) (hS : X.parent ∈ S) : x ≠ z := by
  rintro rfl
  obtain rfl : X = Z := Option.some.inj (hX.symm.trans h.found)
  exact h.foreign hS

/-- A channel of the clients cannot reach it. -/
theorem not_mem_reach (h : σ.OutOfReach S z Z) (hX : σ.heap.get? x = some X)
    (hS : X.parent ∈ S) : z ∉ reach x X := by
  rintro (rfl | hpeer)
  · exact h.ne hX hS rfl
  · exact h.unpointed x X hX hS hpeer

/-- No pointer to it is made, and no channel changes hands. -/
theorem shrinks (h : σ.OutOfReach S z Z) (hz : σ'.heap.get? z = σ.heap.get? z)
    (hshrinks : Shrinks JzChannel.peer σ.heap.get? σ'.heap.get?)
    (howner : ∀ x X', σ'.heap.get? x = some X' →
      (σ.heap.get? x).map JzChannel.owner = some X'.owner) : σ'.OutOfReach S z Z := by
  refine ⟨hz.trans h.found, h.foreign, fun x X' hX' hS hpeer => ?_⟩
  obtain ⟨X, hX, hback⟩ := hshrinks x z ⟨X', hX', hpeer⟩
  have hsame := howner x X' hX'
  rw [hX, Option.map_some, Option.some.injEq] at hsame
  refine h.unpointed x X hX ?_ hback
  rwa [(Prod.mk.inj hsame).1]

theorem plays (h : σ.OutOfReach S z Z) (hplays : Plays now x X as σ σ') (hS : X.parent ∈ S) :
    σ'.OutOfReach S z Z := by
  have ht := hplays.touches
  refine h.shrinks (ht.frame z (h.not_mem_reach hplays.found hS)) hplays.shrinks ?_
  intro y Y' hY'
  rw [← ht.owner y, hY', Option.map_some]

theorem removes (h : σ.OutOfReach S z Z) (hremoves : Removes i lcn x σ σ') (hzx : z ≠ x) :
    σ'.OutOfReach S z Z := by
  have hback (y : ℕ) (Y : JzChannel) (hY : σ'.heap.get? y = some Y) : σ.heap.get? y = some Y := by
    rw [← hY]
    refine (hremoves.get_of_ne ?_).symm
    rintro rfl
    rw [hremoves.heap, Table.get?_remove_self] at hY
    cases hY
  refine h.shrinks (hremoves.get_of_ne hzx) ?_ fun y Y hY => ?_
  · rintro a b ⟨A, hA, hpeer⟩
    exact ⟨A, hback a A hA, hpeer⟩
  · rw [hback y Y hY, Option.map_some]

theorem opens (h : σ.OutOfReach S z Z) (hσ : σ.Registered) (hopen : Opens i lcn σ σ') :
    σ'.OutOfReach S z Z := by
  have hz : z ≠ σ.next := hσ.ne_next h.found
  refine ⟨(hopen.get_of_ne hz).trans h.found, h.foreign, fun x X hX hS => ?_⟩
  by_cases hx : x = σ.next
  · -- The new channel has no peer.
    subst hx
    obtain rfl := Option.some.inj (hopen.get_new.symm.trans hX)
    rintro ⟨⟩
  · exact h.unpointed x X ((hopen.get_of_ne hx).symm.trans hX) hS

/-- A call only makes pointers between the calling channel and a new one. -/
theorem calls (h : σ.OutOfReach S z Z) (hσ : σ.Registered) (hcalls : Calls now x msg i lcn σ σ')
    (hX : σ.heap.get? x = some X) (hS : X.parent ∈ S) : σ'.OutOfReach S z Z := by
  have hz : z ≠ σ.next := hσ.ne_next h.found
  have hzx : z ≠ x := (h.ne hX hS).symm
  refine ⟨(hcalls.frame z hzx hz).trans h.found, h.foreign, fun y Y hY hYS hpeer => ?_⟩
  by_cases hyx : y = x
  · subst hyx
    obtain rfl := Option.some.inj ((hcalls.own X hX).symm.trans hY)
    exact hz (Option.some.inj hpeer).symm
  by_cases hy : y = σ.next
  · subst hy
    obtain rfl := Option.some.inj (hcalls.other.symm.trans hY)
    exact hzx (Option.some.inj hpeer).symm
  · exact h.unpointed y Y ((hcalls.frame y hyx hy).symm.trans hY) hYS hpeer

end Server.OutOfReach

/-! ### Silent channels -/

theorem Server.SilentOn.append {new : List Sent} (h : σ.SilentOn z)
    (hsent : σ'.sent = σ.sent ++ new) (hnew : ∀ s ∈ new, s.channel ≠ some z) : σ'.SilentOn z := by
  unfold Server.SilentOn
  rw [hsent]
  exact List.forall_mem_append.2 ⟨h, hnew⟩

theorem Touches.silentOn {zs : Set ℕ} (h : Touches zs σ σ') (hz : z ∉ zs) (hσ : σ.SilentOn z) :
    σ'.SilentOn z := by
  obtain ⟨new, hsent, hin⟩ := h.sends
  refine hσ.append hsent fun s hs hch => ?_
  obtain ⟨y, hy, hy'⟩ := hin s hs
  obtain rfl : y = z := Option.some.inj (hy'.symm.trans hch)
  exact hz hy

/-! ### Steps -/

/-- What holds while the server handles an event of the clients `S`, which is about the channels
`xs` of theirs. -/
structure Spares (S : Set ℕ) (z : ℕ) (Z : JzChannel) (xs : Set ℕ) (σ : Server) : Prop where
  registered : σ.Registered
  outOfReach : σ.OutOfReach S z Z
  silent : σ.SilentOn z
  theirs : ∀ x ∈ xs, ∀ X, σ.heap.get? x = some X → X.parent ∈ S

theorem Spares.plays {xs : Set ℕ} (h : Spares S z Z xs σ) (hplays : Plays now x X as σ σ')
    (hx : x ∈ xs) : Spares S z Z xs σ' := by
  have hS : X.parent ∈ S := h.theirs x hx X hplays.found
  have ht := hplays.touches
  refine ⟨hplays.registered h.registered, h.outOfReach.plays hplays hS,
    ht.silentOn (h.outOfReach.not_mem_reach hplays.found hS) h.silent, fun y hy Y' hY' => ?_⟩
  obtain ⟨Y, hY, howner⟩ := Option.map_eq_some_iff.1
    ((ht.owner y).symm.trans (congrArg (Option.map JzChannel.owner) hY'))
  rw [← (Prod.mk.inj howner).1]
  exact h.theirs y hy Y hY

/-- **A task** that is about channels of the clients. -/
theorem Spares.task {xs : Set ℕ} {t : Task} (h : Spares S z Z xs σ) (hdoes : t.Does σ σ')
    (hxs : ∀ x, t.channel = some x → x ∈ xs) : Spares S z Z xs σ' := by
  cases t with
  | clients =>
    obtain ⟨new, hsent, hnew⟩ := hdoes.sent
    refine ⟨h.registered.task (t := .clients) hdoes, ⟨?_, h.outOfReach.foreign, ?_⟩,
      h.silent.append hsent fun s hs hch => ?_, ?_⟩
    · rw [hdoes.heap, h.outOfReach.found]
    · rw [hdoes.heap]
      exact h.outOfReach.unpointed
    · rw [hnew s hs] at hch
      cases hch
    · rw [hdoes.heap]
      exact h.theirs
  | timers now x =>
    obtain rfl | ⟨X, as, -, hplays⟩ := timers_cases h.registered hdoes
    · exact h
    · exact h.plays hplays (hxs x rfl)
  | remove cause now i lcn x diagnostic =>
    obtain ⟨X, σ₁, -, hremoves⟩ := remove_cases h.registered hdoes
    have hX : X.parent ∈ S := h.theirs x (hxs x rfl) X hremoves.plays.found
    have hzx : z ≠ x := (h.outOfReach.ne hremoves.plays.found hX).symm
    have h₁ : Spares S z Z xs σ₁ := h.plays hremoves.plays (hxs x rfl)
    refine ⟨(hremoves.registered h.registered).2, h₁.outOfReach.removes hremoves.removes hzx,
      h₁.silent.append (hremoves.removes.sent.trans (List.append_nil _).symm)
        fun _ hs => absurd hs List.not_mem_nil, fun y hy Y hY => ?_⟩
    refine h₁.theirs y hy Y ?_
    rw [← hY]
    refine (hremoves.removes.get_of_ne ?_).symm
    rintro rfl
    rw [hremoves.removes.heap, Table.get?_remove_self] at hY
    cases hY

/-- The channel that gets a message is the client's. -/
theorem Event.Gives.client (hσ : σ.Registered) (h : e.Gives σ x X msg) :
    e.client = some X.parent := by
  cases e with
  | connect | badMessage | corrupt | hangup | tick | rehash => exact h.elim
  | message now i m =>
    obtain ⟨rfl, -, ⟨hlisted, hX⟩ | ⟨-, -, rfl⟩⟩ := h
    · obtain ⟨X₀, hX₀, howner⟩ := hσ.get_of_listed hlisted
      obtain rfl : X = X₀ := Option.some.inj (hX.symm.trans hX₀)
      rw [Event.client, ← (Prod.mk.inj howner).1]
    · rfl

/-- The channels that an event sweeps are the client's. -/
theorem Event.Sweeps.client (h : e.Sweeps σ x) : ∃ i, e.client = some i ∧ x ∈ σ.channelsOf i := by
  cases e with
  | connect | badMessage | rehash => exact h.elim
  | message now i msg => exact ⟨i, rfl, h.2⟩
  | corrupt now i | hangup now i | tick now i => exact ⟨i, rfl, h⟩

/-- **A step of the clients** `S`. -/
theorem Server.OutOfReach.step (h : σ.OutOfReach S z Z) (hσ : σ.Registered) (he : e.Of S)
    (hstep : serverSystem.Step σ e σ') : σ'.OutOfReach S z Z ∧ σ'.SilentOn z := by
  have hsilent : ({ σ with sent := [] } : Server).SilentOn z :=
    fun _ hs => absurd hs List.not_mem_nil
  obtain ⟨now, x, X, msg, σ₁, hgot⟩ | hworks := step_cases hσ hstep
  · have hS : X.parent ∈ S := he _ (hgot.gives.client hσ)
    -- The channel may have been opened for the message.
    obtain ⟨h₁, hsilent₁⟩ : σ₁.OutOfReach S z Z ∧ σ₁.SilentOn z := by
      obtain rfl | ⟨hopen, -⟩ := hgot.opened
      · exact ⟨h.cleared, hsilent⟩
      · refine ⟨h.cleared.opens hσ.cleared hopen, ?_⟩
        exact hsilent.append (hopen.sent.trans (List.append_nil _).symm)
          fun _ hs => absurd hs List.not_mem_nil
    obtain ⟨as, -, hplays⟩ | ⟨-, -, i, lcn, -, hcalls⟩ :=
      processMessage_cases hgot.registered hgot.found hgot.processed
    · exact ⟨h₁.plays hplays hS,
        hplays.touches.silentOn (h₁.not_mem_reach hgot.found hS) hsilent₁⟩
    · refine ⟨h₁.calls hgot.registered hcalls hgot.found hS, hsilent₁.append hcalls.sent ?_⟩
      rintro s hs hch
      rw [List.mem_singleton] at hs
      subst hs
      exact hgot.registered.ne_next h₁.found (Option.some.inj hch).symm
  · obtain ⟨ts, hrun, hxs⟩ := hworks
    have hstart : Spares S z Z {x | e.Sweeps σ x} { σ with sent := [] } := by
      refine ⟨hσ.cleared, h.cleared, hsilent, fun x hx X hX => ?_⟩
      obtain ⟨i, hi, lcn, hlisted⟩ := Event.Sweeps.client hx
      obtain ⟨X₀, hX₀, howner⟩ := hσ.get_of_listed hlisted
      obtain rfl : X = X₀ := Option.some.inj (hX.symm.trans hX₀)
      exact (Prod.mk.inj howner).1 ▸ he i hi
    have hend : Spares S z Z {x | e.Sweeps σ x} σ' := by
      clear hstep
      generalize ({ σ with sent := [] } : Server) = τ at hrun hstart
      induction hrun with
      | nil => exact hstart
      | cons hdoes _ ih =>
        rw [List.forall_mem_cons] at hxs
        exact ih hxs.2 (hstart.task hdoes hxs.1)
    exact ⟨hend.outOfReach, hend.silent⟩

/-- The standing of a client only changes by its own events. -/
theorem standing_of_others (hσ : σ.Registered) (hother : e.client ≠ some j)
    (hj : j < σ.clients.length) (h : σ.handle e = .ok σ') : σ'.standing j = σ.standing j := by
  have hne {i : ℕ} (hi : e.client = some i) : j ≠ i := by
    rintro rfl
    exact hother hi
  cases e with
  | connect =>
    rw [connect_standing h j, if_neg (Nat.ne_of_lt hj)]
  | message now i msg =>
    obtain ⟨-, hset⟩ | ⟨-, hsame | ⟨-, hset | hset⟩⟩ := clientProcessMessage_standing hσ h
    · exact hset.other (hne rfl)
    · exact hsame j
    · exact hset.other (hne rfl)
    · exact hset.other (hne rfl)
  | badMessage i diagnostic => exact sendMsg_same h j
  | corrupt now i => exact (doPunishmentRestart_restands h).other (hne rfl)
  | hangup now i => exact (hangup_restands h).other (hne rfl)
  | tick clock i =>
    obtain hsame | ⟨-, hset | hset⟩ := clientCheckTimers_standing h
    · exact hsame j
    · exact hset.other (hne rfl)
    · exact hset.other (hne rfl)
  | rehash i channels => exact updateClient_same h (fun _ => rfl) j

/-! ### Runs -/

/-- **Calls are isolated from each other.** As long as only the clients `S` act, a channel out of
their reach stays as it is, under its number in the table of its client. Nothing is sent on it,
and the standing of its client does not change. -/
theorem isolated {ts : List Turn} (hreach : serverSystem.Reachable σ) (hz : σ.OutOfReach S z Z)
    (hrun : loggedSystem.Run σ ts σ') (hts : ∀ t ∈ ts, t.event.Of S) :
    σ'.OutOfReach S z Z ∧ σ'.Listed Z.parent Z.lcn z ∧
      (∀ t ∈ ts, ∀ s ∈ t.sent, s.channel ≠ some z) ∧
      σ'.standing Z.parent = σ.standing Z.parent := by
  induction hrun with
  | nil =>
    have hlisted := (registered_of_reachable hreach).listed_of_get hz.found
    exact ⟨hz, hlisted, fun _ h => absurd h List.not_mem_nil, rfl⟩
  | @cons σ t σ₁ ts σ' hstep _ ih =>
    obtain ⟨ht, hts⟩ := List.forall_mem_cons.1 hts
    have hσ := registered_of_reachable hreach
    obtain ⟨hz₁, hsilent⟩ := hz.step hσ ht hstep.1
    obtain ⟨hend, hlisted, hsent, hstanding⟩ := ih (hreach.step hstep.1) hz₁ hts
    refine ⟨hend, hlisted, List.forall_mem_cons.2 ⟨?_, hsent⟩, hstanding.trans ?_⟩
    · rw [hstep.2.2]
      exact hsilent
    · -- The client of the channel does not act.
      obtain ⟨C, hC, -⟩ := hσ.listed_of_get hz.found
      have hlt := (List.getElem?_eq_some_iff.1 hC).1
      exact standing_of_others (σ := { σ with sent := [] }) hσ.cleared
        (fun h => hz.foreign (ht _ h)) hlt hstep.1.2

/-- A client `C` connects, calls `A` while this talks with `B`, and hangs up. -/
def intrusion : List Event :=
  [.connect, .message 0 2 (jzMsgNewConnect (some (.ofBytes [67])) 0),
    .message 0 2 (jzMsgNewCallRequest 1 (some (.ofBytes [67])) (some (.ofBytes [65])) 6 2 10 []),
    .hangup 0 2]

theorem intrusion_of_client : ∀ e ∈ intrusion, e.Of {2} := by
  intro e he i hi
  simp only [intrusion, List.mem_cons, List.not_mem_nil, or_false] at he
  obtain rfl | rfl | rfl | rfl := he <;> cases hi <;> rfl

/-- The channel of `A` on which it talks with `B`. -/
theorem isolated_talk : ∃ σ σ' Z, ({} : Server).play talkEvents = some σ ∧
    σ.play intrusion = some σ' ∧ σ.heap.get? 0 = some Z ∧ σ'.heap.get? 0 = some Z := by
  obtain ⟨σ, σ', Z, hplay, hplay', hZ, howner, hclients⟩ : ∃ σ σ' Z,
      ({} : Server).play talkEvents = some σ ∧ σ.play intrusion = some σ' ∧
      σ.heap.get? 0 = some Z ∧ Z.parent = 0 ∧ σ.clients.length = 2 :=
    ⟨_, _, _, rfl, rfl, rfl, rfl, rfl⟩
  have hreach := reachable_of_play hplay
  have hz : σ.OutOfReach {2} 0 Z := by
    refine ⟨hZ, by rw [howner]; decide, fun x X hX hS => ?_⟩
    -- There is no such client yet.
    obtain ⟨C, hC, -⟩ := (registered_of_reachable hreach).listed_of_get hX
    have hlt := (List.getElem?_eq_some_iff.1 hC).1
    rw [Set.mem_singleton_iff.1 hS, hclients] at hlt
    exact absurd hlt (lt_irrefl 2)
  obtain ⟨ts, hrun, hevents⟩ := exists_logged (run_of_play hplay')
  have hts : ∀ t ∈ ts, t.event.Of {2} := fun t ht =>
    intrusion_of_client t.event (hevents ▸ List.mem_map_of_mem ht)
  exact ⟨σ, σ', Z, hplay, hplay', hZ, (isolated hreach hz hrun hts).1.found⟩

end

end Application10
end Jozabad
