import Jozabad.Application10.Registry

/-!
# Events as tasks

Whatever the server does for an event is of two kinds. Either a client's message goes to
one of its channels, which is opened first if there is none of its number, or the event
falls into a series of tasks: clients change, or timers of channels are looked at, or
channels are restarted and removed. `Server.handle_cases` says so. A property of the
server is kept by every event if it is kept by opening a channel, by a message to a channel
and by every task.
-/

namespace Jozabad
namespace Application10

/-! ### Tasks -/

/-- What the server does for an event. -/
inductive Task where
  /-- Clients change, but not their tables, or are sent messages. -/
  | clients
  /-- The timer of the channel at `x` is looked at. -/
  | timers (now x : ℕ)
  /-- The channel at `x` is restarted, taken out of the table of its client, and freed. -/
  | remove (cause : ClearCause) (now i : ℕ) (lcn : UInt16) (x : ℕ) (diagnostic : UInt8)

/-- The channel that a task is about. -/
def Task.channel : Task → Option ℕ
  | .clients => none
  | .timers _ x => some x
  | .remove _ _ _ _ x _ => some x

/-- Only the clients change, and all tables keep their entries. -/
structure ChangesClients (σ σ' : Server) : Prop where
  heap : σ'.heap = σ.heap
  next : σ'.next = σ.next
  listed : ∀ i lcn x, σ'.Listed i lcn x ↔ σ.Listed i lcn x
  sent : ∃ new, σ'.sent = σ.sent ++ new ∧ ∀ s ∈ new, s.channel = none

/-- What a task does. -/
def Task.Does (σ σ' : Server) : Task → Prop
  | .clients => ChangesClients σ σ'
  | .timers now x => jzChannelCheckTimers now x σ = .ok σ'
  | .remove cause now i lcn x diagnostic => σ.Listed i lcn x ∧ ∃ σ₁ σ₂,
      restartChannel cause now x diagnostic σ = .ok σ₁ ∧
      (σ₁.updateClient i fun C => { C with channels := C.channels.remove lcn }) = .ok σ₂ ∧
      jzChannelFree x σ₂ = .ok σ'

/-- The server under tasks. -/
def taskSystem : Lts Server Task where
  Init _ := True
  Step σ t σ' := t.Does σ σ'

/-- From `σ` to `σ'` the server has done tasks, about the channels `xs` only. -/
def Works (xs : Set ℕ) (σ σ' : Server) : Prop :=
  ∃ ts, taskSystem.Run σ ts σ' ∧ ∀ t ∈ ts, ∀ x, t.channel = some x → x ∈ xs

section

variable {σ σ₁ σ' : Server} {now x i : ℕ} {lcn : UInt16} {msg : JzMsg} {C : JzClient} {xs : Set ℕ}

namespace Works

theorem refl (σ : Server) : Works xs σ σ :=
  ⟨[], .nil σ, fun _ h => absurd h List.not_mem_nil⟩

theorem trans (h : Works xs σ σ₁) (h' : Works xs σ₁ σ') : Works xs σ σ' := by
  obtain ⟨ts, hrun, hts⟩ := h
  obtain ⟨ts', hrun', hts'⟩ := h'
  exact ⟨ts ++ ts', hrun.append hrun', List.forall_mem_append.2 ⟨hts, hts'⟩⟩

theorem single {t : Task} (h : t.Does σ σ') (hxs : ∀ x, t.channel = some x → x ∈ xs) :
    Works xs σ σ' := by
  refine ⟨[t], .single h, fun t' ht' => ?_⟩
  rw [List.mem_singleton.1 ht']
  exact hxs

theorem mono {ys : Set ℕ} (h : Works xs σ σ') (hsub : xs ⊆ ys) : Works ys σ σ' := by
  obtain ⟨ts, hrun, hts⟩ := h
  exact ⟨ts, hrun, fun t ht x hx => hsub (hts t ht x hx)⟩

theorem ofClients (h : ChangesClients σ σ') : Works xs σ σ' :=
  .single (t := .clients) h (by rintro x ⟨⟩)

end Works

/-! ### Changes of clients -/

theorem sendMsg_changes (h : jzClientSendMsg i none msg σ = .ok σ') : ChangesClients σ σ' := by
  obtain rfl := sendMsg_eq_ok h
  refine ⟨rfl, rfl, fun _ _ _ => Iff.rfl, _, rfl, fun s hs => ?_⟩
  rw [List.mem_singleton.1 hs]

/-- A write to a client that keeps the entries of its table. -/
theorem setClient_changes {C' : JzClient} (hC : σ.clients[i]? = some C)
    (hsame : ∀ lcn, C'.channels.get? lcn = C.channels.get? lcn) :
    ChangesClients σ (σ.setClient i C') := by
  refine ⟨rfl, rfl, fun j lcn x => ?_, [], (List.append_nil _).symm,
    fun _ h => absurd h List.not_mem_nil⟩
  change (∃ C₁, (σ.clients.set i C')[j]? = some C₁ ∧ _) ↔ _
  simp only [getElem?_set_client hC]
  by_cases hj : j = i
  · subst hj
    simp only [if_pos, Option.some.injEq, exists_eq_left', hsame, Server.Listed, hC]
  · simp only [hj, if_false]
    exact Iff.rfl

theorem updateClient_changes {f : JzClient → JzClient} (h : σ.updateClient i f = .ok σ')
    (hsame : ∀ C, (f C).channels = C.channels) : ChangesClients σ σ' := by
  obtain ⟨C, hC, rfl⟩ := updateClient_eq_ok h
  exact setClient_changes hC fun lcn => by rw [hsame]

theorem updateClient_works {f : JzClient → JzClient} (h : σ.updateClient i f = .ok σ')
    (hsame : ∀ C, (f C).channels = C.channels) : Works xs σ σ' :=
  .ofClients (updateClient_changes h hsame)

theorem sendMsg_works (h : jzClientSendMsg i none msg σ = .ok σ') : Works xs σ σ' :=
  .ofClients (sendMsg_changes h)

/-- A client connects. -/
theorem append_changes : ChangesClients σ { σ with clients := σ.clients ++ [{}] } := by
  refine ⟨rfl, rfl, fun j lcn x => ?_, [], (List.append_nil _).symm,
    fun _ h => absurd h List.not_mem_nil⟩
  change (∃ C, (σ.clients ++ [({} : JzClient)])[j]? = some C ∧ C.channels.get? lcn = some x) ↔
    ∃ C, σ.clients[j]? = some C ∧ C.channels.get? lcn = some x
  rw [List.getElem?_append]
  split
  · exact Iff.rfl
  · rename_i hj
    -- The new client has an empty table, and no client was there before.
    rw [List.getElem?_eq_none (not_lt.1 hj), List.getElem?_singleton]
    constructor
    · rintro ⟨C, hC, hx⟩
      split at hC
      · cases hC
        cases hx
      · cases hC
    · rintro ⟨C, hC, -⟩
      cases hC

/-! ### Loops over the channels of a client -/

theorem restartChannel_clients {cause : ClearCause} {diagnostic : UInt8}
    (h : restartChannel cause now x diagnostic σ = .ok σ') : σ'.clients = σ.clients := by
  obtain ⟨X, hX, -⟩ := bind_eq_ok h
  exact run_clients (restartChannel_script (channel_eq_ok hX) h)

theorem checkTimers_clients (h : jzChannelCheckTimers now x σ = .ok σ') :
    σ'.clients = σ.clients := by
  obtain ⟨X, hX, -⟩ := bind_eq_ok h
  obtain rfl | ⟨as, -, hrun⟩ := checkTimers_script (channel_eq_ok hX) h
  · rfl
  · exact run_clients hrun

theorem free_clients (h : jzChannelFree x σ = .ok σ') : σ'.clients = σ.clients := by
  obtain ⟨X, hX, h⟩ := bind_eq_ok h
  obtain ⟨σ₁, h₁, h⟩ := bind_eq_ok h
  cases h
  have hrun : (actSystem 0 x X).Run σ [.other fun Y => { Y with peer := none }] σ₁ := .single h₁
  have hclients : σ₁.clients = σ.clients := run_clients hrun
  exact hclients

/-- The other entries of a table, after one is removed. -/
theorem listed_of_remove {cause : ClearCause} {diagnostic : UInt8} {σ₂ : Server} {lcn' : UInt16}
    {x' : ℕ} (h₁ : restartChannel cause now x diagnostic σ = .ok σ₁)
    (h₂ : (σ₁.updateClient i fun C => { C with channels := C.channels.remove lcn }) = .ok σ₂)
    (h₃ : jzChannelFree x σ₂ = .ok σ') (hne : lcn' ≠ lcn) (hx' : σ.Listed i lcn' x') :
    σ'.Listed i lcn' x' := by
  rw [← Listed.congr (restartChannel_clients h₁)] at hx'
  rw [Listed.congr (free_clients h₃)]
  obtain ⟨C, hC, rfl⟩ := updateClient_eq_ok h₂
  obtain ⟨C₀, hC₀, hget⟩ := hx'
  obtain rfl : C = C₀ := Option.some.inj (hC.symm.trans hC₀)
  refine ⟨{ C with channels := C.channels.remove lcn }, ?_, ?_⟩
  · change (σ₁.clients.set i _)[i]? = _
    rw [getElem?_set_client hC, if_pos rfl]
  · rw [Table.get?_remove_of_ne hne, hget]

/-- All channels of a table are restarted and removed. -/
theorem foreachRemove_works {cause : ClearCause} {diagnostic : UInt8}
    {entries : List ((_ : UInt16) × ℕ)} (hnodup : entries.NodupKeys)
    (hlisted : ∀ e ∈ entries, σ.Listed i e.1 e.2) (hxs : ∀ e ∈ entries, e.2 ∈ xs)
    (h : foreachRemove i (fun x => restartChannel cause now x diagnostic) entries σ = .ok σ') :
    Works xs σ σ' := by
  induction entries generalizing σ with
  | nil =>
    cases h
    exact .refl _
  | cons e entries ih =>
    obtain ⟨σ₁, h₁, h⟩ := bind_eq_ok h
    obtain ⟨σ₂, h₂, h⟩ := bind_eq_ok h
    obtain ⟨σ₃, h₃, h⟩ := bind_eq_ok h
    rw [List.nodupKeys_cons] at hnodup
    rw [List.forall_mem_cons] at hlisted hxs
    have htask : Works xs σ σ₃ := by
      refine .single (t := .remove cause now i e.1 e.2 diagnostic)
        ⟨hlisted.1, σ₁, σ₂, h₁, h₂, h₃⟩ fun x hx => ?_
      obtain rfl := Option.some.inj hx
      exact hxs.1
    -- The other entries are still there, since the keys are pairwise different.
    refine htask.trans (ih hnodup.2 (fun e' he' => ?_) hxs.2 h)
    refine listed_of_remove h₁ h₂ h₃ (fun heq => hnodup.1 ?_) (hlisted.2 e' he')
    rw [← heq]
    exact List.mem_keys_of_mem he'

theorem checkChannelTimers_works {readings : List (ℕ × ℕ)} (hxs : ∀ r ∈ readings, r.2 ∈ xs)
    (h : checkChannelTimers readings σ = .ok σ') : Works xs σ σ' := by
  induction readings generalizing σ with
  | nil =>
    cases h
    exact .refl _
  | cons r readings ih =>
    obtain ⟨σ₁, h₁, h⟩ := bind_eq_ok h
    rw [List.forall_mem_cons] at hxs
    refine Works.trans (.single (t := .timers r.1 r.2) h₁ fun x hx => ?_) (ih hxs.2 h)
    obtain rfl := Option.some.inj hx
    exact hxs.1

/-- The channels of a client. -/
def Server.channelsOf (σ : Server) (i : ℕ) : Set ℕ :=
  {x | ∃ lcn, σ.Listed i lcn x}

theorem ChangesClients.channelsOf (h : ChangesClients σ σ') :
    σ'.channelsOf i = σ.channelsOf i := by
  simp only [Server.channelsOf, h.listed]

theorem listed_of_entry (hC : σ.clients[i]? = some C) (e : (_ : UInt16) × ℕ)
    (he : e ∈ C.channels.entries) : σ.Listed i e.1 e.2 :=
  ⟨C, hC, Table.get?_eq_some.2 he⟩

/-- All channels of a client are restarted and removed. -/
theorem removeAll_works {cause : ClearCause} {diagnostic : UInt8} (hC : σ.clients[i]? = some C)
    (h : foreachRemove i (fun x => restartChannel cause now x diagnostic) C.channels.entries σ =
      .ok σ') : Works (σ.channelsOf i) σ σ' :=
  foreachRemove_works C.channels.nodupKeys (listed_of_entry hC)
    (fun e he => ⟨e.1, listed_of_entry hC e he⟩) h

/-! ### Restarts -/

theorem doPunishmentRestart_works {cause : RestartCause} {diagnostic : Diag}
    (h : jzClientDoPunishmentRestart now i cause diagnostic σ = .ok σ') :
    Works (σ.channelsOf i) σ σ' := by
  obtain ⟨σ₁, h₁, h⟩ := bind_eq_ok h
  obtain ⟨C, hC, h⟩ := bind_eq_ok h
  obtain ⟨σ₂, h₂, h⟩ := bind_eq_ok h
  have hsame : σ₁.channelsOf i = σ.channelsOf i := (sendMsg_changes h₁).channelsOf
  exact (sendMsg_works h₁).trans
    ((hsame ▸ removeAll_works (client_eq_ok hC) h₂).trans (updateClient_works h fun _ => rfl))

theorem doRestart_works {cause diagnostic : UInt8}
    (h : jzClientDoRestart now i cause diagnostic σ = .ok σ') : Works (σ.channelsOf i) σ σ' := by
  unfold jzClientDoRestart at h
  split at h
  · exact doPunishmentRestart_works h
  obtain ⟨σ₁, h₁, h⟩ := bind_eq_ok h
  obtain ⟨C, hC, h⟩ := bind_eq_ok h
  obtain ⟨σ₂, h₂, h⟩ := bind_eq_ok h
  obtain ⟨σ₃, h₃, h⟩ := bind_eq_ok h
  have hsame : σ₁.channelsOf i = σ.channelsOf i :=
    (updateClient_changes h₁ fun _ => rfl).channelsOf
  exact (updateClient_works h₁ fun _ => rfl).trans
    ((hsame ▸ removeAll_works (client_eq_ok hC) h₂).trans
      ((sendMsg_works h₃).trans (updateClient_works h fun _ => rfl)))

theorem doHangup_works (h : jzClientDoHangup now i σ = .ok σ') : Works (σ.channelsOf i) σ σ' := by
  obtain ⟨C, hC, h⟩ := bind_eq_ok h
  obtain ⟨σ₁, h₁, h⟩ := bind_eq_ok h
  exact (removeAll_works (client_eq_ok hC) h₁).trans (updateClient_works h fun _ => rfl)

/-! ### Timers -/

theorem restartExpiration_works (h : jzClientDoRestartIndicationExpiration now i σ = .ok σ') :
    Works (σ.channelsOf i) σ σ' := by
  obtain ⟨C, -, h⟩ := bind_eq_ok h
  split at h
  · exact doPunishmentRestart_works h
  · obtain ⟨σ₁, h₁, h⟩ := bind_eq_ok h
    exact (updateClient_works h₁ fun _ => rfl).trans (sendMsg_works h)
  · cases h

/-- No table loses or gets a channel from a look at timers. -/
theorem checkChannelTimers_clients {readings : List (ℕ × ℕ)}
    (h : checkChannelTimers readings σ = .ok σ') : σ'.clients = σ.clients := by
  induction readings generalizing σ with
  | nil =>
    cases h
    rfl
  | cons r readings ih =>
    obtain ⟨σ₁, h₁, h⟩ := bind_eq_ok h
    exact (ih h).trans (checkTimers_clients h₁)

/-- A tick reads the clock for the channels of the client. -/
theorem readings_channelsOf {clock : ℕ → ℕ} (hC : σ.clients[i]? = some C) :
    ∀ r ∈ C.channels.entries.mapIdx fun k entry => (clock k, entry.2), r.2 ∈ σ.channelsOf i := by
  intro r hr
  rw [List.mem_mapIdx] at hr
  obtain ⟨k, hk, rfl⟩ := hr
  exact ⟨_, listed_of_entry hC _ (List.getElem_mem hk)⟩

theorem clientCheckTimers_works {clock : ℕ → ℕ}
    (h : jzClientCheckTimers clock i σ = .ok σ') : Works (σ.channelsOf i) σ σ' := by
  obtain ⟨C, hC, h⟩ := bind_eq_ok h
  obtain ⟨σ₁, h₁, h⟩ := bind_eq_ok h
  obtain ⟨C₁, -, h⟩ := bind_eq_ok h
  have hchannels : Works (σ.channelsOf i) σ σ₁ :=
    checkChannelTimers_works (readings_channelsOf (client_eq_ok hC)) h₁
  refine hchannels.trans ?_
  split at h
  · cases h
    exact .refl _
  · obtain ⟨σ₂, h₂, h⟩ := bind_eq_ok h
    -- The channels are still those of the client when its own timer expires.
    have hsame₁ : σ₁.channelsOf i = σ.channelsOf i := by
      simp only [Server.channelsOf, Listed.congr (checkChannelTimers_clients h₁)]
    have hsame : σ₂.channelsOf i = σ.channelsOf i :=
      (updateClient_changes h₂ fun _ => rfl).channelsOf.trans hsame₁
    exact (updateClient_works h₂ fun _ => rfl).trans (hsame ▸ restartExpiration_works h)

/-- Where the client's own timer does not run, a tick is a look at the timers of its channels,
and nothing else. -/
theorem clientCheckTimers_quiet {clock : ℕ → ℕ} (hC : σ.clients[i]? = some C)
    (hnone : C.timerType = .none) (h : jzClientCheckTimers clock i σ = .ok σ') :
    ∃ readings : List (ℕ × ℕ), (∀ r ∈ readings, r.2 ∈ σ.channelsOf i) ∧
      checkChannelTimers readings σ = .ok σ' := by
  obtain ⟨σ₁, h₁, h⟩ := bind_eq_ok (client_bind_eq_ok hC h)
  obtain ⟨C₁, hC₁, h⟩ := bind_eq_ok h
  have hsame : C₁ = C := by
    have hclient := client_eq_ok hC₁
    rw [checkChannelTimers_clients h₁, hC] at hclient
    exact (Option.some.inj hclient).symm
  rw [if_pos (.inl (hsame ▸ hnone))] at h
  cases h
  exact ⟨_, readings_channelsOf hC, h₁⟩

/-! ### Messages and events -/

/-- **A channel of the client gets the message**: the client is initialized, and the
message is a valid one for a channel. -/
def Server.Delivers (σ : Server) (i : ℕ) (msg : JzMsg) : Prop :=
  (∃ C, σ.clients[i]? = some C ∧ C.state = .c4Initialized) ∧ jzMsgValidate msg = .ok ∧
    jzMsgIsForChannel msg = true

/-- The channel of the number of the message is found or opened, and gets the message. -/
def DeliversTo (now i : ℕ) (msg : JzMsg) (x : ℕ) (σ σ₁ σ' : Server) : Prop :=
  findOrOpenChannel i msg.lcn σ = .ok (x, σ₁) ∧ jzChannelProcessMessage now x msg σ₁ = .ok σ'

/-- **All channels of the client are restarted** because of the message. -/
def Server.Restarts (σ : Server) (i : ℕ) (msg : JzMsg) : Prop :=
  ∃ C, σ.clients[i]? = some C ∧ jzMsgValidate msg = .ok ∧
    ((C.state = .c4Initialized ∧ (msg.id = .restartRequest ∨ msg.id = .restartConfirmation)) ∨
      (C.state = .c2ClientRestartRequest ∧
        (msg.id = .restartConfirmation ∨ jzMsgIsForChannel msg = true)))

theorem inC1Uninitialized_works
    (h : jzClientProcessMessageInC1UninitializedState i msg σ = .ok σ') : Works ∅ σ σ' := by
  unfold jzClientProcessMessageInC1UninitializedState at h
  split at h
  · obtain ⟨found, -, h⟩ := bind_eq_ok h
    cases found with
    | some j => exact sendMsg_works h
    | none =>
      obtain ⟨σ₁, h₁, h⟩ := bind_eq_ok h
      exact (sendMsg_works h₁).trans (updateClient_works h fun _ => rfl)
  · cases h
    exact .refl _

theorem inC2ClientRestartRequest_cases
    (h : jzClientProcessMessageInC2ClientRestartRequestState now i msg σ = .ok σ') :
    ((msg.id = .restartConfirmation ∨ jzMsgIsForChannel msg = true) ∧
        Works (σ.channelsOf i) σ σ') ∨ Works ∅ σ σ' := by
  unfold jzClientProcessMessageInC2ClientRestartRequestState at h
  split at h
  · cases h
    exact .inr (.refl _)
  split at h
  · exact .inl ⟨‹_›, doPunishmentRestart_works h⟩
  · exact .inr (sendMsg_works h)

theorem inC3ServerRestartRequest_works
    (h : jzClientProcessMessageInC3ServerRestartRequestState i msg σ = .ok σ') :
    Works ∅ σ σ' := by
  -- The last write stops the timer of the client, if it has left the state.
  have hreset {τ : Server} (h : (τ.updateClient i fun C =>
      if C.state ≠ .c3ServerRestartRequest ∧ C.timerType = .restartIndication then
        jzClientTimerReset C
      else C) = .ok σ') : Works ∅ τ σ' := by
    refine updateClient_works h fun C => ?_
    split
    · rfl
    · rfl
  unfold jzClientProcessMessageInC3ServerRestartRequestState at h
  simp only at h
  split at h
  · obtain ⟨σ₁, h₁, h⟩ := bind_eq_ok h
    exact (updateClient_works h₁ fun _ => rfl).trans (hreset h)
  split at h
  · obtain ⟨σ₁, h₁, h⟩ := bind_eq_ok h
    cases h₁
    exact hreset h
  · obtain ⟨σ₁, h₁, h⟩ := bind_eq_ok h
    exact (sendMsg_works h₁).trans (hreset h)

theorem inC4Initialized_cases
    (h : jzClientProcessMessageInC4InitializedState now i msg σ = .ok σ') :
    (jzMsgIsForChannel msg = true ∧ ∃ x σ₁, DeliversTo now i msg x σ σ₁ σ') ∨
      ((msg.id = .restartRequest ∨ msg.id = .restartConfirmation) ∧
        Works (σ.channelsOf i) σ σ') ∨ Works ∅ σ σ' := by
  unfold jzClientProcessMessageInC4InitializedState at h
  split at h
  · exact .inr (.inl ⟨.inl ‹_›, doRestart_works h⟩)
  split at h
  · exact .inr (.inl ⟨.inr ‹_›, doPunishmentRestart_works h⟩)
  split at h
  · obtain ⟨⟨x, σ₁⟩, hfind, h⟩ := bind_eq_ok h
    exact .inl ⟨‹_›, x, σ₁, hfind, h⟩
  · exact .inr (.inr (sendMsg_works h))

/-- **What a message of a client does.** -/
theorem clientProcessMessage_cases (h : jzClientProcessMessage now i msg σ = .ok σ') :
    (σ.Delivers i msg ∧ ∃ x σ₁, DeliversTo now i msg x σ σ₁ σ') ∨
      (σ.Restarts i msg ∧ Works (σ.channelsOf i) σ σ') ∨ Works ∅ σ σ' := by
  obtain ⟨C, hC, h⟩ := bind_eq_ok h
  obtain ⟨_, -, h⟩ := bind_eq_ok h
  have hC := client_eq_ok hC
  split at h
  · rename_i hvalid
    cases hs : C.state with
    | c1Uninitialized =>
      simp only [hs] at h
      exact .inr (.inr (inC1Uninitialized_works h))
    | c2ClientRestartRequest =>
      simp only [hs] at h
      obtain ⟨hkind, hworks⟩ | hworks := inC2ClientRestartRequest_cases h
      · exact .inr (.inl ⟨⟨C, hC, hvalid, .inr ⟨hs, hkind⟩⟩, hworks⟩)
      · exact .inr (.inr hworks)
    | c3ServerRestartRequest =>
      simp only [hs] at h
      exact .inr (.inr (inC3ServerRestartRequest_works h))
    | c4Initialized =>
      simp only [hs] at h
      obtain ⟨hfor, hdelivers⟩ | ⟨hkind, hworks⟩ | hworks := inC4Initialized_cases h
      · exact .inl ⟨⟨⟨C, hC, hs⟩, hvalid, hfor⟩, hdelivers⟩
      · exact .inr (.inl ⟨⟨C, hC, hvalid, .inl ⟨hs, hkind⟩⟩, hworks⟩)
      · exact .inr (.inr hworks)
  · cases h
    exact .inr (.inr (.refl _))

/-- The channels that an event is about, where it is not a message to a channel. -/
def Event.Sweeps (σ : Server) (x : ℕ) : Event → Prop
  | .message _ i msg => σ.Restarts i msg ∧ x ∈ σ.channelsOf i
  | .corrupt _ i => x ∈ σ.channelsOf i
  | .hangup _ i => x ∈ σ.channelsOf i
  | .tick _ i => x ∈ σ.channelsOf i
  | .connect | .badMessage _ _ | .rehash _ _ => False

/-- **What the server does for an event.** -/
theorem Server.handle_cases {e : Event} (henabled : e.Enabled σ) (h : σ.handle e = .ok σ') :
    (∃ now i msg x σ₁, e = .message now i msg ∧ σ.Delivers i msg ∧
        DeliversTo now i msg x σ σ₁ σ') ∨
      Works {x | e.Sweeps σ x} σ σ' := by
  cases e with
  | connect =>
    cases h
    exact .inr (.ofClients append_changes)
  | message now i msg =>
    obtain ⟨hdeliver, x, σ₁, hto⟩ | ⟨hrestart, hworks⟩ | hworks := clientProcessMessage_cases h
    · exact .inl ⟨now, i, msg, x, σ₁, rfl, hdeliver, hto⟩
    · -- A message that restarts the client is about all of its channels.
      exact .inr (hworks.mono fun x hx => ⟨hrestart, hx⟩)
    · exact .inr (hworks.mono (Set.empty_subset _))
  | badMessage i diagnostic => exact .inr (sendMsg_works h)
  | corrupt now i => exact .inr (doPunishmentRestart_works h)
  | hangup now i =>
    obtain ⟨C, -, h⟩ := bind_eq_ok h
    obtain ⟨_, -, h⟩ := bind_eq_ok h
    obtain ⟨σ₁, h₁, h⟩ := bind_eq_ok h
    exact .inr ((doHangup_works h₁).trans (updateClient_works h fun _ => rfl))
  | tick clock i => exact .inr (clientCheckTimers_works h)
  | rehash i channels =>
    obtain ⟨C, hC, hsame⟩ := henabled
    obtain ⟨C₀, hC₀, rfl⟩ := updateClient_eq_ok h
    obtain rfl : C = C₀ := Option.some.inj (hC.symm.trans hC₀)
    exact .inr (.ofClients (setClient_changes hC fun lcn => by rw [← hsame.get?]))

end

end Application10
end Jozabad
