import Jozabad.Application10.MemorySafety

/-!
# Which events the server survives

In a run in which no client clears a joined call, and none registers without a name for its
directionality, the messages that choke the server are the only events that stop it. All
other events are handled: connections, corrupt input, hang-ups, ticks, and all other messages.

A tick asserts how often a timer has expired. For the timers of channels this is the timer
discipline. The restart timer of a client is counted as well, and between events it has expired
once at most (`counted_of_reachable`).

* `survives_iff`: the events that are handled.
-/

namespace Jozabad
namespace Application10

/-- The restart timers have expired once at most. -/
def Server.Counted (σ : Server) : Prop :=
  ∀ (i : ℕ) (C : JzClient), σ.clients[i]? = some C → C.timerCount ≤ 1

/-- The event is a message that stalls the server. -/
def Event.Chokes (σ : Server) : Event → Prop
  | .message _ i msg => σ.Chokes i msg
  | _ => False

section

variable {σ σ₁ σ' : Server} {now x i : ℕ} {X : JzChannel} {C C' : JzClient} {msg : JzMsg}
  {e : Event}

/-! ### Restart timers -/

theorem counted_of_clients (hσ : σ.Counted) (h : σ'.clients = σ.clients) : σ'.Counted := by
  unfold Server.Counted
  rw [h]
  exact hσ

/-- Only the other clients need to have been counted before. -/
theorem counted_setClient (hσ : ∀ j D, j ≠ i → σ.clients[j]? = some D → D.timerCount ≤ 1)
    (hC : σ.clients[i]? = some C) (h : C'.timerCount ≤ 1) : (σ.setClient i C').Counted := by
  intro j D hD
  change (σ.clients.set i C')[j]? = some D at hD
  rw [getElem?_set_client hC] at hD
  split at hD
  · exact Option.some.inj hD ▸ h
  · exact hσ j D ‹_› hD

theorem updateClient_counted {f : JzClient → JzClient} (hσ : σ.Counted)
    (h : σ.updateClient i f = .ok σ') (hf : ∀ C, C.timerCount ≤ 1 → (f C).timerCount ≤ 1) :
    σ'.Counted := by
  obtain ⟨C, hC, rfl⟩ := updateClient_eq_ok h
  exact counted_setClient (fun j D _ => hσ j D) hC (hf C (hσ i C hC))

theorem sendMsg_counted {o : Option ℕ} (hσ : σ.Counted)
    (h : jzClientSendMsg i o msg σ = .ok σ') : σ'.Counted := by
  obtain rfl := sendMsg_eq_ok h
  exact hσ

theorem startTimer_count (h : C.timerCount ≤ 1) : (C.startTimer now).timerCount ≤ 1 := by
  change (if C.timerType ≠ .restartIndication then 0 else C.timerCount) ≤ 1
  split
  · exact Nat.zero_le 1
  · exact h

theorem foreachRemove_counted {cause : ClearCause} {diagnostic : UInt8}
    {entries : List ((_ : UInt16) × ℕ)} (hσ : σ.Counted)
    (h : foreachRemove i (fun x => restartChannel cause now x diagnostic) entries σ = .ok σ') :
    σ'.Counted := by
  induction entries generalizing σ with
  | nil =>
    cases h
    exact hσ
  | cons entry entries ih =>
    obtain ⟨σ₁, h₁, h⟩ := bind_eq_ok h
    obtain ⟨σ₂, h₂, h⟩ := bind_eq_ok h
    obtain ⟨σ₃, h₃, h⟩ := bind_eq_ok h
    have hσ₁ := counted_of_clients hσ (restartChannel_clients h₁)
    have hσ₂ := updateClient_counted hσ₁ h₂ fun _ => id
    exact ih (counted_of_clients hσ₂ (free_clients h₃)) h

theorem punishmentRestart_counted {cause : RestartCause} {diagnostic : Diag} (hσ : σ.Counted)
    (h : jzClientDoPunishmentRestart now i cause diagnostic σ = .ok σ') : σ'.Counted := by
  obtain ⟨σ₁, h₁, h⟩ := bind_eq_ok h
  obtain ⟨C, -, h⟩ := bind_eq_ok h
  obtain ⟨σ₂, h₂, h⟩ := bind_eq_ok h
  have hσ₂ := foreachRemove_counted (sendMsg_counted hσ h₁) h₂
  exact updateClient_counted hσ₂ h fun _ hC => startTimer_count hC

theorem doRestart_counted {cause diagnostic : UInt8} (hσ : σ.Counted)
    (h : jzClientDoRestart now i cause diagnostic σ = .ok σ') : σ'.Counted := by
  unfold jzClientDoRestart at h
  split at h
  · exact punishmentRestart_counted hσ h
  obtain ⟨σ₁, h₁, h⟩ := bind_eq_ok h
  obtain ⟨C, -, h⟩ := bind_eq_ok h
  obtain ⟨σ₂, h₂, h⟩ := bind_eq_ok h
  obtain ⟨σ₃, h₃, h⟩ := bind_eq_ok h
  have hσ₁ := updateClient_counted hσ h₁ fun _ => id
  have hσ₃ := sendMsg_counted (foreachRemove_counted hσ₁ h₂) h₃
  exact updateClient_counted hσ₃ h fun _ _ => Nat.zero_le 1

theorem doHangup_counted (hσ : σ.Counted) (h : jzClientDoHangup now i σ = .ok σ') :
    σ'.Counted := by
  obtain ⟨C, -, h⟩ := bind_eq_ok h
  obtain ⟨σ₁, h₁, h⟩ := bind_eq_ok h
  exact updateClient_counted (foreachRemove_counted hσ h₁) h fun _ => id

theorem opens_counted {lcn : UInt16} (hσ : σ.Counted) (h : Opens i lcn σ σ') : σ'.Counted := by
  obtain ⟨C, hC, -, hclients⟩ := h.clients
  have hset : (σ.setClient i { C with channels := C.channels.set lcn σ.next }).Counted :=
    counted_setClient (fun j D _ => hσ j D) hC (hσ i C hC)
  exact counted_of_clients hset hclients

theorem processMessage_counted (hσ : σ.Counted) (hregistered : σ.Registered)
    (hX : σ.heap.get? x = some X) (h : jzChannelProcessMessage now x msg σ = .ok σ') :
    σ'.Counted := by
  obtain ⟨as, -, hplays⟩ | ⟨-, -, i, lcn, -, hcalls⟩ := processMessage_cases hregistered hX h
  · exact counted_of_clients hσ hplays.touches.clients
  · obtain ⟨σ₁, hopen, hclients, -⟩ := hcalls.opens
    exact counted_of_clients (opens_counted hσ hopen) hclients

theorem deliversTo_counted (hσ : σ.Counted) (hregistered : σ.Registered)
    (h : DeliversTo now i msg x σ σ₁ σ') : σ'.Counted := by
  obtain ⟨hfind, h⟩ := h
  obtain ⟨hregistered₁, X, hX, -⟩ := findOrOpen_spec hregistered hfind
  refine processMessage_counted ?_ hregistered₁ hX h
  obtain ⟨rfl, -⟩ | ⟨-, hopen⟩ := findOrOpen_cases hfind
  · exact hσ
  · exact opens_counted hσ hopen

/-! ### Messages and ticks -/

theorem inC1Uninitialized_counted (hσ : σ.Counted)
    (h : jzClientProcessMessageInC1UninitializedState i msg σ = .ok σ') : σ'.Counted := by
  unfold jzClientProcessMessageInC1UninitializedState at h
  split at h
  · obtain ⟨found, -, h⟩ := bind_eq_ok h
    cases found with
    | some j => exact sendMsg_counted hσ h
    | none =>
      obtain ⟨σ₁, h₁, h⟩ := bind_eq_ok h
      exact updateClient_counted (sendMsg_counted hσ h₁) h fun _ => id
  · cases h
    exact hσ

theorem inC2ClientRestartRequest_counted (hσ : σ.Counted)
    (h : jzClientProcessMessageInC2ClientRestartRequestState now i msg σ = .ok σ') :
    σ'.Counted := by
  unfold jzClientProcessMessageInC2ClientRestartRequestState at h
  split at h
  · cases h
    exact hσ
  split at h
  · exact punishmentRestart_counted hσ h
  · exact sendMsg_counted hσ h

theorem inC3ServerRestartRequest_counted (hσ : σ.Counted)
    (h : jzClientProcessMessageInC3ServerRestartRequestState i msg σ = .ok σ') :
    σ'.Counted := by
  have hreset {τ : Server} (hτ : τ.Counted) (h : (τ.updateClient i fun C =>
      if C.state ≠ .c3ServerRestartRequest ∧ C.timerType = .restartIndication then
        jzClientTimerReset C
      else C) = .ok σ') : σ'.Counted := by
    refine updateClient_counted hτ h fun C hC => ?_
    split
    · exact Nat.zero_le 1
    · exact hC
  unfold jzClientProcessMessageInC3ServerRestartRequestState at h
  simp only at h
  split at h
  · obtain ⟨σ₁, h₁, h⟩ := bind_eq_ok h
    exact hreset (updateClient_counted hσ h₁ fun _ => id) h
  split at h
  · exact hreset hσ h
  · obtain ⟨σ₁, h₁, h⟩ := bind_eq_ok h
    exact hreset (sendMsg_counted hσ h₁) h

theorem inC4Initialized_counted (hσ : σ.Counted) (hregistered : σ.Registered)
    (h : jzClientProcessMessageInC4InitializedState now i msg σ = .ok σ') : σ'.Counted := by
  unfold jzClientProcessMessageInC4InitializedState at h
  split at h
  · exact doRestart_counted hσ h
  split at h
  · exact punishmentRestart_counted hσ h
  split at h
  · obtain ⟨⟨x, σ₁⟩, hfind, h⟩ := bind_eq_ok h
    exact deliversTo_counted hσ hregistered ⟨hfind, h⟩
  · exact sendMsg_counted hσ h

theorem clientProcessMessage_counted (hσ : σ.Counted) (hregistered : σ.Registered)
    (h : jzClientProcessMessage now i msg σ = .ok σ') : σ'.Counted := by
  obtain ⟨C, -, h⟩ := bind_eq_ok h
  obtain ⟨_, -, h⟩ := bind_eq_ok h
  split at h
  · split at h
    · exact inC1Uninitialized_counted hσ h
    · exact inC2ClientRestartRequest_counted hσ h
    · exact inC3ServerRestartRequest_counted hσ h
    · exact inC4Initialized_counted hσ hregistered h
  · cases h
    exact hσ

/-- **An expiry is counted**, and the count is taken back after the second one. -/
theorem clientCheckTimers_counted {clock : ℕ → ℕ} (hσ : σ.Counted)
    (h : jzClientCheckTimers clock i σ = .ok σ') : σ'.Counted := by
  obtain ⟨C, -, h⟩ := bind_eq_ok h
  obtain ⟨σ₁, h₁, h⟩ := bind_eq_ok h
  have hσ₁ := counted_of_clients hσ (checkChannelTimers_clients h₁)
  obtain ⟨C₁, -, h⟩ := bind_eq_ok h
  split at h
  · cases h
    exact hσ₁
  obtain ⟨σ₂, h₂, h⟩ := bind_eq_ok h
  obtain ⟨D, hD, rfl⟩ := updateClient_eq_ok h₂
  obtain ⟨E, hE, h⟩ := bind_eq_ok h
  -- The client that is looked at is the one that has been counted.
  have hE := client_eq_ok hE
  change (σ₁.clients.set i _)[i]? = some E at hE
  rw [getElem?_set_client hD, if_pos rfl] at hE
  obtain rfl := Option.some.inj hE
  split at h
  · rename_i hcount
    exact punishmentRestart_counted
      (counted_setClient (fun j D _ => hσ₁ j D) hD hcount.le) h
  · obtain ⟨σ₃, h₃, h⟩ := bind_eq_ok h
    obtain ⟨E, hE, rfl⟩ := updateClient_eq_ok h₃
    refine sendMsg_counted (counted_setClient (fun j F hne hF => ?_) hE (Nat.zero_le 1)) h
    change (σ₁.clients.set i _)[j]? = some F at hF
    rw [getElem?_set_client hD, if_neg hne] at hF
    exact hσ₁ j F hF
  · cases h

theorem handle_counted (hσ : σ.Counted) (hregistered : σ.Registered)
    (h : σ.handle e = .ok σ') : σ'.Counted := by
  cases e with
  | connect =>
    cases h
    intro j C hC
    change (σ.clients ++ [({} : JzClient)])[j]? = some C at hC
    obtain hC | hC := List.mem_append.1 (List.mem_of_getElem? hC)
    · obtain ⟨k, hk⟩ := List.getElem?_of_mem hC
      exact hσ k C hk
    · rw [List.mem_singleton.1 hC]
      exact Nat.zero_le 1
  | message now i msg => exact clientProcessMessage_counted hσ hregistered h
  | badMessage i diagnostic => exact sendMsg_counted hσ h
  | corrupt now i => exact punishmentRestart_counted hσ h
  | hangup now i =>
    obtain ⟨C, -, h⟩ := bind_eq_ok h
    obtain ⟨_, -, h⟩ := bind_eq_ok h
    obtain ⟨σ₁, h₁, h⟩ := bind_eq_ok h
    exact updateClient_counted (doHangup_counted hσ h₁) h fun _ => id
  | tick clock i => exact clientCheckTimers_counted hσ h
  | rehash i channels => exact updateClient_counted hσ h fun _ => id

/-- **In every reachable state** the restart timers have expired once at most. -/
theorem counted_of_reachable (h : serverSystem.Reachable σ) : σ.Counted := by
  refine h.invariant Server.Counted ?_ ?_
  · rintro σ rfl i C hC
    cases hC
  · rintro σ e σ' hreach hσ ⟨-, hhandle⟩
    exact handle_counted (σ := { σ with sent := [] }) hσ (registered_of_reachable hreach).cleared
      hhandle

/-! ### What ticks assert -/

/-- A look at a timer that keeps the discipline. -/
theorem avoids_checkTimers (hσ : σ.AllNamed) (hX : σ.heap.get? x = some X) (htimed : X.Timed) :
    Avoids .assertFailed (jzChannelCheckTimers now x σ) Server.AllNamed := by
  refine .bind_ok (channel_of_get hX) ?_
  split
  · exact .ok hσ
  rename_i hdue
  have hX₁ : (σ.setChannel x X.counted).heap.get? x = some X.counted := get_setChannel_self hX
  have hσ₁ : (σ.setChannel x X.counted).AllNamed := hσ
  have hasserted : X.counted.CountAsserted := htimed.countAsserted
  unfold JzChannel.CountAsserted at hasserted
  refine .bind_ok (update_of_get hX) ?_
  -- The assertion is about the channel after the expiry has been counted.
  split
  · exact absurd (.inl ‹_›) hdue
  · rename_i htimer
    rw [show X.counted.timerType = X.timerType from rfl, htimer] at hasserted
    refine .bind_ok (channel_of_get hX₁) ?_
    refine (avoids_assertThat (decide_eq_true hasserted)).bind fun _ _ => ?_
    exact (avoids_update hσ₁).bind fun _ hσ => avoids_punishClear hσ
  · rename_i htimer
    rw [show X.counted.timerType = X.timerType from rfl, htimer] at hasserted
    refine .bind_ok (channel_of_get hX₁) ?_
    split
    · exact avoids_punishReset hσ₁
    · exact avoids_punishClear hσ₁
    · rename_i hone htwo
      exact absurd hasserted (not_or.2 ⟨hone, htwo⟩)
  · rename_i htimer
    rw [show X.counted.timerType = X.timerType from rfl, htimer] at hasserted
    refine .bind_ok (channel_of_get hX₁) ?_
    split
    · exact avoids_punishClear hσ₁
    · exact (avoids_updatePeer hσ₁).bind fun _ hσ => (avoids_update hσ).bind fun _ hσ =>
        avoids_sendMsg hσ
    · rename_i hone htwo
      exact absurd hasserted (not_or.2 ⟨hone, htwo⟩)

theorem avoids_checkChannelTimers {readings : List (ℕ × ℕ)} (hσ : σ.AllNamed)
    (hregistered : σ.Registered) (htimed : σ.Every JzChannel.Timed) :
    Avoids .assertFailed (checkChannelTimers readings σ) Server.AllNamed := by
  induction readings generalizing σ with
  | nil => exact .ok hσ
  | cons r readings ih =>
    have hcheck : Avoids .assertFailed (jzChannelCheckTimers r.1 r.2 σ) Server.AllNamed := by
      cases hX : σ.heap.get? r.2 with
      | some X => exact avoids_checkTimers hσ hX (htimed r.2 X hX)
      | none =>
        -- There is no such channel, which is another fault.
        have herror : σ.channel r.2 = .error .wildRead := by rw [Server.channel, hX]
        have hfails : jzChannelCheckTimers r.1 r.2 σ = .error .wildRead := bind_of_eq_error herror
        rw [hfails]
        exact .error (by rintro ⟨⟩)
    refine hcheck.result.bind fun σ₁ h₁ => ?_
    have htask : (Task.timers r.1 r.2).Does σ σ₁ := h₁.1
    exact ih h₁.2 (hregistered.task htask) (timed_kept.task hregistered htask htimed)

theorem avoids_clientCheckTimers {clock : ℕ → ℕ} (hσ : σ.AllNamed) (hregistered : σ.Registered)
    (htimed : σ.Every JzChannel.Timed) (hcounted : σ.Counted) :
    Avoids .assertFailed (jzClientCheckTimers clock i σ) fun _ => True := by
  refine avoids_client.bind fun C _ => ?_
  refine (avoids_checkChannelTimers hσ hregistered htimed).result.bind fun σ₁ h₁ => ?_
  have hcounted₁ := counted_of_clients hcounted (checkChannelTimers_clients h₁.1)
  refine avoids_client.bind fun C₁ hC₁ => ?_
  split
  · exact .ok trivial
  refine .bind_ok (bind_of_eq_ok (client_of_get hC₁) rfl) ?_
  have hnamed : (σ₁.setClient i { C₁ with timerCount := C₁.timerCount + 1 }).AllNamed :=
    h₁.2.setClient hC₁ (h₁.2 i C₁ hC₁)
  refine avoids_client.bind fun E hE => ?_
  change (σ₁.clients.set i _)[i]? = some E at hE
  rw [getElem?_set_client hC₁, if_pos rfl] at hE
  obtain rfl := Option.some.inj hE
  split
  · exact (avoids_punishmentRestart hnamed).mono fun _ _ => trivial
  · exact Avoids.bind (avoids_updateClient hnamed fun _ => rfl) fun _ hσ =>
      (avoids_sendMsg hσ).mono fun _ _ => trivial
  · rename_i hone htwo
    obtain hzero | hexpired := Nat.le_one_iff_eq_zero_or_eq_one.1 (hcounted₁ i C₁ hC₁)
    · exact absurd (congrArg Nat.succ hzero) hone
    · exact absurd (congrArg Nat.succ hexpired) htwo

/-! ### Events -/

/-- **Every event** that is not a message that stalls the server fails no assertion. -/
theorem avoids_handle (hσ : σ.AllNamed) (hregistered : σ.Registered)
    (htimed : σ.Every JzChannel.Timed) (hcounted : σ.Counted) (hchoke : ¬ e.Chokes σ) :
    Avoids .assertFailed (σ.handle e) fun _ => True := by
  cases e with
  | connect => exact .ok trivial
  | message now i msg =>
    exact (avoids_clientProcessMessage hσ hregistered hchoke).mono fun _ _ => trivial
  | badMessage i diagnostic => exact (avoids_sendMsg hσ).mono fun _ _ => trivial
  | corrupt now i => exact (avoids_punishmentRestart hσ).mono fun _ _ => trivial
  | hangup now i =>
    exact avoids_client.bind fun C hC => (avoids_diagnosticString hσ hC).bind fun _ _ =>
      (avoids_doHangup hσ).bind fun _ hσ =>
        Avoids.mono (avoids_updateClient hσ fun _ => rfl) fun _ _ => trivial
  | tick clock i => exact avoids_clientCheckTimers hσ hregistered htimed hcounted
  | rehash i channels =>
    exact Avoids.mono (avoids_updateClient hσ fun _ => rfl) fun _ _ => trivial

/-- All that keeps an event from failing, other than the event itself. -/
structure Server.Robust (σ : Server) : Prop where
  named : σ.AllNamed
  secure : σ.Secure
  counted : σ.Counted

/-- What is in the log does not matter. -/
theorem Server.Robust.logged (hσ : σ.Robust) (sent : List Sent) :
    ({ σ with sent } : Server).Robust :=
  ⟨hσ.named, ⟨⟨hσ.secure.inOrder.registered.clients rfl rfl fun _ _ _ => Iff.rfl,
    hσ.secure.inOrder.timed, hσ.secure.inOrder.agrees⟩, hσ.secure.peers⟩, hσ.counted⟩

theorem robust_of_reachable
    (h : (serverSystem.restrict fun σ e => ¬ e.ClearsJoined σ ∧ ¬ e.Unnames σ).Reachable σ) :
    σ.Robust where
  named := allNamed_of_reachable (h.restrict_mono fun _ _ _ hok => hok.2)
  secure := secure_of_reachable (h.restrict_mono fun _ _ _ hok => hok.1)
  counted := counted_of_reachable h.of_restrict

/-- **An event** is handled exactly if it is not a message that stalls the server. -/
theorem exists_handle_iff (hσ : σ.Robust) (henabled : e.Enabled σ) (hparsed : e.Parsed) :
    (∃ σ', σ.handle e = .ok σ') ↔ ¬ e.Chokes σ := by
  have hregistered := hσ.secure.inOrder.registered
  constructor
  · rintro ⟨σ', hhandle⟩ hchoke
    cases e with
    | connect | badMessage | corrupt | hangup | tick | rehash => exact hchoke
    | message now i msg =>
      have herror : jzClientProcessMessage now i msg σ = .error .assertFailed :=
        clientProcessMessage_of_chokes hσ.named hregistered hchoke
      cases herror.symm.trans hhandle
  · intro hchoke
    have havoids : Avoids .assertFailed (σ.handle e) fun _ => True :=
      avoids_handle hσ.named hregistered hσ.secure.inOrder.timed hσ.counted hchoke
    exact (safe_handle hσ.secure henabled hparsed).exists_ok havoids

end

end Application10
end Jozabad
