import Jozabad.Application10.Input
import Jozabad.Application10.Steps

/-!
# The registration of clients

A client is registered from its `CONNECT` to its hang-up. Only then is it to be initialized
or restarting, under an address that nobody else has, and only then is it to be found
(`LifeCycle`).

The registration is a matter of four fields of a client, its `Standing`. A step of the
server changes the standing of one client at most, in one of the ways that
`StandingStep` lists. Two of them are wrong. A client whose first bytes are corrupt is
punished before it has connected, and counts as initialized later. And a client that hangs
up keeps its address, so that it is still found, and nobody else can have the address. A run
keeps the life cycle exactly if it has no such step (`registration`).
-/

namespace Jozabad
namespace Application10

variable {σ σ₁ σ' : Server} {i j now : ℕ} {msg : JzMsg} {e : Event} {es past : List Event}

/-! ### The life cycle -/

/-- The `CONNECT` of the client is accepted. -/
structure Server.Accepts (σ : Server) (i : ℕ) (msg : JzMsg) : Prop where
  client : ∃ C, σ.clients[i]? = some C ∧ C.state = .c1Uninitialized
  connect : msg.id = .connect
  valid : jzMsgValidate msg = .ok
  free : jzClientListFindClient msg.callingAddress σ = .ok none

/-- The event is a `CONNECT` of the client that is accepted. -/
def Event.Accepts (σ : Server) (i : ℕ) : Event → Prop
  | .message _ j msg => j = i ∧ σ.Accepts i msg
  | _ => False

/-- The event is the hang-up of the client. -/
def Event.HangsUp (i : ℕ) : Event → Prop
  | .hangup _ j => j = i
  | _ => False

/-- A `CONNECT` of the client has been accepted, and it has not hung up since. -/
def AcceptedSince (past : List Event) (i : ℕ) : Prop :=
  ∃ es₁ e es₂ σ₁, past = es₁ ++ e :: es₂ ∧ serverSystem.Run {} es₁ σ₁ ∧ e.Accepts σ₁ i ∧
    ∀ e' ∈ es₂, ¬ e'.HangsUp i

/-- The client has hung up. -/
def HungUp (past : List Event) (i : ℕ) : Prop :=
  ∃ e ∈ past, e.HangsUp i

/-- The client is initialized, or is being restarted by the server. -/
def JzClient.Active (C : JzClient) : Prop :=
  C.state = .c3ServerRestartRequest ∨ C.state = .c4Initialized

/-- **The life cycle of registrations**, in a state and with what has happened before. -/
structure LifeCycle (past : List Event) (σ : Server) : Prop where
  connected : ∀ i C, σ.clients[i]? = some C → C.Active → AcceptedSince past i
  unique : ∀ (i j : ℕ) (C D : JzClient), σ.clients[i]? = some C → σ.clients[j]? = some D →
    C.Active → D.Active → C.address = D.address → i = j
  found : ∀ address i, jzClientListFindClient (some address) σ = .ok (some i) → ¬ HungUp past i

/-- The step is a wrong one: the input of a client that is not connected is found corrupt, or
a client hangs up that is registered under an address. -/
def Event.Misregisters (σ : Server) : Event → Prop
  | .corrupt _ i => ∃ C, σ.clients[i]? = some C ∧ C.state = .c1Uninitialized
  | .hangup _ i => ∃ C, σ.clients[i]? = some C ∧ C.address.isSome = true
  | _ => False

/-! ### Standings -/

/-- What of a client concerns its registration. -/
structure Standing where
  state : ClientState := .c1Uninitialized
  address : Option CString := none
  timerType : JzClientTimerType := .none
  hasSource : Bool := true

def JzClient.standing (C : JzClient) : Standing where
  state := C.state
  address := C.address
  timerType := C.timerType
  hasSource := C.hasSource

def Server.standing (σ : Server) (i : ℕ) : Option Standing :=
  (σ.clients[i]?).map JzClient.standing

namespace Standing

def accepted (msg : JzMsg) (s : Standing) : Standing :=
  { s with state := .c4Initialized, address := msg.callingAddress }

def punished (s : Standing) : Standing :=
  { s with state := .c3ServerRestartRequest, timerType := .restartIndication }

def initialized (s : Standing) : Standing :=
  { s with state := .c4Initialized, timerType := .none }

def hungUp (s : Standing) : Standing :=
  { s with state := .c1Uninitialized, hasSource := false }

end Standing

/-- No standing has changed. -/
def SameStanding (σ σ' : Server) : Prop :=
  ∀ j, σ'.standing j = σ.standing j

/-- The standing of the client `i` has changed by `f`, and no other one. -/
def Restands (i : ℕ) (f : Standing → Standing) (σ σ' : Server) : Prop :=
  ∀ j, σ'.standing j = if j = i then (σ.standing j).map f else σ.standing j

section

variable {f g : Standing → Standing}

theorem SameStanding.of_clients (h : σ'.clients = σ.clients) : SameStanding σ σ' :=
  fun j => by rw [Server.standing, h, Server.standing]

theorem SameStanding.trans (h : SameStanding σ σ₁) (h' : SameStanding σ₁ σ') :
    SameStanding σ σ' :=
  fun j => (h' j).trans (h j)

theorem SameStanding.restands (h : SameStanding σ σ₁) (h' : Restands i f σ₁ σ') :
    Restands i f σ σ' :=
  fun j => by rw [h', h]

theorem Restands.same (h : Restands i f σ σ₁) (h' : SameStanding σ₁ σ') : Restands i f σ σ' :=
  fun j => (h' j).trans (h j)

theorem Restands.trans (h : Restands i f σ σ₁) (h' : Restands i g σ₁ σ') :
    Restands i (g ∘ f) σ σ' := by
  intro j
  rw [h', h]
  split_ifs
  · rw [Option.map_map]
  · rfl

theorem Restands.self {s : Standing} (h : Restands i f σ σ') (hs : σ.standing i = some s) :
    σ'.standing i = some (f s) := by
  rw [h, if_pos rfl, hs, Option.map_some]

theorem Restands.other (h : Restands i f σ σ') {j : ℕ} (hj : j ≠ i) :
    σ'.standing j = σ.standing j := by
  rw [h, if_neg hj]

theorem Restands.same_of_fixed {s : Standing} (h : Restands i f σ σ')
    (hs : σ.standing i = some s) (hf : f s = s) : SameStanding σ σ' := by
  intro j
  rw [h]
  split_ifs with hj
  · rw [hj, hs, Option.map_some, hf]
  · rfl

theorem updateClient_restands {u : JzClient → JzClient} (h : σ.updateClient i u = .ok σ')
    (hu : ∀ C, (u C).standing = f C.standing) : Restands i f σ σ' := by
  obtain ⟨C, hC, rfl⟩ := updateClient_eq_ok h
  intro j
  change ((σ.clients.set i (u C))[j]?).map JzClient.standing = _
  rw [getElem?_set_client hC]
  split_ifs with hj
  · rw [hj, Server.standing, hC, Option.map_some, Option.map_some, Option.map_some, hu]
  · rfl

theorem updateClient_same {u : JzClient → JzClient} (h : σ.updateClient i u = .ok σ')
    (hu : ∀ C, (u C).standing = C.standing) : SameStanding σ σ' := by
  intro j
  rw [updateClient_restands (f := id) h hu]
  split_ifs
  · rw [Option.map_id, id]
  · rfl

theorem sendMsg_same (h : jzClientSendMsg i none msg σ = .ok σ') : SameStanding σ σ' := by
  obtain rfl := sendMsg_eq_ok h
  exact .of_clients rfl

/-- All channels of a client are restarted and removed. -/
theorem foreachRemove_same {cause : ClearCause} {diagnostic : UInt8}
    {entries : List ((_ : UInt16) × ℕ)}
    (h : foreachRemove i (fun x => restartChannel cause now x diagnostic) entries σ = .ok σ') :
    SameStanding σ σ' := by
  induction entries generalizing σ with
  | nil =>
    cases h
    exact .of_clients rfl
  | cons e entries ih =>
    obtain ⟨σ₁, h₁, h⟩ := bind_eq_ok h
    obtain ⟨σ₂, h₂, h⟩ := bind_eq_ok h
    obtain ⟨σ₃, h₃, h⟩ := bind_eq_ok h
    have hrestart : SameStanding σ σ₁ := .of_clients (restartChannel_clients h₁)
    have htable : SameStanding σ₁ σ₂ := updateClient_same h₂ fun _ => rfl
    have hfree : SameStanding σ₂ σ₃ := .of_clients (free_clients h₃)
    exact (hrestart.trans htable).trans (hfree.trans (ih h))

/-! ### Restarts -/

theorem doPunishmentRestart_restands {cause : RestartCause} {diagnostic : Diag}
    (h : jzClientDoPunishmentRestart now i cause diagnostic σ = .ok σ') :
    Restands i .punished σ σ' := by
  obtain ⟨σ₁, h₁, h⟩ := bind_eq_ok h
  obtain ⟨C, -, h⟩ := bind_eq_ok h
  obtain ⟨σ₂, h₂, h⟩ := bind_eq_ok h
  exact ((sendMsg_same h₁).trans (foreachRemove_same h₂)).restands
    (updateClient_restands h fun _ => rfl)

/-- A client that restarts is initialized again, or is punished for its cause. -/
theorem doRestart_restands {cause diagnostic : UInt8}
    (h : jzClientDoRestart now i cause diagnostic σ = .ok σ') :
    Restands i .punished σ σ' ∨ Restands i .initialized σ σ' := by
  unfold jzClientDoRestart at h
  split at h
  · exact .inl (doPunishmentRestart_restands h)
  obtain ⟨σ₁, h₁, h⟩ := bind_eq_ok h
  obtain ⟨C, -, h⟩ := bind_eq_ok h
  obtain ⟨σ₂, h₂, h⟩ := bind_eq_ok h
  obtain ⟨σ₃, h₃, h⟩ := bind_eq_ok h
  have hbusy : Restands i (fun s => { s with state := .c2ClientRestartRequest }) σ σ₁ :=
    updateClient_restands h₁ fun _ => rfl
  have hready : Restands i .initialized σ₃ σ' := updateClient_restands h fun _ => rfl
  exact .inr ((hbusy.same ((foreachRemove_same h₂).trans (sendMsg_same h₃))).trans hready)

theorem hangup_restands (h : σ.handle (.hangup now i) = .ok σ') : Restands i .hungUp σ σ' := by
  obtain ⟨C, -, h⟩ := bind_eq_ok h
  obtain ⟨_, -, h⟩ := bind_eq_ok h
  obtain ⟨σ₁, h₁, h⟩ := bind_eq_ok h
  obtain ⟨C₁, -, h₁⟩ := bind_eq_ok h₁
  obtain ⟨σ₂, h₂, h₁⟩ := bind_eq_ok h₁
  have hstate : Restands i (fun s => { s with state := .c1Uninitialized }) σ₂ σ₁ :=
    updateClient_restands h₁ fun _ => rfl
  have hsource : Restands i (fun s => { s with hasSource := false }) σ₁ σ' :=
    updateClient_restands h fun _ => rfl
  exact (foreachRemove_same h₂).restands (hstate.trans hsource)

/-! ### Messages to channels, and timers -/

/-- A message to a channel changes the table of a client at most. -/
theorem opens_same {lcn : UInt16} (h : Opens i lcn σ σ') : SameStanding σ σ' := by
  obtain ⟨C, hC, -, hclients⟩ := h.clients
  intro j
  rw [Server.standing, hclients, getElem?_set_client hC, Server.standing]
  split_ifs with hj
  · rw [hj, hC]
    rfl
  · rfl

theorem processMessage_same {x : ℕ} {X : JzChannel} (hσ : σ.Registered)
    (hX : σ.heap.get? x = some X) (h : jzChannelProcessMessage now x msg σ = .ok σ') :
    SameStanding σ σ' := by
  obtain ⟨as, -, hplays⟩ | ⟨-, -, k, lcn, -, hcalls⟩ := processMessage_cases hσ hX h
  · exact .of_clients hplays.touches.clients
  · obtain ⟨σ₁, hopen, hclients, -⟩ := hcalls.opens
    exact (opens_same hopen).trans (.of_clients hclients)

theorem deliversTo_same {x : ℕ} (hσ : σ.Registered) (h : DeliversTo now i msg x σ σ₁ σ') :
    SameStanding σ σ' := by
  obtain ⟨hfind, hprocess⟩ := h
  obtain ⟨hσ₁, X, hX, -⟩ := findOrOpen_spec hσ hfind
  refine SameStanding.trans ?_ (processMessage_same hσ₁ hX hprocess)
  obtain ⟨rfl, -⟩ | ⟨-, hopen⟩ := findOrOpen_cases hfind
  · exact .of_clients rfl
  · exact opens_same hopen

/-- The client is punished, or it counts as initialized. -/
def Restarted (i : ℕ) (σ σ' : Server) : Prop :=
  Restands i .punished σ σ' ∨ Restands i .initialized σ σ'

theorem SameStanding.restarted (h : SameStanding σ σ₁) (h' : Restarted i σ₁ σ') :
    Restarted i σ σ' :=
  h'.imp h.restands h.restands

/-- A look at the timers of a client does nothing to it, unless its own timer runs. -/
theorem clientCheckTimers_standing {clock : ℕ → ℕ}
    (h : jzClientCheckTimers clock i σ = .ok σ') : SameStanding σ σ' ∨
      ((∃ s, σ.standing i = some s ∧ s.timerType ≠ .none) ∧ Restarted i σ σ') := by
  obtain ⟨C, hC, h⟩ := bind_eq_ok h
  obtain ⟨σ₁, h₁, h⟩ := bind_eq_ok h
  obtain ⟨C₁, hC₁, h⟩ := bind_eq_ok h
  have hchannels : SameStanding σ σ₁ := .of_clients (checkChannelTimers_clients h₁)
  split at h
  · cases h
    exact .inl hchannels
  rename_i hrun
  rw [not_or] at hrun
  refine .inr ⟨⟨C₁.standing, ?_, hrun.1⟩, hchannels.restarted ?_⟩
  · rw [← hchannels, Server.standing, client_eq_ok hC₁, Option.map_some]
  obtain ⟨σ₂, h₂, h⟩ := bind_eq_ok h
  have hcount : SameStanding σ₁ σ₂ := updateClient_same h₂ fun _ => rfl
  refine hcount.restarted ?_
  -- The first and the second expiration.
  obtain ⟨C₂, -, h⟩ := bind_eq_ok h
  split at h
  · exact .inl (doPunishmentRestart_restands h)
  · obtain ⟨σ₃, h₃, h⟩ := bind_eq_ok h
    exact .inr ((updateClient_restands h₃ fun _ => rfl).same (sendMsg_same h))
  · cases h

/-! ### Messages of a client -/

/-- A `CONNECT` is accepted if nobody has the address. -/
theorem inC1Uninitialized_standing
    (h : jzClientProcessMessageInC1UninitializedState i msg σ = .ok σ') :
    (SameStanding σ σ' ∧ ¬ σ.Accepts i msg) ∨
      (msg.id = .connect ∧ jzClientListFindClient msg.callingAddress σ = .ok none ∧
        Restands i (.accepted msg) σ σ') := by
  unfold jzClientProcessMessageInC1UninitializedState at h
  split at h
  · obtain ⟨found, hfound, h⟩ := bind_eq_ok h
    cases found with
    | some j =>
      refine .inl ⟨sendMsg_same h, fun hacc => ?_⟩
      rw [hacc.free] at hfound
      cases hfound
    | none =>
      obtain ⟨σ₁, h₁, h⟩ := bind_eq_ok h
      exact .inr ⟨‹_›, hfound, (sendMsg_same h₁).restands (updateClient_restands h fun _ => rfl)⟩
  · rename_i hid
    cases h
    exact .inl ⟨.of_clients rfl, fun hacc => hid hacc.connect⟩

theorem inC2ClientRestartRequest_standing
    (h : jzClientProcessMessageInC2ClientRestartRequestState now i msg σ = .ok σ') :
    SameStanding σ σ' ∨ Restarted i σ σ' := by
  unfold jzClientProcessMessageInC2ClientRestartRequestState at h
  split at h
  · cases h
    exact .inl (.of_clients rfl)
  split at h
  · exact .inr (.inl (doPunishmentRestart_restands h))
  · exact .inl (sendMsg_same h)

/-- The timer of a restart is stopped when the restart is over. -/
def Standing.settled (s : Standing) : Standing :=
  if s.state ≠ .c3ServerRestartRequest ∧ s.timerType = .restartIndication then
    { s with timerType := .none }
  else s

/-- The restart is confirmed, or the client stays as it is. -/
theorem inC3ServerRestartRequest_standing {s : Standing} (hs : σ.standing i = some s)
    (hstate : s.state = .c3ServerRestartRequest)
    (h : jzClientProcessMessageInC3ServerRestartRequestState i msg σ = .ok σ') :
    SameStanding σ σ' ∨ Restarted i σ σ' := by
  have hsettle {τ : Server} (h : (τ.updateClient i fun C =>
      if C.state ≠ .c3ServerRestartRequest ∧ C.timerType = .restartIndication then
        jzClientTimerReset C
      else C) = .ok σ') : Restands i .settled τ σ' := by
    refine updateClient_restands h fun C => ?_
    by_cases hover : C.state ≠ .c3ServerRestartRequest ∧ C.timerType = .restartIndication
    · rw [if_pos hover]
      exact (if_pos hover).symm
    · rw [if_neg hover]
      exact (if_neg hover).symm
  have hsettled : s.settled = s := if_neg fun h => h.1 hstate
  unfold jzClientProcessMessageInC3ServerRestartRequestState at h
  simp only at h
  split at h
  · obtain ⟨σ₁, h₁, h⟩ := bind_eq_ok h
    have hready : Restands i (fun s => { s with state := .c4Initialized }) σ σ₁ :=
      updateClient_restands h₁ fun _ => rfl
    have hboth : Standing.settled ∘ (fun s => { s with state := .c4Initialized }) =
        Standing.initialized := by
      funext t
      cases ht : t.timerType <;> simp [Standing.settled, Standing.initialized, ht]
    exact .inr (.inr (hboth ▸ hready.trans (hsettle h)))
  split at h
  · obtain ⟨σ₁, h₁, h⟩ := bind_eq_ok h
    cases h₁
    exact .inl ((hsettle h).same_of_fixed hs hsettled)
  · obtain ⟨σ₁, h₁, h⟩ := bind_eq_ok h
    have hsame := sendMsg_same h₁
    exact .inl (hsame.trans ((hsettle h).same_of_fixed ((hsame i).trans hs) hsettled))

theorem inC4Initialized_standing (hσ : σ.Registered)
    (h : jzClientProcessMessageInC4InitializedState now i msg σ = .ok σ') :
    SameStanding σ σ' ∨ Restarted i σ σ' := by
  unfold jzClientProcessMessageInC4InitializedState at h
  split at h
  · exact .inr (doRestart_restands h)
  split at h
  · exact .inr (.inl (doPunishmentRestart_restands h))
  split at h
  · obtain ⟨⟨x, σ₁⟩, hfind, h⟩ := bind_eq_ok h
    exact .inl (deliversTo_same hσ ⟨hfind, h⟩)
  · exact .inl (sendMsg_same h)

/-- **What a message does to the standing of its client.** -/
theorem clientProcessMessage_standing (hσ : σ.Registered)
    (h : jzClientProcessMessage now i msg σ = .ok σ') :
    (σ.Accepts i msg ∧ Restands i (.accepted msg) σ σ') ∨
      (¬ σ.Accepts i msg ∧ (SameStanding σ σ' ∨
        ((∃ s, σ.standing i = some s ∧ s.state ≠ .c1Uninitialized) ∧ Restarted i σ σ'))) := by
  obtain ⟨C, hC, h⟩ := bind_eq_ok h
  obtain ⟨_, -, h⟩ := bind_eq_ok h
  have hC := client_eq_ok hC
  have hstanding : σ.standing i = some C.standing := by
    rw [Server.standing, hC, Option.map_some]
  -- Only the first state accepts.
  have hactive (hs : C.state ≠ .c1Uninitialized) (h : SameStanding σ σ' ∨ Restarted i σ σ') :
      ¬ σ.Accepts i msg ∧ (SameStanding σ σ' ∨
        ((∃ s, σ.standing i = some s ∧ s.state ≠ .c1Uninitialized) ∧ Restarted i σ σ')) := by
    refine ⟨fun hacc => ?_, h.imp_right fun h => ⟨⟨C.standing, hstanding, hs⟩, h⟩⟩
    obtain ⟨C₁, hC₁, hs₁⟩ := hacc.client
    rw [hC, Option.some.injEq] at hC₁
    exact hs (hC₁ ▸ hs₁)
  split at h
  · rename_i hvalid
    cases hs : C.state with
    | c1Uninitialized =>
      simp only [hs] at h
      obtain ⟨hsame, hnot⟩ | ⟨hid, hfree, haccepted⟩ := inC1Uninitialized_standing h
      · exact .inr ⟨hnot, .inl hsame⟩
      · exact .inl ⟨⟨⟨C, hC, hs⟩, hid, hvalid, hfree⟩, haccepted⟩
    | c2ClientRestartRequest =>
      simp only [hs] at h
      exact .inr (hactive (by simp [hs]) (inC2ClientRestartRequest_standing h))
    | c3ServerRestartRequest =>
      simp only [hs] at h
      exact .inr (hactive (by simp [hs]) (inC3ServerRestartRequest_standing hstanding hs h))
    | c4Initialized =>
      simp only [hs] at h
      exact .inr (hactive (by simp [hs]) (inC4Initialized_standing hσ h))
  · rename_i hvalid
    cases h
    exact .inr ⟨fun hacc => hvalid hacc.valid, .inl (.of_clients rfl)⟩

/-! ### Steps -/

/-- The event neither accepts a client nor is a hang-up. -/
structure Event.Quiet (σ : Server) (e : Event) : Prop where
  accepts : ∀ j, ¬ e.Accepts σ j
  hangsUp : ∀ j, ¬ e.HangsUp j

/-- **What a step does to the standings.** -/
inductive StandingStep (σ σ' : Server) : Event → Prop
  /-- A client connects. -/
  | joined (h : ∀ j, σ'.standing j = if j = σ.clients.length then some {} else σ.standing j) :
      StandingStep σ σ' .connect
  /-- The `CONNECT` of a client is accepted. -/
  | accepted {now i : ℕ} {msg : JzMsg} (hacc : σ.Accepts i msg)
      (h : Restands i (.accepted msg) σ σ') : StandingStep σ σ' (.message now i msg)
  /-- The client has been connected, or a timer of it runs, and it restarts. -/
  | restarted {e : Event} {i : ℕ} {s : Standing} (hquiet : e.Quiet σ) (hs : σ.standing i = some s)
      (hactive : s.state ≠ .c1Uninitialized ∨ s.timerType ≠ .none) (h : Restarted i σ σ') :
      StandingStep σ σ' e
  /-- The input of the client is corrupt. -/
  | corrupt {now i : ℕ} (h : Restands i .punished σ σ') : StandingStep σ σ' (.corrupt now i)
  | hungUp {now i : ℕ} (h : Restands i .hungUp σ σ') : StandingStep σ σ' (.hangup now i)
  | same {e : Event} (hquiet : e.Quiet σ) (h : SameStanding σ σ') : StandingStep σ σ' e

theorem quiet_message (h : ¬ σ.Accepts i msg) : (Event.message now i msg).Quiet σ :=
  ⟨fun _ hacc => h (hacc.1 ▸ hacc.2), fun _ => id⟩

/-- A new client has its own place. -/
theorem connect_standing (h : σ.handle .connect = .ok σ') (j : ℕ) :
    σ'.standing j = if j = σ.clients.length then some {} else σ.standing j := by
  cases h
  rw [Server.standing, List.getElem?_append]
  split_ifs with hlt hj hj
  · omega
  · rfl
  · rw [hj, Nat.sub_self]
    rfl
  · rw [List.getElem?_eq_none (by simp; omega), Server.standing,
      List.getElem?_eq_none (not_lt.1 hlt)]

/-- **The step lemma** of the standings. -/
theorem handle_standing (hσ : σ.Registered) (henabled : e.Enabled σ)
    (h : σ.handle e = .ok σ') : StandingStep σ σ' e := by
  cases e with
  | connect => exact .joined (connect_standing h)
  | message now i msg =>
    obtain ⟨hacc, haccepted⟩ | ⟨hnot, hsame | ⟨⟨s, hs, hactive⟩, hrestarted⟩⟩ :=
      clientProcessMessage_standing hσ h
    · exact .accepted hacc haccepted
    · exact .same (quiet_message hnot) hsame
    · exact .restarted (quiet_message hnot) hs (.inl hactive) hrestarted
  | badMessage i diagnostic => exact .same ⟨fun _ => id, fun _ => id⟩ (sendMsg_same h)
  | corrupt now i => exact .corrupt (doPunishmentRestart_restands h)
  | hangup now i => exact .hungUp (hangup_restands h)
  | tick clock i =>
    obtain hsame | ⟨⟨s, hs, htimer⟩, hrestarted⟩ := clientCheckTimers_standing h
    · exact .same ⟨fun _ => id, fun _ => id⟩ hsame
    · exact .restarted ⟨fun _ => id, fun _ => id⟩ hs (.inr htimer) hrestarted
  | rehash i channels =>
    exact .same ⟨fun _ => id, fun _ => id⟩ (updateClient_same h fun _ => rfl)

/-! ### The past -/

theorem step_deterministic {σ₂ : Server} (h : serverSystem.Step σ e σ₁)
    (h' : serverSystem.Step σ e σ₂) : σ₁ = σ₂ :=
  Except.ok.inj (h.2.symm.trans h'.2)

theorem run_deterministic {σ₂ : Server} (h : serverSystem.Run σ es σ₁)
    (h' : serverSystem.Run σ es σ₂) : σ₁ = σ₂ :=
  h.deterministic (fun _ _ _ _ => step_deterministic) h'

theorem hungUp_snoc : HungUp (past ++ [e]) i ↔ HungUp past i ∨ e.HangsUp i := by
  simp only [HungUp, List.mem_append, List.mem_singleton]
  constructor
  · rintro ⟨e', hmem | rfl, h⟩
    · exact .inl ⟨e', hmem, h⟩
    · exact .inr h
  · rintro (⟨e', hmem, h⟩ | h)
    · exact ⟨e', .inl hmem, h⟩
    · exact ⟨e, .inr rfl, h⟩

/-- The last event accepts the client, or it keeps it accepted. -/
theorem acceptedSince_snoc (hrun : serverSystem.Run {} past σ) :
    AcceptedSince (past ++ [e]) i ↔ e.Accepts σ i ∨ (AcceptedSince past i ∧ ¬ e.HangsUp i) := by
  constructor
  · rintro ⟨es₁, e₁, es₂, σ₁, heq, hrun₁, hacc, hno⟩
    obtain rfl | ⟨es₂, e₂, rfl⟩ := es₂.eq_nil_or_concat
    · obtain ⟨rfl, rfl⟩ := List.append_singleton_inj.1 heq
      exact .inl (run_deterministic hrun hrun₁ ▸ hacc)
    · rw [List.concat_eq_append, ← List.cons_append, ← List.append_assoc] at heq
      obtain ⟨rfl, rfl⟩ := List.append_singleton_inj.1 heq
      rw [List.concat_eq_append, List.forall_mem_append, List.forall_mem_singleton] at hno
      exact .inr ⟨⟨es₁, e₁, es₂, σ₁, rfl, hrun₁, hacc, hno.1⟩, hno.2⟩
  · rintro (hacc | ⟨⟨es₁, e₁, es₂, σ₁, rfl, hrun₁, hacc, hno⟩, hnot⟩)
    · exact ⟨past, e, [], σ, rfl, hrun, hacc, fun _ h => absurd h List.not_mem_nil⟩
    · refine ⟨es₁, e₁, es₂ ++ [e], σ₁, by simp, hrun₁, hacc, ?_⟩
      rw [List.forall_mem_append, List.forall_mem_singleton]
      exact ⟨hno, hnot⟩

theorem acceptedSince_quiet (hrun : serverSystem.Run {} past σ) (hquiet : e.Quiet σ) :
    AcceptedSince (past ++ [e]) i ↔ AcceptedSince past i := by
  rw [acceptedSince_snoc hrun, or_iff_right (hquiet.accepts i), and_iff_left (hquiet.hangsUp i)]

/-! ### The invariant -/

/-- A client that is not connected has no address and no timer, and a connected one has an
address. -/
def Standing.Sound (s : Standing) : Prop :=
  (s.state = .c1Uninitialized ∧ s.address = none ∧ s.timerType = .none) ∨
    (s.state ≠ .c1Uninitialized ∧ s.address.isSome = true)

/-- **What holds along a run** without a wrong step. -/
structure Registrations (past : List Event) (σ : Server) : Prop where
  run : serverSystem.Run {} past σ
  sound : ∀ i s, σ.standing i = some s → s.Sound
  accepted : ∀ i, AcceptedSince past i ↔ ∃ s, σ.standing i = some s ∧ s.state ≠ .c1Uninitialized
  unique : ∀ i j s t a, σ.standing i = some s → σ.standing j = some t → s.address = some a →
    t.address = some a → i = j
  hungUp : ∀ i, HungUp past i → ∃ s, σ.standing i = some s ∧ s.state = .c1Uninitialized ∧
    s.hasSource = false

theorem standing_of_client {C : JzClient} (hC : σ.clients[i]? = some C) :
    σ.standing i = some C.standing := by
  rw [Server.standing, hC, Option.map_some]

/-- Who is found is registered under the address. -/
theorem findClient_eq_some {a : CString} (h : jzClientListFindClient (some a) σ = .ok (some i)) :
    ∃ s, σ.standing i = some s ∧ s.address = some a := by
  have hfound := Except.ok.inj h
  rw [List.findIdx?_eq_some_iff_getElem] at hfound
  obtain ⟨hlt, haddr, -⟩ := hfound
  exact ⟨_, standing_of_client (List.getElem?_eq_getElem hlt), of_decide_eq_true haddr⟩

theorem findClient_eq_none {a : CString} (h : jzClientListFindClient (some a) σ = .ok none)
    {s : Standing} (hs : σ.standing i = some s) : s.address ≠ some a := by
  have hfound := Except.ok.inj h
  rw [List.findIdx?_eq_none_iff] at hfound
  obtain ⟨C, hC, rfl⟩ := Option.map_eq_some_iff.1 hs
  have haddr : ¬ C.address = some a := by
    simpa using hfound C (List.mem_of_getElem? hC)
  exact haddr

/-- Whoever is registered under the address can be found. -/
theorem exists_findClient {a : CString} {s : Standing} (hs : σ.standing i = some s)
    (ha : s.address = some a) : ∃ j, jzClientListFindClient (some a) σ = .ok (some j) := by
  cases hfound : σ.clients.findIdx? fun C => C.address = some a with
  | some j => exact ⟨j, congrArg Except.ok hfound⟩
  | none => exact absurd ha (findClient_eq_none (congrArg Except.ok hfound) hs)

namespace Registrations

/-- The invariant says more than the life cycle. -/
theorem lifeCycle (h : Registrations past σ) : LifeCycle past σ := by
  have hnot {C : JzClient} (hactive : C.Active) : C.state ≠ .c1Uninitialized := by
    obtain hs | hs := hactive <;> rw [hs] <;> decide
  refine ⟨fun i C hC hactive => ?_, fun i j C D hC hD hactive hactive' haddr => ?_,
    fun address i hfound hhung => ?_⟩
  · exact (h.accepted i).2 ⟨C.standing, standing_of_client hC, hnot hactive⟩
  · obtain ⟨hs, -⟩ | ⟨-, hsome⟩ := h.sound i _ (standing_of_client hC)
    · exact absurd hs (hnot hactive)
    · obtain ⟨a, ha⟩ := Option.isSome_iff_exists.1 hsome
      exact h.unique i j _ _ a (standing_of_client hC) (standing_of_client hD) ha
        (haddr.symm.trans ha)
  · obtain ⟨s, hs, ha⟩ := findClient_eq_some hfound
    obtain ⟨t, ht, hstate, -⟩ := h.hungUp i hhung
    obtain rfl : s = t := Option.some.inj (hs.symm.trans ht)
    obtain ⟨-, hnone, -⟩ | ⟨hactive, -⟩ := h.sound i s hs
    · rw [hnone] at ha
      cases ha
    · exact hactive hstate

theorem start : Registrations [] {} where
  run := .nil _
  sound _ _ hs := by cases hs
  accepted i := by
    constructor
    · rintro ⟨es₁, e, es₂, σ₁, heq, -⟩
      simp at heq
    · rintro ⟨s, hs, -⟩
      cases hs
  unique _ _ _ _ _ hs := by cases hs
  hungUp i := by
    rintro ⟨e, he, -⟩
    cases he

/-- A client is active after the step, under an address of its own. -/
theorem restands {f : Standing → Standing} {s : Standing} (h : Registrations past σ)
    (hstep : serverSystem.Step σ e σ') (hs : σ.standing i = some s)
    (hlive : ¬ (s.state = .c1Uninitialized ∧ s.hasSource = false)) (hset : Restands i f σ σ')
    (hactive : (f s).state ≠ .c1Uninitialized)
    (haddress : ∃ a, (f s).address = some a ∧
      ∀ j t, σ.standing j = some t → t.address = some a → j = i)
    (hacc : ∀ j, AcceptedSince (past ++ [e]) j ↔ AcceptedSince past j ∨ j = i)
    (hhung : ∀ j, ¬ e.HangsUp j) : Registrations (past ++ [e]) σ' := by
  obtain ⟨a, ha, hown⟩ := haddress
  have hself : σ'.standing i = some (f s) := hset.self hs
  have hother {j : ℕ} (hj : j ≠ i) : σ'.standing j = σ.standing j := hset.other hj
  refine ⟨h.run.append (.single hstep), fun j t ht => ?_, fun j => ?_,
    fun j k t u a' ht hu hta hua => ?_, fun j hj => ?_⟩
  · by_cases hj : j = i
    · subst hj
      obtain rfl := Option.some.inj (hself.symm.trans ht)
      exact .inr ⟨hactive, by rw [ha]; rfl⟩
    · exact h.sound j t (hother hj ▸ ht)
  · rw [hacc, h.accepted]
    by_cases hj : j = i
    · subst hj
      exact iff_of_true (.inr rfl) ⟨f s, hself, hactive⟩
    · rw [hother hj, or_iff_left hj]
  · -- The address of the client is nobody else's, and the others keep theirs.
    by_cases hj : j = i
    · by_cases hk : k = i
      · rw [hj, hk]
      · subst hj
        obtain rfl := Option.some.inj (hself.symm.trans ht)
        obtain rfl : a = a' := Option.some.inj (ha.symm.trans hta)
        exact (hown k u (hother hk ▸ hu) hua).symm
    · by_cases hk : k = i
      · subst hk
        obtain rfl := Option.some.inj (hself.symm.trans hu)
        obtain rfl : a = a' := Option.some.inj (ha.symm.trans hua)
        exact hown j t (hother hj ▸ ht) hta
      · exact h.unique j k t u a' (hother hj ▸ ht) (hother hk ▸ hu) hta hua
  · obtain hold | hnew := hungUp_snoc.1 hj
    · obtain ⟨t, ht, hgone⟩ := h.hungUp j hold
      refine ⟨t, ?_, hgone⟩
      rw [hother, ht]
      rintro rfl
      obtain rfl : s = t := Option.some.inj (hs.symm.trans ht)
      exact hlive hgone
    · exact absurd hnew (hhung j)

/-- A client restarts that is connected. -/
theorem restarts {s : Standing} (h : Registrations past σ) (hstep : serverSystem.Step σ e σ')
    (hquiet : e.Quiet σ) (hs : σ.standing i = some s)
    (hactive : s.state ≠ .c1Uninitialized ∨ s.timerType ≠ .none) (hrestart : Restarted i σ σ') :
    Registrations (past ++ [e]) σ' := by
  obtain ⟨hstate, -, htimer⟩ | ⟨hstate, hsome⟩ := h.sound i s hs
  · exact absurd htimer (hactive.resolve_left (not_not.2 hstate))
  obtain ⟨a, ha⟩ := Option.isSome_iff_exists.1 hsome
  have hown : ∀ j t, σ.standing j = some t → t.address = some a → j = i :=
    fun j t ht hta => h.unique j i t s a ht hs hta ha
  have hacc (j : ℕ) : AcceptedSince (past ++ [e]) j ↔ AcceptedSince past j ∨ j = i := by
    rw [acceptedSince_quiet h.run hquiet, iff_self_or]
    rintro rfl
    exact (h.accepted j).2 ⟨s, hs, hstate⟩
  have hlive : ¬ (s.state = .c1Uninitialized ∧ s.hasSource = false) := fun hgone => hstate hgone.1
  obtain hpunished | hinitialized := hrestart
  · exact h.restands hstep hs hlive hpunished nofun ⟨a, ha, hown⟩ hacc hquiet.hangsUp
  · exact h.restands hstep hs hlive hinitialized nofun ⟨a, ha, hown⟩ hacc hquiet.hangsUp

/-- A client is accepted, under an address that nobody has. -/
theorem accepts (h : Registrations past σ) (hparsed : ParserDelivers msg)
    (hstep : serverSystem.Step σ (.message now i msg) σ') (hacc : σ.Accepts i msg)
    (hset : Restands i (.accepted msg) σ σ') :
    Registrations (past ++ [.message now i msg]) σ' := by
  obtain ⟨C, hC, hsource⟩ := hstep.1
  obtain ⟨a, ha⟩ := hparsed.wellFormed.calling hacc.connect
  have hfree := ha ▸ hacc.free
  refine h.restands hstep (standing_of_client hC) ?_ hset nofun
    ⟨a, ha, fun j t ht hta => absurd hta (findClient_eq_none hfree ht)⟩ (fun j => ?_) fun _ => id
  · -- What is read from its socket is not from a client that has gone.
    rintro ⟨-, hgone⟩
    rw [show C.standing.hasSource = C.hasSource from rfl, hsource] at hgone
    cases hgone
  · rw [acceptedSince_snoc h.run, or_comm]
    refine or_congr (and_iff_left id) ⟨fun h => h.1.symm, ?_⟩
    rintro rfl
    exact ⟨rfl, hacc⟩

/-- Nothing changes. -/
theorem same (h : Registrations past σ) (hstep : serverSystem.Step σ e σ') (hquiet : e.Quiet σ)
    (hsame : SameStanding σ σ') : Registrations (past ++ [e]) σ' := by
  refine ⟨h.run.append (.single hstep), fun j t ht => h.sound j t (hsame j ▸ ht), fun j => ?_,
    fun j k t u a ht hu => h.unique j k t u a (hsame j ▸ ht) (hsame k ▸ hu), fun j hj => ?_⟩
  · rw [acceptedSince_quiet h.run hquiet, h.accepted, hsame]
  · rw [hsame]
    exact h.hungUp j ((hungUp_snoc.1 hj).resolve_right (hquiet.hangsUp j))

/-- A client joins, without an address. -/
theorem joins (h : Registrations past σ) (hstep : serverSystem.Step σ .connect σ')
    (hjoined : ∀ j, σ'.standing j = if j = σ.clients.length then some {} else σ.standing j) :
    Registrations (past ++ [.connect]) σ' := by
  have hnone : σ.standing σ.clients.length = none := by
    rw [Server.standing, List.getElem?_eq_none (Nat.le_refl _), Option.map_none]
  -- A client with an address is an old one.
  have hold {j : ℕ} {t : Standing} {a : CString} (ht : σ'.standing j = some t)
      (ha : t.address = some a) : σ.standing j = some t := by
    rw [hjoined] at ht
    split_ifs at ht
    · cases ht
      cases ha
    · exact ht
  refine ⟨h.run.append (.single hstep), fun j t ht => ?_, fun j => ?_,
    fun j k t u a ht hu hta hua => h.unique j k t u a (hold ht hta) (hold hu hua) hta hua,
    fun j hj => ?_⟩
  · rw [hjoined] at ht
    split_ifs at ht
    · cases ht
      exact .inl ⟨rfl, rfl, rfl⟩
    · exact h.sound j t ht
  · rw [acceptedSince_quiet h.run (e := .connect) ⟨fun _ => id, fun _ => id⟩, h.accepted,
      hjoined]
    split_ifs with hj
    · rw [hj, hnone]
      simp
    · rfl
  · obtain ⟨t, ht, hgone⟩ := h.hungUp j ((hungUp_snoc.1 hj).resolve_right id)
    refine ⟨t, ?_, hgone⟩
    rw [hjoined, if_neg, ht]
    rintro rfl
    rw [hnone] at ht
    cases ht

/-- A client hangs up that has not been connected. -/
theorem hangsUp (h : Registrations past σ) (hstep : serverSystem.Step σ (.hangup now i) σ')
    (hset : Restands i .hungUp σ σ')
    (hnone : ∀ C, σ.clients[i]? = some C → C.address = none) :
    Registrations (past ++ [.hangup now i]) σ' := by
  obtain ⟨C, hC, -⟩ := hstep.1
  have hs := standing_of_client hC
  obtain ⟨hstate, haddr, htimer⟩ | ⟨-, hsome⟩ := h.sound i _ hs
  · have hself : σ'.standing i = some C.standing.hungUp := hset.self hs
    have hother {j : ℕ} (hj : j ≠ i) : σ'.standing j = σ.standing j := hset.other hj
    have hold {j : ℕ} {t : Standing} {a : CString} (ht : σ'.standing j = some t)
        (ha : t.address = some a) : σ.standing j = some t := by
      by_cases hj : j = i
      · subst hj
        obtain rfl := Option.some.inj (hself.symm.trans ht)
        rw [show C.standing.hungUp.address = C.standing.address from rfl, haddr] at ha
        cases ha
      · exact hother hj ▸ ht
    refine ⟨h.run.append (.single hstep), fun j t ht => ?_, fun j => ?_,
      fun j k t u a ht hu hta hua => h.unique j k t u a (hold ht hta) (hold hu hua) hta hua,
      fun j hj => ?_⟩
    · by_cases hj : j = i
      · subst hj
        obtain rfl := Option.some.inj (hself.symm.trans ht)
        exact .inl ⟨rfl, haddr, htimer⟩
      · exact h.sound j t (hother hj ▸ ht)
    · rw [acceptedSince_snoc h.run,
        or_iff_right (show ¬ Event.Accepts σ j (.hangup now i) from id), h.accepted]
      by_cases hj : j = i
      · subst hj
        rw [hself]
        refine iff_of_false (fun hno => hno.2 rfl) ?_
        rintro ⟨s, hs', hactive⟩
        obtain rfl := Option.some.inj hs'
        exact hactive rfl
      · rw [hother hj]
        exact and_iff_left fun heq => hj heq.symm
    · by_cases hji : j = i
      · subst hji
        exact ⟨_, hself, rfl, rfl⟩
      · obtain ⟨t, ht, hgone⟩ :=
          h.hungUp j ((hungUp_snoc.1 hj).resolve_right fun heq => hji heq.symm)
        exact ⟨t, (hother hji).trans ht, hgone⟩
  · rw [show C.standing.address = C.address from rfl, hnone C hC] at hsome
    cases hsome

/-- **The step lemma**: what is not wrong keeps the invariant. -/
theorem step (h : Registrations past σ) (hparsed : e.Parsed) (hright : ¬ e.Misregisters σ)
    (hstep : serverSystem.Step σ e σ') (hstanding : StandingStep σ σ' e) :
    Registrations (past ++ [e]) σ' := by
  cases hstanding with
  | joined hjoined => exact h.joins hstep hjoined
  | accepted hacc hset => exact h.accepts hparsed hstep hacc hset
  | restarted hquiet hs hactive hrestart => exact h.restarts hstep hquiet hs hactive hrestart
  | corrupt hpunished =>
    obtain ⟨C, hC, -⟩ := hstep.1
    refine h.restarts hstep ⟨fun _ => id, fun _ => id⟩ (standing_of_client hC)
      (.inl fun hstate => hright ⟨C, hC, hstate⟩) (.inl hpunished)
  | hungUp hset =>
    refine h.hangsUp hstep hset fun C hC => ?_
    cases haddr : C.address with
    | none => rfl
    | some a => exact absurd ⟨C, hC, by rw [haddr]; rfl⟩ hright
  | same hquiet hsame => exact h.same hstep hquiet hsame

/-- **A wrong step** leads out of the life cycle. -/
theorem not_lifeCycle (h : Registrations past σ) (hwrong : e.Misregisters σ)
    (hstep : serverSystem.Step σ e σ') : ¬ LifeCycle (past ++ [e]) σ' := by
  intro hcycle
  cases e with
  | connect | message | badMessage | tick | rehash => exact hwrong
  | corrupt now i =>
    obtain ⟨C, hC, hstate⟩ := hwrong
    have hset : Restands i .punished { σ with sent := [] } σ' :=
      doPunishmentRestart_restands hstep.2
    obtain ⟨C', hC', hs'⟩ := Option.map_eq_some_iff.1 (hset.self (standing_of_client hC))
    -- The client is active now, but no `CONNECT` was accepted.
    have hactive : C'.Active := .inl (congrArg Standing.state hs')
    have hacc := hcycle.connected i C' hC' hactive
    rw [acceptedSince_quiet h.run (e := .corrupt now i) ⟨fun _ => id, fun _ => id⟩,
      h.accepted] at hacc
    obtain ⟨s, hs, hne⟩ := hacc
    obtain rfl := Option.some.inj ((standing_of_client hC).symm.trans hs)
    exact hne hstate
  | hangup now i =>
    obtain ⟨C, hC, hsome⟩ := hwrong
    obtain ⟨a, ha⟩ := Option.isSome_iff_exists.1 hsome
    have hset : Restands i .hungUp { σ with sent := [] } σ' := hangup_restands hstep.2
    have hs := standing_of_client hC
    -- The client is still found under its address.
    obtain ⟨j, hj⟩ := exists_findClient (hset.self hs) ha
    obtain ⟨t, ht, hta⟩ := findClient_eq_some hj
    have hji : j = i := by
      rw [hset j] at ht
      split_ifs at ht with hji
      · exact hji
      · exact h.unique j i t _ a ht hs hta ha
    exact hcycle.found a j hj (hungUp_snoc.2 (.inr hji.symm))

end Registrations

/-! ### Runs -/

/-- The log of what was sent does not matter. -/
theorem StandingStep.of_cleared (h : StandingStep { σ with sent := [] } σ' e) :
    StandingStep σ σ' e := by
  have hacc {j : ℕ} {msg : JzMsg} : Server.Accepts { σ with sent := [] } j msg ↔ σ.Accepts j msg :=
    ⟨fun h => ⟨h.client, h.connect, h.valid, h.free⟩,
      fun h => ⟨h.client, h.connect, h.valid, h.free⟩⟩
  have hquiet (h : e.Quiet { σ with sent := [] }) : e.Quiet σ := by
    refine ⟨fun j hj => h.accepts j ?_, h.hangsUp⟩
    cases e with
    | message => exact ⟨hj.1, hacc.2 hj.2⟩
    | connect | badMessage | corrupt | hangup | tick | rehash => exact hj
  cases h with
  | joined h => exact .joined h
  | accepted h hset => exact .accepted (hacc.1 h) hset
  | restarted h hs hactive hrestart => exact .restarted (hquiet h) hs hactive hrestart
  | corrupt h => exact .corrupt h
  | hungUp h => exact .hungUp h
  | same h hsame => exact .same (hquiet h) hsame

theorem standingStep_of_step (hrun : serverSystem.Run {} past σ)
    (hstep : serverSystem.Step σ e σ') : StandingStep σ σ' e := by
  have hσ : σ.Registered := registered_of_reachable ((Lts.Reachable.init rfl).run hrun)
  exact (handle_standing hσ.cleared hstep.1 hstep.2).of_cleared

/-- The invariant holds along a run without a wrong step. -/
theorem registrations_of_run
    (h : (parsedSystem.restrict fun σ e => ¬ e.Misregisters σ).Run {} es σ) :
    Registrations es σ := by
  refine h.history Registrations .start fun past σ e σ' hinv hstep => ?_
  obtain ⟨hright, hparsed, hstep⟩ := hstep
  exact hinv.step hparsed hright hstep (standingStep_of_step hinv.run hstep)

/-- **The life cycle of registrations** holds in all states of a run exactly if no client's
input is found corrupt before it has connected, and no client hangs up that is registered
under an address. -/
theorem registration (hrun : parsedSystem.Run {} es σ) :
    (∀ es₁ es₂ σ₁, es = es₁ ++ es₂ → serverSystem.Run {} es₁ σ₁ → LifeCycle es₁ σ₁) ↔
      (parsedSystem.restrict fun σ e => ¬ e.Misregisters σ).Run {} es σ := by
  constructor
  · refine hrun.history (fun es σ => (∀ es₁ es₂ σ₁, es = es₁ ++ es₂ →
      serverSystem.Run {} es₁ σ₁ → LifeCycle es₁ σ₁) →
        (parsedSystem.restrict fun σ e => ¬ e.Misregisters σ).Run {} es σ)
      (fun _ => .nil _) fun past σ e σ' ih hstep hcycle => ?_
    have hright := ih fun es₁ es₂ σ₁ heq => hcycle es₁ (es₂ ++ [e]) σ₁ (by rw [heq]; simp)
    have hinv := registrations_of_run hright
    have hcycle' := hcycle (past ++ [e]) [] σ' (by simp) (hinv.run.append (.single hstep.2))
    refine hright.append (.single ⟨fun hwrong => ?_, hstep⟩)
    exact hinv.not_lifeCycle hwrong hstep.2 hcycle'
  · rintro hright es₁ es₂ σ₁ rfl hrun₁
    obtain ⟨σ₂, hright₁, -⟩ := hright.split
    have hinv := registrations_of_run hright₁
    exact run_deterministic hinv.run hrun₁ ▸ hinv.lifeCycle

/-- `A` connects. -/
def connectedEvents : List Event :=
  [.connect, .message 0 0 (jzMsgNewConnect (some (.ofBytes [65])) 0)]

theorem connect_delivered : ParserDelivers (jzMsgNewConnect (some (.ofBytes [65])) 0) :=
  .of_fits (by decide) (by decide) rfl (by decide) rfl

theorem connectedEvents_run : ∃ σ, ({} : Server).play connectedEvents = some σ ∧
    parsedSystem.Run {} connectedEvents σ := by
  refine ⟨_, rfl, Lts.Run.cons ⟨trivial, trivial, rfl⟩
    (.single ⟨connect_delivered, ⟨_, rfl, rfl⟩, rfl⟩)⟩

/-- The life cycle holds while a client connects. -/
theorem registration_connected : ∃ σ, parsedSystem.Run {} connectedEvents σ ∧
    LifeCycle connectedEvents σ := by
  obtain ⟨σ, -, hrun⟩ := connectedEvents_run
  have hright : (parsedSystem.restrict fun σ e => ¬ e.Misregisters σ).Run {} connectedEvents σ :=
    hrun.restrict fun e he σ => by
      rcases List.mem_pair.1 he with rfl | rfl <;> exact id
  exact ⟨σ, hrun, (registration hrun).2 hright connectedEvents [] σ (by simp) hrun.of_restrict⟩

/-- A client is still found after it has hung up. -/
theorem gone_client_found : ¬ ∀ es σ, parsedSystem.Run {} es σ → LifeCycle es σ := by
  intro hclaim
  obtain ⟨σ, hplay, hrun⟩ := connectedEvents_run
  obtain ⟨σ', hstep, hfound⟩ : ∃ σ', parsedSystem.Step σ (.hangup 0 0) σ' ∧
      jzClientListFindClient (some (.ofBytes [65])) σ' = .ok (some 0) := by
    cases hplay
    exact ⟨_, ⟨trivial, ⟨_, rfl, rfl⟩, rfl⟩, rfl⟩
  have hcycle := hclaim _ σ' (hrun.append (.single hstep))
  exact hcycle.found _ 0 hfound (hungUp_snoc.2 (.inr rfl))

end

end Application10
end Jozabad
