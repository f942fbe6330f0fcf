import Jozabad.Application10.Server
import Jozabad.Lib.Lts

/-!
# Clients and the main loop (`client.c`, `service.c`)

The main loop accepts connections, gives the messages of clients to the state machine of
the client, notices when a client has gone, and looks at the timers. Each of these is an
`Event`, and `serverSystem` is the server under any sequence of events.

A hash table may be iterated in any order. The model iterates in the order of the entries
of a `Table`, and the event `rehash` puts these into any other order.
-/

namespace Jozabad
namespace Application10

/-! ### Fields of a client -/

/-- Write to some fields of a client. -/
def Server.updateClient (σ : Server) (i : ℕ) (f : JzClient → JzClient) : Except Fault Server := do
  let C ← σ.client i
  return σ.setClient i (f C)

def jzClientTimerReset (C : JzClient) : JzClient :=
  { C with timerType := .none, timerExpirationTime := 0, timerCount := 0 }

/-- Start the timer of a restart indication, or start it again. -/
def JzClient.startTimer (now : ℕ) (C : JzClient) : JzClient :=
  { C with
    timerCount := if C.timerType ≠ .restartIndication then 0 else C.timerCount
    timerType := .restartIndication
    timerExpirationTime :=
      now + JZ_CLIENT_TIMER_RESTART_INDICATION_DURATION_IN_SECONDS * G_USEC_PER_SEC }

/-! ### Restarts -/

/-- `g_hash_table_foreach_remove`: each entry is removed after the callback, and the
channel in it is freed. -/
def foreachRemove (i : ℕ) (callback : ℕ → Server → Except Fault Server) :
    List ((_ : UInt16) × ℕ) → Server → Except Fault Server
  | [], σ => .ok σ
  | ⟨lcn, x⟩ :: entries, σ => do
    let σ ← callback x σ
    let σ ← σ.updateClient i fun C => { C with channels := C.channels.remove lcn }
    let σ ← jzChannelFree x σ
    foreachRemove i callback entries σ

/-- Punish a client. All of its channels are cleared. -/
def jzClientDoPunishmentRestart (now i : ℕ) (cause : RestartCause) (diagnostic : Diag)
    (σ : Server) : Except Fault Server := do
  let σ ← jzClientSendMsg i none (jzMsgNewRestartRequest cause.code diagnostic.code) σ
  let C ← σ.client i
  let σ ← foreachRemove i (fun x => jzChannelDoServerRestartIndication now x diagnostic.code)
    C.channels.entries σ
  σ.updateClient i fun C => { C with state := .c3ServerRestartRequest }.startTimer now

/-- The client wants to restart all of its channels. -/
def jzClientDoRestart (now i : ℕ) (cause diagnostic : UInt8) (σ : Server) :
    Except Fault Server := do
  if ¬ CAUSE_IS_CLIENT_ORIGINATED cause then
    jzClientDoPunishmentRestart now i .localProcedureError .improperCauseCodeFromClient σ
  else
    let σ ← σ.updateClient i fun C => { C with state := .c2ClientRestartRequest }
    let C ← σ.client i
    let σ ← foreachRemove i (fun x => jzChannelDoClientRestartRequest now x diagnostic)
      C.channels.entries σ
    let σ ← jzClientSendMsg i none jzMsgNewRestartConfirmation σ
    σ.updateClient i fun C => jzClientTimerReset { C with state := .c4Initialized }

/-- The client has vanished. It stays in the list, under its address. -/
def jzClientDoHangup (now i : ℕ) (σ : Server) : Except Fault Server := do
  let C ← σ.client i
  let σ ← foreachRemove i (fun x => jzChannelDoServerRestartIndication now x Diag.eterm.code)
    C.channels.entries σ
  σ.updateClient i fun C => { C with state := .c1Uninitialized }

def jzClientDoRestartConfirmation (i : ℕ) (σ : Server) : Except Fault Server :=
  σ.updateClient i fun C => { C with state := .c4Initialized }

/-! ### Messages of a client -/

def jzClientDoDiagnostic (i : ℕ) (diagnostic : Diag) (version id : UInt8) (lcn : UInt16)
    (σ : Server) : Except Fault Server :=
  jzClientSendMsg i none (jzMsgNewDiagnostic diagnostic.code version id lcn) σ

/-- The client is registered under its calling address. -/
def jzClientDoConnect (i : ℕ) (msg : JzMsg) (σ : Server) : Except Fault Server := do
  let σ ← jzClientSendMsg i none jzMsgNewConnectIndication σ
  σ.updateClient i fun C =>
    { C with state := .c4Initialized, address := msg.callingAddress, iodir := msg.iodir }

/-- The only valid message for an uninitialized client is `CONNECT`. -/
def jzClientProcessMessageInC1UninitializedState (i : ℕ) (msg : JzMsg) (σ : Server) :
    Except Fault Server := do
  match msg.id with
  | .connect =>
    match ← jzClientListFindClient msg.callingAddress σ with
    | some _ => jzClientDoDiagnostic i .addressInUse 0 0 0 σ
    | none => jzClientDoConnect i msg σ
  | _ => return σ

def jzClientProcessMessageInC2ClientRestartRequestState (now i : ℕ) (msg : JzMsg) (σ : Server) :
    Except Fault Server := do
  if msg.id = .restartRequest then
    return σ
  else if msg.id = .restartConfirmation ∨ jzMsgIsForChannel msg then
    jzClientDoPunishmentRestart now i .localProcedureError
      .invalidMessageForStateClientRestartRequest σ
  else
    jzClientDoDiagnostic i .invalidMessageForStateClientRestartRequest msg.version msg.id.code
      msg.lcn σ

def jzClientProcessMessageInC3ServerRestartRequestState (i : ℕ) (msg : JzMsg) (σ : Server) :
    Except Fault Server := do
  let σ ←
    if msg.id = .restartRequest ∨ msg.id = .restartConfirmation then
      jzClientDoRestartConfirmation i σ
    else if jzMsgIsForChannel msg then
      .ok σ
    else
      jzClientDoDiagnostic i .invalidMessageForStateServerRestartRequest msg.version msg.id.code
        msg.lcn σ
  σ.updateClient i fun C =>
    if C.state ≠ .c3ServerRestartRequest ∧ C.timerType = .restartIndication then
      jzClientTimerReset C
    else C

/-- The channel of a number, which is created if there is none. -/
def findOrOpenChannel (i : ℕ) (lcn : UInt16) (σ : Server) : Except Fault (ℕ × Server) := do
  let C ← σ.client i
  match C.channels.get? lcn with
  | some x => return (x, σ)
  | none =>
    -- The first message for a number opens its channel.
    let σ' ← openChannel i lcn σ
    jzClientDiagnosticString C
    return (σ.next, σ')

def jzClientProcessMessageInC4InitializedState (now i : ℕ) (msg : JzMsg) (σ : Server) :
    Except Fault Server := do
  if msg.id = .restartRequest then
    jzClientDoRestart now i msg.cause msg.diagnostic σ
  else if msg.id = .restartConfirmation then
    jzClientDoPunishmentRestart now i .localProcedureError .invalidMessageForStateInitialized σ
  else if jzMsgIsForChannel msg then
    let (x, σ) ← findOrOpenChannel i msg.lcn σ
    jzChannelProcessMessage now x msg σ
  else
    jzClientDoDiagnostic i .invalidMessageForStateInitialized msg.version msg.id.code msg.lcn σ

/-- What `jz_msg_validate` checks: the version. The signature and the id are right in
every message. -/
def jzMsgValidate (msg : JzMsg) : Diag :=
  if msg.version ≠ 1 then .unknownVersion else .ok

/-- One message is taken off the queue of a client. -/
def jzClientProcessMessage (now i : ℕ) (msg : JzMsg) (σ : Server) : Except Fault Server := do
  let C ← σ.client i
  jzClientDiagnosticString C
  if jzMsgValidate msg = .ok then
    match C.state with
    | .c1Uninitialized => jzClientProcessMessageInC1UninitializedState i msg σ
    | .c2ClientRestartRequest => jzClientProcessMessageInC2ClientRestartRequestState now i msg σ
    | .c3ServerRestartRequest => jzClientProcessMessageInC3ServerRestartRequestState i msg σ
    | .c4Initialized => jzClientProcessMessageInC4InitializedState now i msg σ
  else
    return σ

/-! ### Timers -/

def jzClientDoRestartIndicationExpiration (now i : ℕ) (σ : Server) : Except Fault Server := do
  let C ← σ.client i
  -- As with a reset: once more, and then the client counts as initialized.
  match C.timerCount with
  | 1 =>
    jzClientDoPunishmentRestart now i .localProcedureError .timeExpiredRestartRequest σ
  | 2 =>
    let σ ← σ.updateClient i fun C => jzClientTimerReset { C with state := .c4Initialized }
    jzClientSendMsg i none (jzMsgNewDiagnostic Diag.timeExpiredRestartRequest.code JZ_MSG_VERSION
      MsgId.clearRequest.code 0) σ
  | _ => throw .assertFailed

/-- The timers of the channels are looked at one after the other. The clock is read for
each of them. -/
def checkChannelTimers : List (ℕ × ℕ) → Server → Except Fault Server
  | [], σ => .ok σ
  | (now, x) :: readings, σ => do
    let σ ← jzChannelCheckTimers now x σ
    checkChannelTimers readings σ

/-- Look at the timers of a client. `clock` is what the clock says when it is read for the
first time, the second time and so on. -/
def jzClientCheckTimers (clock : ℕ → ℕ) (i : ℕ) (σ : Server) : Except Fault Server := do
  let C ← σ.client i
  let σ ← checkChannelTimers (C.channels.entries.mapIdx fun k entry => (clock k, entry.2)) σ
  -- The clock is read once for each channel before.
  let now := clock C.channels.size
  let C ← σ.client i
  if C.timerType = .none ∨ C.timerExpirationTime > now then
    return σ
  let σ ← σ.updateClient i fun C => { C with timerCount := C.timerCount + 1 }
  jzClientDoRestartIndicationExpiration now i σ

/-! ### The main loop -/

/-- What the main loop can do next. -/
inductive Event where
  /-- A client connects. -/
  | connect
  /-- A client's message is processed. -/
  | message (now i : ℕ) (msg : JzMsg)
  /-- A bad message of a client was skipped, and it is sent a diagnostic. -/
  | badMessage (i : ℕ) (diagnostic : JzMsg)
  /-- The input of a client is hopelessly corrupt. -/
  | corrupt (now i : ℕ)
  /-- A client has gone. -/
  | hangup (now i : ℕ)
  /-- The timers of a client are looked at. -/
  | tick (clock : ℕ → ℕ) (i : ℕ)
  /-- The entries of a client's hash table change their order. -/
  | rehash (i : ℕ) (channels : Table UInt16 ℕ)

/-- A client whose socket is a source of the main loop. -/
def Server.HasSource (σ : Server) (i : ℕ) : Prop :=
  ∃ C, σ.clients[i]? = some C ∧ C.hasSource = true

/-- Which events can happen. -/
def Event.Enabled (σ : Server) : Event → Prop
  | .connect => True
  | .message _ i _ => σ.HasSource i
  | .badMessage i _ => σ.HasSource i
  | .corrupt _ i => σ.HasSource i
  | .hangup _ i => σ.HasSource i
  | .tick _ i => i < σ.clients.length
  | .rehash i channels => ∃ C, σ.clients[i]? = some C ∧ C.channels.SameEntries channels

/-- The server handles an event. -/
def Server.handle (σ : Server) : Event → Except Fault Server
  | .connect => .ok { σ with clients := σ.clients ++ [{}] }
  | .message now i msg => jzClientProcessMessage now i msg σ
  | .badMessage i diagnostic => jzClientSendMsg i none diagnostic σ
  | .corrupt now i =>
    jzClientDoPunishmentRestart now i .localProcedureError .unidentifiablePacket σ
  | .hangup now i => do
    let C ← σ.client i
    jzClientDiagnosticString C
    -- The client stays in the list, but nothing is read from it any more.
    let σ ← jzClientDoHangup now i σ
    σ.updateClient i fun C => { C with hasSource := false }
  | .tick clock i => jzClientCheckTimers clock i σ
  | .rehash i channels => σ.updateClient i fun C => { C with channels }

/-- The application server. The log of sent messages is that of the last event. -/
def serverSystem : Lts Server Event where
  Init σ := σ = {}
  Step σ e σ' := e.Enabled σ ∧ { σ with sent := [] }.handle e = .ok σ'

/-! ### Playing events -/

instance (σ : Server) (i : ℕ) : Decidable (σ.HasSource i) :=
  decidable_of_iff ((σ.clients[i]?).any (·.hasSource) = true) (Option.any_eq_true _ _)

instance (σ : Server) (e : Event) : Decidable (e.Enabled σ) :=
  match e with
  | .connect => inferInstanceAs (Decidable True)
  | .message _ i _ | .badMessage i _ | .corrupt _ i | .hangup _ i =>
    inferInstanceAs (Decidable (σ.HasSource i))
  | .tick _ i => inferInstanceAs (Decidable (i < σ.clients.length))
  | .rehash i channels =>
    decidable_of_iff
      ((σ.clients[i]?).any (fun C => decide (C.channels.entries.Perm channels.entries)) = true)
      (by simp only [Option.any_eq_true, decide_eq_true_eq]; rfl)

/-- The server after the events, if all of them can happen. -/
def Server.play : List Event → Server → Option Server
  | [], σ => some σ
  | e :: es, σ =>
    if e.Enabled σ then
      match ({ σ with sent := [] } : Server).handle e with
      | .ok σ' => σ'.play es
      | .error _ => none
    else
      none

theorem run_of_play {es : List Event} {σ σ' : Server} (h : σ.play es = some σ') :
    serverSystem.Run σ es σ' := by
  induction es generalizing σ with
  | nil =>
    cases h
    exact .nil _
  | cons e es ih =>
    unfold Server.play at h
    split at h
    · rename_i henabled
      split at h
      · exact .cons ⟨henabled, ‹_›⟩ (ih h)
      · cases h
    · cases h

theorem reachable_of_play {es : List Event} {σ : Server}
    (h : ({} : Server).play es = some σ) : serverSystem.Reachable σ :=
  (Lts.Reachable.init rfl).run (run_of_play h)

/-- Two clients connect, and a client `A` calls a client `B`. -/
def callEvents : List Event :=
  [.connect, .connect,
    .message 0 0 (jzMsgNewConnect (some (.ofBytes [65])) 0),
    .message 0 1 (jzMsgNewConnect (some (.ofBytes [66])) 0),
    .message 0 0 (jzMsgNewCallRequest 1 (some (.ofBytes [65])) (some (.ofBytes [66])) 6 2 10 [])]

/-- `B` accepts the call. -/
def talkEvents : List Event :=
  callEvents ++ [.message 0 1
    (jzMsgNewCallAccepted 1 (some (.ofBytes [65])) (some (.ofBytes [66])) 6 2 10 [])]

/-- A first packet of `A`. -/
def firstData : JzMsg :=
  jzMsgNewData 1 0 0 0 [1]

end Application10
end Jozabad
