import Jozabad.Application10.Inbox
import Jozabad.Lib.Follows

/-!
# The log of what has been sent

The server keeps what it sends in an event in a log. No handler looks at the log: it only adds
to it (`AddsToLog`). So a handler that begins with something in the log does what it does with an
empty one, and what it sends stands behind what has been there (`addsToLog_clientProcessMessage`,
`addsToLog_punishmentRestart`).
-/

namespace Jozabad
namespace Application10

/-- The server, with `log` in front of what it has sent. -/
def Server.after (log : List Sent) (σ : Server) : Server :=
  { σ with sent := log ++ σ.sent }

/-- The handler adds to the log, and does not look at it. -/
def AddsToLog (f : Server → Except Fault Server) : Prop :=
  ∀ log σ, Follows (Server.after log) (f (σ.after log)) (f σ)

variable {σ : Server} {log : List Sent} {now x y i : ℕ} {lcn : UInt16} {X : JzChannel}
  {msg : JzMsg} {channel : Option ℕ} {f : JzChannel → JzChannel}

/-! ### Reads, writes and messages -/

theorem addsToLog_ok : AddsToLog .ok :=
  fun _ _ => .ok rfl

theorem addsToLog_update : AddsToLog fun σ => σ.update x f :=
  fun _ _ => .read fun _ => .ok rfl

theorem addsToLog_updateClient {f : JzClient → JzClient} :
    AddsToLog fun σ => σ.updateClient i f :=
  fun _ _ => .read fun _ => .ok rfl

theorem addsToLog_sendMsg : AddsToLog (jzClientSendMsg i channel msg) := by
  refine fun log σ => .read fun _ => .read fun _ => .ok ?_
  unfold Server.after
  rw [List.append_assoc]

/-! ### Messages of the server -/

theorem addsToLog_processServerMessage : AddsToLog (jzChannelProcessServerMessage now x msg) := by
  refine fun log σ => .read fun X => .read fun out => ?_
  obtain ⟨X', msg2⟩ := out
  have hdump (σ : Server) : Follows (Server.after log)
      (do jzChannelDump x (σ.after log); return σ.after log)
      (do jzChannelDump x σ; return σ) :=
    .read fun _ => .ok rfl
  cases msg2 with
  | some msg2 => exact .bind (addsToLog_sendMsg log (σ.setChannel x X')) hdump
  | none => exact .bind (addsToLog_ok log (σ.setChannel x X')) hdump

theorem addsToLog_toPeer {msg : JzChannel → JzMsg} : AddsToLog (X.toPeer now msg) := by
  intro log σ
  unfold JzChannel.toPeer
  cases X.peer with
  | some y => exact .read fun Y => addsToLog_processServerMessage log σ
  | none => exact .ok rfl

theorem addsToLog_updatePeer : AddsToLog (X.updatePeer f) := by
  intro log σ
  unfold JzChannel.updatePeer
  cases X.peer with
  | some y => exact addsToLog_update log σ
  | none => exact .ok rfl

/-! ### Handlers of a channel -/

theorem addsToLog_punishmentClearRequest {cause : ClearCause} {diagnostic : Diag} :
    AddsToLog (jzChannelDoPunishmentClearRequest now x cause diagnostic) :=
  fun log σ => .read fun _ => .read fun _ => .bind (addsToLog_processServerMessage log σ)
    fun σ => .bind (addsToLog_updatePeer log σ) fun σ => addsToLog_toPeer log σ

theorem addsToLog_punishmentResetRequest {cause : ResetCause} {diagnostic : Diag} :
    AddsToLog (jzChannelDoPunishmentResetRequest now x cause diagnostic) :=
  fun log σ => .read fun _ => .read fun _ => .bind (addsToLog_processServerMessage log σ)
    fun σ => addsToLog_toPeer log σ

theorem addsToLog_connect : AddsToLog (jzChannelConnect now x y msg) :=
  fun log σ => .bind (addsToLog_update log σ) fun σ => .bind (addsToLog_update log σ) fun σ =>
    .bind (addsToLog_update log σ) fun σ => .bind (addsToLog_processServerMessage log σ) fun σ =>
      addsToLog_update log σ

theorem addsToLog_openChannel : AddsToLog (openChannel i lcn) :=
  fun _ _ => .read fun _ => .ok rfl

theorem follows_reserveLowChannel :
    Follows (Prod.map id (Server.after log)) (jzClientReserveLowChannel i (σ.after log))
      (jzClientReserveLowChannel i σ) := by
  refine .read fun C => ?_
  dsimp only
  split
  · exact .bind (addsToLog_openChannel log σ) fun _ => .read fun _ => .read fun _ => .ok rfl
  · exact .ok rfl

theorem addsToLog_callRequest : AddsToLog (jzChannelDoClientCallRequest now x msg) := by
  refine fun log σ => .read fun X => .read fun C => ?_
  cases callRequestError C.iodir msg with
  | some diagnostic => exact addsToLog_punishmentClearRequest log σ
  | none =>
    refine .read fun found => ?_
    cases found with
    | none => exact addsToLog_punishmentClearRequest log σ
    | some peer =>
      refine .read fun P => ?_
      split
      · exact addsToLog_punishmentClearRequest log σ
      · refine .bind follows_reserveLowChannel fun r => ?_
        obtain ⟨_ | y, σ'⟩ := r
        · exact addsToLog_punishmentClearRequest log σ'
        · exact addsToLog_connect log σ'

theorem addsToLog_callAccepted : AddsToLog (jzChannelDoClientCallAccepted now x msg) := by
  refine fun log σ => .read fun X => .read fun bad => ?_
  cases bad with
  | some diagnostic => exact addsToLog_punishmentClearRequest log σ
  | none =>
    exact .bind (addsToLog_update log σ) fun σ => .read fun _ =>
      .bind (addsToLog_toPeer log σ) fun σ => addsToLog_update log σ

theorem addsToLog_callCollision : AddsToLog (jzChannelDoClientCallCollision now x msg) :=
  fun log σ => .read fun _ => .bind (addsToLog_update log σ) fun σ => .read fun _ =>
    .bind (addsToLog_toPeer log σ) fun σ => addsToLog_update log σ

theorem addsToLog_clearRequest : AddsToLog (jzChannelDoClientClearRequest now x msg) :=
  fun log σ => .read fun _ => .bind (addsToLog_toPeer log σ) fun σ => addsToLog_update log σ

theorem addsToLog_resetRequest : AddsToLog (jzChannelDoClientResetRequest now x msg) := by
  intro log σ
  unfold jzChannelDoClientResetRequest
  split
  · exact addsToLog_punishmentResetRequest log σ
  · exact .read fun _ => .bind (addsToLog_update log σ) fun σ => addsToLog_toPeer log σ

theorem addsToLog_resetConfirmation : AddsToLog (jzChannelDoClientResetConfirmation now x) :=
  fun log σ => .read fun _ => .bind (addsToLog_update log σ) fun σ => addsToLog_toPeer log σ

theorem addsToLog_data : AddsToLog (jzChannelDoClientData now x msg) := by
  refine fun log σ => .read fun X => .read fun bad => ?_
  cases bad with
  | some diagnostic => exact addsToLog_punishmentResetRequest log σ
  | none => exact .bind (addsToLog_update log σ) fun σ => addsToLog_toPeer log σ

theorem addsToLog_receipt {new : UInt16 → UInt16 → JzMsg} :
    AddsToLog (clientReceipt new now x msg) := by
  refine fun log σ => .read fun X => ?_
  split
  · exact addsToLog_punishmentResetRequest log σ
  · exact .bind (addsToLog_update log σ) fun σ => addsToLog_toPeer log σ

theorem addsToLog_resetTimerOf {original : ChannelState} {timerType : JzChannelTimerType} :
    AddsToLog (resetTimerOf original timerType x) :=
  addsToLog_update

/-- **Every message** of a client to a channel. -/
theorem addsToLog_processMessageInState :
    AddsToLog (jzChannelProcessMessageInState now x msg) := by
  refine fun log σ => .read fun X => ?_
  cases X.state with
  | p1Ready =>
    dsimp only
    split
    · exact addsToLog_clearRequest log σ
    · exact addsToLog_callRequest log σ
    · exact addsToLog_punishmentClearRequest log σ
  | p2ClientWaiting | p5CallCollision =>
    dsimp only
    split
    · exact addsToLog_clearRequest log σ
    · exact addsToLog_punishmentClearRequest log σ
  | p3ServerWaiting =>
    refine .bind (φ := Server.after log) ?_ fun σ => addsToLog_resetTimerOf log σ
    split
    · exact addsToLog_clearRequest log σ
    · exact addsToLog_callCollision log σ
    · exact addsToLog_callAccepted log σ
    · exact addsToLog_punishmentClearRequest log σ
  | d1FlowControlReady =>
    dsimp only
    split
    · exact addsToLog_clearRequest log σ
    · exact addsToLog_resetRequest log σ
    · exact addsToLog_data log σ
    · exact addsToLog_receipt log σ
    · exact addsToLog_receipt log σ
    · exact addsToLog_punishmentResetRequest log σ
  | d2ClientResetRequest =>
    dsimp only
    split
    · exact addsToLog_clearRequest log σ
    · exact .ok rfl
    · exact addsToLog_punishmentResetRequest log σ
  | d3ServerResetIndication =>
    refine .bind (φ := Server.after log) ?_ fun σ => addsToLog_resetTimerOf log σ
    split
    · exact addsToLog_clearRequest log σ
    · exact addsToLog_resetConfirmation log σ
    · exact addsToLog_resetConfirmation log σ
    · exact .ok rfl
  | p6ClientClearRequest =>
    dsimp only
    split
    · exact .ok rfl
    · exact addsToLog_punishmentClearRequest log σ
  | p7ServerClearIndication =>
    refine .bind (φ := Server.after log) ?_ fun σ => addsToLog_resetTimerOf log σ
    split
    · exact addsToLog_update log σ
    · exact addsToLog_update log σ
    · exact .ok rfl

theorem addsToLog_processMessage : AddsToLog (jzChannelProcessMessage now x msg) :=
  fun log σ => .bind (addsToLog_processMessageInState log σ) fun _ => .read fun _ => .ok rfl

/-! ### Handlers of a client -/

theorem addsToLog_restartChannel {cause : ClearCause} {diagnostic : UInt8} :
    AddsToLog fun σ => restartChannel cause now x diagnostic σ :=
  fun log σ => .read fun _ => .bind (addsToLog_update log σ) fun σ =>
    .bind (addsToLog_updatePeer log σ) fun σ => .bind (addsToLog_toPeer log σ) fun σ =>
      addsToLog_update log σ

theorem addsToLog_free : AddsToLog (jzChannelFree x) :=
  fun log σ => .read fun _ => .bind (addsToLog_updatePeer log σ) fun _ => .ok rfl

theorem addsToLog_foreachRemove {callback : ℕ → Server → Except Fault Server}
    (hcallback : ∀ x, AddsToLog (callback x)) (entries : List ((_ : UInt16) × ℕ)) :
    AddsToLog (foreachRemove i callback entries) := by
  induction entries with
  | nil => exact addsToLog_ok
  | cons entry entries ih =>
    exact fun log σ => .bind (hcallback entry.2 log σ) fun σ =>
      .bind (addsToLog_updateClient log σ) fun σ => .bind (addsToLog_free log σ) fun σ => ih log σ

/-- **The input of a client is corrupt.** -/
theorem addsToLog_punishmentRestart {cause : RestartCause} {diagnostic : Diag} :
    AddsToLog (jzClientDoPunishmentRestart now i cause diagnostic) :=
  fun log σ => .bind (addsToLog_sendMsg log σ) fun σ => .read fun _ =>
    .bind (addsToLog_foreachRemove (fun _ => addsToLog_restartChannel) _ log σ) fun σ =>
      addsToLog_updateClient log σ

theorem addsToLog_restart {cause diagnostic : UInt8} :
    AddsToLog (jzClientDoRestart now i cause diagnostic) := by
  intro log σ
  unfold jzClientDoRestart
  split
  · exact addsToLog_punishmentRestart log σ
  · exact .bind (addsToLog_updateClient log σ) fun σ => .read fun _ =>
      .bind (addsToLog_foreachRemove (fun _ => addsToLog_restartChannel) _ log σ) fun σ =>
        .bind (addsToLog_sendMsg log σ) fun σ => addsToLog_updateClient log σ

theorem addsToLog_c1 : AddsToLog (jzClientProcessMessageInC1UninitializedState i msg) := by
  intro log σ
  unfold jzClientProcessMessageInC1UninitializedState
  split
  · refine .read fun found => ?_
    cases found with
    | some j => exact addsToLog_sendMsg log σ
    | none =>
      exact .bind (addsToLog_sendMsg log σ) fun σ => addsToLog_updateClient log σ
  · exact .ok rfl

theorem addsToLog_c2 :
    AddsToLog (jzClientProcessMessageInC2ClientRestartRequestState now i msg) := by
  intro log σ
  unfold jzClientProcessMessageInC2ClientRestartRequestState
  split_ifs
  · exact .ok rfl
  · exact addsToLog_punishmentRestart log σ
  · exact addsToLog_sendMsg log σ

theorem addsToLog_c3 : AddsToLog (jzClientProcessMessageInC3ServerRestartRequestState i msg) := by
  intro log σ
  unfold jzClientProcessMessageInC3ServerRestartRequestState
  dsimp only
  split_ifs
  · exact .bind (addsToLog_updateClient log σ) fun σ => addsToLog_updateClient log σ
  · exact .bind (addsToLog_ok log σ) fun σ => addsToLog_updateClient log σ
  · exact .bind (addsToLog_sendMsg log σ) fun σ => addsToLog_updateClient log σ

theorem follows_findOrOpenChannel :
    Follows (Prod.map id (Server.after log)) (findOrOpenChannel i lcn (σ.after log))
      (findOrOpenChannel i lcn σ) := by
  refine .read fun C => ?_
  cases C.channels.get? lcn with
  | some x => exact .ok rfl
  | none => exact .bind (addsToLog_openChannel log σ) fun _ => .read fun _ => .ok rfl

theorem addsToLog_c4 : AddsToLog (jzClientProcessMessageInC4InitializedState now i msg) := by
  intro log σ
  unfold jzClientProcessMessageInC4InitializedState
  split_ifs
  · exact addsToLog_restart log σ
  · exact addsToLog_punishmentRestart log σ
  · exact .bind follows_findOrOpenChannel fun r => addsToLog_processMessage log r.2
  · exact addsToLog_sendMsg log σ

/-- **A message** of a client. -/
theorem addsToLog_clientProcessMessage : AddsToLog (jzClientProcessMessage now i msg) := by
  refine fun log σ => .read fun C => .read fun _ => ?_
  split
  · cases C.state with
    | c1Uninitialized => exact addsToLog_c1 log σ
    | c2ClientRestartRequest => exact addsToLog_c2 log σ
    | c3ServerRestartRequest => exact addsToLog_c3 log σ
    | c4Initialized => exact addsToLog_c4 log σ
  · exact .ok rfl

end Application10
end Jozabad
