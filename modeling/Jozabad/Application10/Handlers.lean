import Jozabad.Application10.Scripts

/-!
# The scripts of the handlers

`MessageScript` and `ExpiryScript` list the scripts of the handlers of a channel, with the
states and the messages in which they are played. `processMessage_script`,
`checkTimers_script` and `restartChannel_script` say that the lists are complete, but for a
call request that finds a free channel.
-/

namespace Jozabad
namespace Application10

/-! ### The scripts -/

def clearActs (msg : JzMsg) : List Act :=
  [.tell fun Y => jzMsgNewClearRequest Y.lcn msg.cause msg.diagnostic,
    .own fun X => { X with state := .p6ClientClearRequest }]

def punishClearActs (lcn : UInt16) (cause : ClearCause) (diagnostic : Diag) : List Act :=
  [.self (jzMsgNewClearRequest lcn cause.code diagnostic.code),
    .other fun Y => { Y with peer := none },
    .tell fun Y => jzMsgNewClearRequest Y.lcn
      (if cause = .localProcedureError then .remoteProcedureError else cause).code diagnostic.code]

def punishResetActs (lcn : UInt16) (cause : ResetCause) (diagnostic : Diag) : List Act :=
  [.self (jzMsgNewResetRequest lcn cause.code diagnostic.code),
    .tell fun Y => jzMsgNewResetRequest Y.lcn
      (if cause = .localProcedureError then .remoteProcedureError else cause).code diagnostic.code]

def acceptActs (msg : JzMsg) : List Act :=
  [.own (JzChannel.storeFacilities msg),
    .tell fun Y => jzMsgNewCallAccepted Y.lcn msg.callingAddress msg.calledAddress msg.packet
      msg.window msg.throughput msg.data,
    .own jzChannelResetFlowControl]

def collideActs (msg : JzMsg) : List Act :=
  [.own (JzChannel.storeFacilities msg),
    .tell fun Y => jzMsgNewCallRequest Y.lcn msg.callingAddress msg.calledAddress msg.packet
      msg.window msg.throughput msg.data,
    .own fun X => { X with state := .p5CallCollision }]

def confirmClearActs : List Act :=
  [.own fun X => { X with state := .p1Ready }]

def resetActs (msg : JzMsg) : List Act :=
  [.own fun X => { X with state := .d2ClientResetRequest },
    .tell fun Y => jzMsgNewResetRequest Y.lcn msg.cause msg.diagnostic]

def confirmResetActs : List Act :=
  [.own jzChannelResetFlowControl, .tell fun Y => jzMsgNewResetConfirmation Y.lcn]

def dataActs (msg : JzMsg) : List Act :=
  [.own fun X =>
      { X with clientPs := UInt16.ofNat ((X.clientPs.toNat + 1) % SEQ_MAX), clientPr := msg.pr },
    .tell fun Y => jzMsgNewData Y.lcn msg.q msg.pr msg.ps msg.data]

def receiptActs (new : UInt16 → UInt16 → JzMsg) (msg : JzMsg) : List Act :=
  [.own fun X => { X with clientPr := msg.pr }, .tell fun _ => new msg.lcn msg.pr]

def resetTimerAct (original : ChannelState) (timerType : JzChannelTimerType) : Act :=
  .own fun X =>
    if X.state ≠ original ∧ X.timerType = timerType then jzChannelTimerReset X else X

/-- What comes after a client's message, in the states with a timer. -/
def timerActs : ChannelState → List Act
  | .p3ServerWaiting => [resetTimerAct .p3ServerWaiting .incomingCall]
  | .d3ServerResetIndication => [resetTimerAct .d3ServerResetIndication .resetIndication]
  | .p7ServerClearIndication => [resetTimerAct .p7ServerClearIndication .clearIndication]
  | _ => []

/-- Whether a channel in state `s` leaves a client's message aside. -/
def leaves : ChannelState → MsgId → Bool
  | .p6ClientClearRequest, id => id = .clearRequest
  | .p7ServerClearIndication, id => ¬ (id = .clearRequest ∨ id = .clearConfirmation)
  | .d2ClientResetRequest, id => id = .resetRequest
  | .d3ServerResetIndication, id =>
    ¬ (id = .clearRequest ∨ id = .resetRequest ∨ id = .resetConfirmation)
  | _, _ => false

/-- **The scripts of a client's message** `msg` to a channel `X`. -/
inductive MessageScript (X : JzChannel) (msg : JzMsg) : List Act → Prop
  | ignored (hs : leaves X.state msg.id = true) : MessageScript X msg []
  | clear (hid : msg.id = .clearRequest)
      (hs : X.state ≠ .p6ClientClearRequest ∧ X.state ≠ .p7ServerClearIndication) :
      MessageScript X msg (clearActs msg)
  | punishClear (cause : ClearCause) (diagnostic : Diag)
      (hs : X.state = .p1Ready ∨ X.state = .p2ClientWaiting ∨ X.state = .p3ServerWaiting ∨
        X.state = .p5CallCollision ∨ X.state = .p6ClientClearRequest)
      (hheard : leaves X.state msg.id = false) :
      MessageScript X msg (punishClearActs X.lcn cause diagnostic)
  | punishReset (cause : ResetCause) (diagnostic : Diag)
      (hs : X.state = .d1FlowControlReady ∨ X.state = .d2ClientResetRequest)
      (hheard : leaves X.state msg.id = false) :
      MessageScript X msg (punishResetActs X.lcn cause diagnostic)
  | accept (hid : msg.id = .callAccepted) (hs : X.state = .p3ServerWaiting) :
      MessageScript X msg (acceptActs msg)
  | collide (hid : msg.id = .callRequest) (hs : X.state = .p3ServerWaiting) :
      MessageScript X msg (collideActs msg)
  | confirmClear (hid : msg.id = .clearRequest ∨ msg.id = .clearConfirmation)
      (hs : X.state = .p7ServerClearIndication) : MessageScript X msg confirmClearActs
  | reset (hid : msg.id = .resetRequest) (hs : X.state = .d1FlowControlReady) :
      MessageScript X msg (resetActs msg)
  | confirmReset (hid : msg.id = .resetRequest ∨ msg.id = .resetConfirmation)
      (hs : X.state = .d3ServerResetIndication) : MessageScript X msg confirmResetActs
  | data (hid : msg.id = .data) (hs : X.state = .d1FlowControlReady)
      (hvalid : clientDataError X msg = .ok none) : MessageScript X msg (dataActs msg)
  | rr (hid : msg.id = .rr) (hs : X.state = .d1FlowControlReady)
      (hvalid : seqInRange msg.pr.toNat X.clientPr.toNat X.peerPs.toNat = true) :
      MessageScript X msg (receiptActs jzMsgNewRr msg)
  | rnr (hid : msg.id = .rnr) (hs : X.state = .d1FlowControlReady)
      (hvalid : seqInRange msg.pr.toNat X.clientPr.toNat X.peerPs.toNat = true) :
      MessageScript X msg (receiptActs jzMsgNewRnr msg)

/-- One more expiration is counted. -/
def countAct : Act :=
  .own fun X => { X with timerCount := X.timerCount + 1 }

def expireClearActs (lcn : UInt16) : List Act :=
  [.other fun Y => { Y with state := .p1Ready, peer := none },
    .own fun X => jzChannelTimerReset { X with state := .p1Ready, peer := none },
    .notify (jzMsgNewDiagnostic Diag.timeExpiredClearRequest.code JZ_MSG_VERSION
      MsgId.clearRequest.code lcn)]

/-- **The scripts of a timer** that has expired. -/
inductive ExpiryScript (X : JzChannel) : List Act → Prop
  | incomingCall (htimer : X.timerType = .incomingCall) (hcount : X.timerCount + 1 = 1) :
      ExpiryScript X (countAct :: .own jzChannelTimerReset ::
        punishClearActs X.lcn .localProcedureError .timeExpiredIncomingCall)
  | firstReset (htimer : X.timerType = .resetIndication) (hcount : X.timerCount + 1 = 1) :
      ExpiryScript X (countAct ::
        punishResetActs X.lcn .localProcedureError .timeExpiredResetRequest)
  | lastReset (htimer : X.timerType = .resetIndication) (hcount : X.timerCount + 1 = 2) :
      ExpiryScript X (countAct ::
        punishClearActs X.lcn .localProcedureError .timeExpiredResetRequest)
  | firstClear (htimer : X.timerType = .clearIndication) (hcount : X.timerCount + 1 = 1) :
      ExpiryScript X (countAct ::
        punishClearActs X.lcn .localProcedureError .timeExpiredClearRequest)
  | lastClear (htimer : X.timerType = .clearIndication) (hcount : X.timerCount + 1 = 2) :
      ExpiryScript X (countAct :: expireClearActs X.lcn)

/-- The script of a restart. -/
def restartActs (cause : ClearCause) (diagnostic : UInt8) : List Act :=
  [.own fun X => { X with peer := none }, .other fun Y => { Y with peer := none },
    .tell fun Y => jzMsgNewClearRequest Y.lcn cause.code diagnostic,
    .own fun X => jzChannelTimerReset { X with state := .p1Ready }]

/-! ### All acts are tame -/

section

variable {X : JzChannel} {msg : JzMsg} {as : List Act}

theorem tame_nil : ∀ a ∈ ([] : List Act), a.Tame :=
  fun _ h => absurd h List.not_mem_nil

theorem tame_cons {a : Act} (h : a.Tame) (has : ∀ a ∈ as, a.Tame) : ∀ b ∈ a :: as, b.Tame :=
  List.forall_mem_cons.2 ⟨h, has⟩

/-- A write that leaves the peer alone. -/
theorem own_tame {f : JzChannel → JzChannel} (howner : ∀ X, (f X).owner = X.owner)
    (hpeer : ∀ X, (f X).peer = X.peer) : (Act.own f).Tame :=
  fun X => ⟨howner X, .inl (hpeer X)⟩

theorem punishClearActs_tame {lcn : UInt16} {cause : ClearCause} {diagnostic : Diag} :
    ∀ a ∈ punishClearActs lcn cause diagnostic, a.Tame :=
  tame_cons trivial (tame_cons (fun _ => ⟨rfl, .inr rfl⟩) (tame_cons trivial tame_nil))

theorem punishResetActs_tame {lcn : UInt16} {cause : ResetCause} {diagnostic : Diag} :
    ∀ a ∈ punishResetActs lcn cause diagnostic, a.Tame :=
  tame_cons trivial (tame_cons trivial tame_nil)

theorem receiptActs_tame {new : UInt16 → UInt16 → JzMsg} :
    ∀ a ∈ receiptActs new msg, a.Tame :=
  tame_cons (own_tame (fun _ => rfl) fun _ => rfl) (tame_cons trivial tame_nil)

theorem resetTimerAct_tame {original : ChannelState} {timerType : JzChannelTimerType} :
    (resetTimerAct original timerType).Tame := by
  intro X
  beta_reduce
  split
  · exact ⟨rfl, .inl rfl⟩
  · exact .refl X

theorem timerActs_tame (s : ChannelState) : ∀ a ∈ timerActs s, a.Tame := by
  cases s with
  | p3ServerWaiting | d3ServerResetIndication | p7ServerClearIndication =>
    exact tame_cons resetTimerAct_tame tame_nil
  | p1Ready | p2ClientWaiting | p5CallCollision | p6ClientClearRequest | d1FlowControlReady
    | d2ClientResetRequest => exact tame_nil

theorem MessageScript.tame (h : MessageScript X msg as) :
    ∀ a ∈ as ++ timerActs X.state, a.Tame := by
  refine List.forall_mem_append.2 ⟨?_, timerActs_tame X.state⟩
  have hown {f : JzChannel → JzChannel} (h : ∀ X, (f X).owner = X.owner ∧ (f X).peer = X.peer) :
      (Act.own f).Tame := own_tame (fun X => (h X).1) fun X => (h X).2
  cases h with
  | ignored => exact tame_nil
  | clear => exact tame_cons trivial (tame_cons (hown fun _ => ⟨rfl, rfl⟩) tame_nil)
  | punishClear => exact punishClearActs_tame
  | punishReset => exact punishResetActs_tame
  | accept | collide =>
    exact tame_cons (hown fun _ => ⟨rfl, rfl⟩)
      (tame_cons trivial (tame_cons (hown fun _ => ⟨rfl, rfl⟩) tame_nil))
  | confirmClear => exact tame_cons (hown fun _ => ⟨rfl, rfl⟩) tame_nil
  | reset | confirmReset | data =>
    exact tame_cons (hown fun _ => ⟨rfl, rfl⟩) (tame_cons trivial tame_nil)
  | rr | rnr => exact receiptActs_tame

/-- A message that is left aside has no script. -/
theorem MessageScript.eq_nil (h : MessageScript X msg as) (hleft : leaves X.state msg.id = true) :
    as = [] := by
  have hheard (hid : leaves X.state msg.id = false) : as = [] := by
    rw [hleft] at hid
    cases hid
  cases h with
  | ignored => rfl
  | punishClear _ _ _ hid | punishReset _ _ _ hid => exact hheard hid
  | clear hid hs =>
    refine hheard ?_
    cases hX : X.state <;> simp_all [leaves]
  | confirmClear hid hs | confirmReset hid hs =>
    refine hheard ?_
    obtain hid | hid := hid <;> rw [hs, hid] <;> rfl
  | accept hid hs | collide hid hs | reset hid hs | data hid hs | rr hid hs | rnr hid hs =>
    refine hheard ?_
    rw [hs, hid]
    rfl

theorem ExpiryScript.tame (h : ExpiryScript X as) : ∀ a ∈ as, a.Tame := by
  have hcount : countAct.Tame := own_tame (fun _ => rfl) fun _ => rfl
  cases h with
  | incomingCall =>
    exact tame_cons hcount (tame_cons (own_tame (fun _ => rfl) fun _ => rfl) punishClearActs_tame)
  | firstReset => exact tame_cons hcount punishResetActs_tame
  | lastReset | firstClear => exact tame_cons hcount punishClearActs_tame
  | lastClear =>
    exact tame_cons hcount (tame_cons (fun _ => ⟨rfl, .inr rfl⟩)
      (tame_cons (fun _ => ⟨rfl, .inr rfl⟩) (tame_cons trivial tame_nil)))

theorem restartActs_tame {cause : ClearCause} {diagnostic : UInt8} :
    ∀ a ∈ restartActs cause diagnostic, a.Tame :=
  tame_cons (fun _ => ⟨rfl, .inr rfl⟩) (tame_cons (fun _ => ⟨rfl, .inr rfl⟩)
    (tame_cons trivial (tame_cons (own_tame (fun _ => rfl) fun _ => rfl) tame_nil)))

end

/-! ### The handlers play their scripts -/

section

variable {σ σ' : Server} {now x : ℕ} {X : JzChannel} {msg : JzMsg}

/-- What a handler finds at `x`. -/
theorem channel_bind_eq_ok {α : Type} {f : JzChannel → Except Fault α} {r : α}
    (hX : σ.heap.get? x = some X) (h : (σ.channel x >>= f) = .ok r) : f X = .ok r := by
  obtain ⟨X₀, hX₀, h⟩ := bind_eq_ok h
  obtain rfl : X = X₀ := Option.some.inj (hX.symm.trans (channel_eq_ok hX₀))
  exact h

theorem clearRequest_run (hX : σ.heap.get? x = some X)
    (h : jzChannelDoClientClearRequest now x msg σ = .ok σ') :
    (actSystem now x X).Run σ (clearActs msg) σ' := by
  obtain ⟨σ₁, h₁, h⟩ := bind_eq_ok (channel_bind_eq_ok hX h)
  exact .cons h₁ (.single h)

/-- The same of a client. -/
theorem client_bind_eq_ok {α : Type} {i : ℕ} {C : JzClient} {f : JzClient → Except Fault α} {r : α}
    (hC : σ.clients[i]? = some C) (h : (σ.client i >>= f) = .ok r) : f C = .ok r := by
  obtain ⟨C₀, hC₀, h⟩ := bind_eq_ok h
  obtain rfl : C = C₀ := Option.some.inj (hC.symm.trans (client_eq_ok hC₀))
  exact h

theorem punishClear_run {cause : ClearCause} {diagnostic : Diag} (hX : σ.heap.get? x = some X)
    (h : jzChannelDoPunishmentClearRequest now x cause diagnostic σ = .ok σ') :
    (actSystem now x X).Run σ (punishClearActs X.lcn cause diagnostic) σ' := by
  obtain ⟨_, -, h⟩ := bind_eq_ok h
  obtain ⟨σ₁, h₁, h⟩ := bind_eq_ok (channel_bind_eq_ok hX h)
  obtain ⟨σ₂, h₂, h⟩ := bind_eq_ok h
  exact .cons h₁ (.cons h₂ (.single h))

theorem punishReset_run {cause : ResetCause} {diagnostic : Diag} (hX : σ.heap.get? x = some X)
    (h : jzChannelDoPunishmentResetRequest now x cause diagnostic σ = .ok σ') :
    (actSystem now x X).Run σ (punishResetActs X.lcn cause diagnostic) σ' := by
  obtain ⟨_, -, h⟩ := bind_eq_ok h
  obtain ⟨σ₁, h₁, h⟩ := bind_eq_ok (channel_bind_eq_ok hX h)
  exact .cons h₁ (.single h)

theorem callCollision_run (hX : σ.heap.get? x = some X)
    (h : jzChannelDoClientCallCollision now x msg σ = .ok σ') :
    (actSystem now x X).Run σ (collideActs msg) σ' := by
  obtain ⟨σ₁, h₁, h⟩ := bind_eq_ok (channel_bind_eq_ok hX h)
  obtain ⟨_, -, h⟩ := bind_eq_ok h
  obtain ⟨σ₂, h₂, h⟩ := bind_eq_ok h
  exact .cons h₁ (.cons h₂ (.single h))

theorem clearConfirmation_run (h : jzChannelDoClientClearConfirmation x σ = .ok σ') :
    (actSystem now x X).Run σ confirmClearActs σ' :=
  .single h

theorem resetConfirmation_run (hX : σ.heap.get? x = some X)
    (h : jzChannelDoClientResetConfirmation now x σ = .ok σ') :
    (actSystem now x X).Run σ confirmResetActs σ' := by
  obtain ⟨σ₁, h₁, h⟩ := bind_eq_ok (channel_bind_eq_ok hX h)
  exact .cons h₁ (.single h)

theorem callAccepted_script (hX : σ.heap.get? x = some X) (hid : msg.id = .callAccepted)
    (hs : X.state = .p3ServerWaiting) (h : jzChannelDoClientCallAccepted now x msg σ = .ok σ') :
    ∃ as, MessageScript X msg as ∧ (actSystem now x X).Run σ as σ' := by
  obtain ⟨err, -, h⟩ := bind_eq_ok (channel_bind_eq_ok hX h)
  cases err with
  | some diagnostic =>
    exact ⟨_, .punishClear _ _ (.inr (.inr (.inl hs))) (by simp [hs, leaves]),
      punishClear_run hX h⟩
  | none =>
    obtain ⟨σ₁, h₁, h⟩ := bind_eq_ok h
    obtain ⟨_, -, h⟩ := bind_eq_ok h
    obtain ⟨σ₂, h₂, h⟩ := bind_eq_ok h
    exact ⟨_, .accept hid hs, .cons h₁ (.cons h₂ (.single h))⟩

theorem resetRequest_script (hX : σ.heap.get? x = some X) (hid : msg.id = .resetRequest)
    (hs : X.state = .d1FlowControlReady)
    (h : jzChannelDoClientResetRequest now x msg σ = .ok σ') :
    ∃ as, MessageScript X msg as ∧ (actSystem now x X).Run σ as σ' := by
  unfold jzChannelDoClientResetRequest at h
  split at h
  · exact ⟨_, .punishReset _ _ (.inl hs) (by simp [hs, leaves]), punishReset_run hX h⟩
  · obtain ⟨σ₁, h₁, h⟩ := bind_eq_ok (channel_bind_eq_ok hX h)
    exact ⟨_, .reset hid hs, .cons h₁ (.single h)⟩

theorem clientData_script (hX : σ.heap.get? x = some X) (hid : msg.id = .data)
    (hs : X.state = .d1FlowControlReady) (h : jzChannelDoClientData now x msg σ = .ok σ') :
    ∃ as, MessageScript X msg as ∧ (actSystem now x X).Run σ as σ' := by
  obtain ⟨err, herr, h⟩ := bind_eq_ok (channel_bind_eq_ok hX h)
  cases err with
  | some diagnostic =>
    exact ⟨_, .punishReset _ _ (.inl hs) (by simp [hs, leaves]), punishReset_run hX h⟩
  | none =>
    obtain ⟨σ₁, h₁, h⟩ := bind_eq_ok h
    exact ⟨_, .data hid hs herr, .cons h₁ (.single h)⟩

/-- An acknowledgement is punished, or its script is played. -/
theorem clientReceipt_run {new : UInt16 → UInt16 → JzMsg} (hX : σ.heap.get? x = some X)
    (h : clientReceipt new now x msg σ = .ok σ') :
    (∃ cause diagnostic,
        (actSystem now x X).Run σ (punishResetActs X.lcn cause diagnostic) σ') ∨
      (seqInRange msg.pr.toNat X.clientPr.toNat X.peerPs.toNat = true ∧
        (actSystem now x X).Run σ (receiptActs new msg) σ') := by
  have h := channel_bind_eq_ok hX h
  split at h
  · exact .inl ⟨_, _, punishReset_run hX h⟩
  · rename_i hvalid
    obtain ⟨σ₁, h₁, h⟩ := bind_eq_ok h
    exact .inr ⟨by simpa using hvalid, .cons h₁ (.single h)⟩

theorem clientReceipt_script {new : UInt16 → UInt16 → JzMsg} (hX : σ.heap.get? x = some X)
    (hs : X.state = .d1FlowControlReady)
    (hscript : seqInRange msg.pr.toNat X.clientPr.toNat X.peerPs.toNat = true →
      MessageScript X msg (receiptActs new msg))
    (h : clientReceipt new now x msg σ = .ok σ') :
    ∃ as, MessageScript X msg as ∧ (actSystem now x X).Run σ as σ' := by
  obtain ⟨cause, diagnostic, hrun⟩ | ⟨hvalid, hrun⟩ := clientReceipt_run hX h
  · exact ⟨_, .punishReset cause diagnostic (.inl hs) (by simp [hs, leaves]), hrun⟩
  · exact ⟨_, hscript hvalid, hrun⟩

/-- **The call request of `X` is granted**: it is for the client `i`, whose lowest free number
is `lcn`. -/
structure Grants (σ : Server) (X : JzChannel) (msg : JzMsg) (i : ℕ) (lcn : UInt16) : Prop where
  caller : ∃ C, σ.clients[X.parent]? = some C ∧ callRequestError C.iodir msg = none
  callee : jzClientListFindClient msg.calledAddress σ = .ok (some i)
  number : ∃ P, σ.clients[i]? = some P ∧ ¬ (P.iodir = 1 ∨ P.iodir = 3) ∧
    lcn = lowLcn P.channels JZ_MSG_MAX_LCN 1 ∧ lcn.toNat < JZ_MSG_MAX_LCN

/-- A call request that is granted joins the channel to a new one. -/
def Connects (now x : ℕ) (X : JzChannel) (msg : JzMsg) (i : ℕ) (lcn : UInt16) (σ σ' : Server) :
    Prop :=
  Grants σ X msg i lcn ∧ ∃ y σ₁, jzClientReserveLowChannel i σ = .ok (some y, σ₁) ∧
    jzChannelConnect now x y msg σ₁ = .ok σ'

theorem reserveLowChannel_eq_none {i : ℕ}
    (h : jzClientReserveLowChannel i σ = .ok (none, σ')) : σ' = σ := by
  obtain ⟨C, -, h⟩ := bind_eq_ok h
  simp only at h
  split at h
  · obtain ⟨σ₁, -, h⟩ := bind_eq_ok h
    obtain ⟨_, -, h⟩ := bind_eq_ok h
    obtain ⟨_, -, h⟩ := bind_eq_ok h
    cases h
  · cases h
    rfl

/-- A channel is reserved if and only if a number is free. -/
theorem reserveLowChannel_isSome {i : ℕ} {C : JzClient} {r : Option ℕ}
    (hC : σ.clients[i]? = some C) (h : jzClientReserveLowChannel i σ = .ok (r, σ')) :
    r.isSome = true ↔ (lowLcn C.channels JZ_MSG_MAX_LCN 1).toNat < JZ_MSG_MAX_LCN := by
  have h := client_bind_eq_ok hC h
  simp only at h
  split at h
  · obtain ⟨σ₁, -, h⟩ := bind_eq_ok h
    obtain ⟨_, -, h⟩ := bind_eq_ok h
    obtain ⟨_, -, h⟩ := bind_eq_ok h
    cases h
    exact iff_of_true rfl ‹_›
  · cases h
    exact iff_of_false (by rintro ⟨⟩) ‹_›

theorem callRequest_cases (hX : σ.heap.get? x = some X) (hs : X.state = .p1Ready)
    (h : jzChannelDoClientCallRequest now x msg σ = .ok σ') :
    (∃ as, MessageScript X msg as ∧ (actSystem now x X).Run σ as σ') ∨
      ∃ i lcn, Connects now x X msg i lcn σ σ' := by
  -- All ways to reject the call are punishments.
  have hpunish {cause : ClearCause} {diagnostic : Diag}
      (h : jzChannelDoPunishmentClearRequest now x cause diagnostic σ = .ok σ') :
      ∃ as, MessageScript X msg as ∧ (actSystem now x X).Run σ as σ' :=
    ⟨_, .punishClear _ _ (.inl hs) (by simp [hs, leaves]), punishClear_run hX h⟩
  obtain ⟨C, hC, h⟩ := bind_eq_ok (channel_bind_eq_ok hX h)
  split at h
  · exact .inl (hpunish h)
  rename_i hnone
  obtain ⟨found, hfound, h⟩ := bind_eq_ok h
  cases found with
  | none => exact .inl (hpunish h)
  | some i =>
    obtain ⟨P, hP, h⟩ := bind_eq_ok h
    split at h
    · exact .inl (hpunish h)
    rename_i hopen
    obtain ⟨⟨reserved, σ₁⟩, hreserve, h⟩ := bind_eq_ok h
    cases reserved with
    | none =>
      -- The client has no number left, and the server is unchanged.
      rw [reserveLowChannel_eq_none hreserve] at h
      exact .inl (hpunish h)
    | some y =>
      have hlt := (reserveLowChannel_isSome (client_eq_ok hP) hreserve).1 rfl
      exact .inr ⟨i, _, ⟨⟨C, client_eq_ok hC, hnone⟩, hfound,
        ⟨P, client_eq_ok hP, hopen, rfl, hlt⟩⟩, y, σ₁, hreserve, h⟩

/-- **A call request that is granted** joins two channels. -/
theorem callRequest_granted {i : ℕ} {lcn : UInt16} (hX : σ.heap.get? x = some X)
    (hgrants : Grants σ X msg i lcn) (h : jzChannelDoClientCallRequest now x msg σ = .ok σ') :
    Connects now x X msg i lcn σ σ' := by
  obtain ⟨⟨C, hC, hnone⟩, hfound, P, hP, hopen, hlcn, hlt⟩ := id hgrants
  have h := client_bind_eq_ok hC (channel_bind_eq_ok hX h)
  rw [hnone] at h
  obtain ⟨found, hfound', h⟩ := bind_eq_ok h
  obtain rfl : found = some i := Except.ok.inj (hfound'.symm.trans hfound)
  have h := client_bind_eq_ok hP h
  rw [if_neg hopen] at h
  obtain ⟨⟨reserved, σ₁⟩, hreserve, h⟩ := bind_eq_ok h
  cases reserved with
  | none =>
    have hfree := (reserveLowChannel_isSome hP hreserve).2 (hlcn ▸ hlt)
    cases hfree
  | some y => exact ⟨hgrants, y, σ₁, hreserve, h⟩

/-- **A client's message** plays a script, or it is a call request that joins two channels. -/
theorem processMessage_script (hX : σ.heap.get? x = some X)
    (h : jzChannelProcessMessage now x msg σ = .ok σ') :
    (∃ as, MessageScript X msg as ∧ (actSystem now x X).Run σ (as ++ timerActs X.state) σ') ∨
      (X.state = .p1Ready ∧ msg.id = .callRequest ∧
        ∃ i lcn, Connects now x X msg i lcn σ σ') := by
  obtain ⟨σ₁, h, hdump⟩ := bind_eq_ok h
  obtain ⟨_, -, hdump⟩ := bind_eq_ok hdump
  cases hdump
  have h := channel_bind_eq_ok hX h
  -- A clear request is taken in all states but those that end a call.
  have hclear (hid : msg.id = .clearRequest)
      (hs : X.state ≠ .p6ClientClearRequest ∧ X.state ≠ .p7ServerClearIndication) {τ : Server}
      (h : jzChannelDoClientClearRequest now x msg σ = .ok τ) :
      ∃ as, MessageScript X msg as ∧ (actSystem now x X).Run σ as τ :=
    ⟨_, .clear hid hs, clearRequest_run hX h⟩
  -- In each state the messages of its own have their scripts, and the others are punished or
  -- ignored. Three states have the reset of their timer behind that.
  cases hs : X.state with
  | p1Ready =>
    simp only [hs, timerActs, List.append_nil] at h ⊢
    split at h
    · exact .inl (hclear ‹_› (by simp [hs]) h)
    · obtain hscript | hconnect := callRequest_cases hX hs h
      · exact .inl hscript
      · exact .inr ⟨trivial, ‹_›, hconnect⟩
    · exact .inl ⟨_, .punishClear _ _ (by simp [hs]) (by simp_all [leaves]), punishClear_run hX h⟩
  | p2ClientWaiting =>
    simp only [hs, timerActs, List.append_nil] at h ⊢
    refine .inl ?_
    split at h
    · exact hclear ‹_› (by simp [hs]) h
    · exact ⟨_, .punishClear _ _ (by simp [hs]) (by simp_all [leaves]), punishClear_run hX h⟩
  -- The timer is looked at after the message, in the state that it has led to.
  | p3ServerWaiting =>
    simp only [hs] at h
    obtain ⟨σ₂, h, htimer⟩ := bind_eq_ok h
    obtain ⟨as, hscript, hrun⟩ :
        ∃ as, MessageScript X msg as ∧ (actSystem now x X).Run σ as σ₂ := by
      split at h
      · exact hclear ‹_› (by simp [hs]) h
      · exact ⟨_, .collide ‹_› hs, callCollision_run hX h⟩
      · exact callAccepted_script hX ‹_› hs h
      · exact ⟨_, .punishClear _ _ (by simp [hs]) (by simp_all [leaves]), punishClear_run hX h⟩
    exact .inl ⟨as, hscript, hrun.append (.single htimer)⟩
  | d1FlowControlReady =>
    simp only [hs, timerActs, List.append_nil] at h ⊢
    refine .inl ?_
    split at h
    · exact hclear ‹_› (by simp [hs]) h
    · exact resetRequest_script hX ‹_› hs h
    · exact clientData_script hX ‹_› hs h
    · exact clientReceipt_script hX hs (.rr ‹_› hs) h
    · exact clientReceipt_script hX hs (.rnr ‹_› hs) h
    · exact ⟨_, .punishReset _ _ (.inl hs) (by simp [hs, leaves]), punishReset_run hX h⟩
  | d2ClientResetRequest =>
    simp only [hs, timerActs, List.append_nil] at h ⊢
    refine .inl ?_
    split at h
    · exact hclear ‹_› (by simp [hs]) h
    · cases h
      exact ⟨_, .ignored (by simp_all [leaves]), .nil σ⟩
    · exact ⟨_, .punishReset _ _ (.inr hs) (by simp_all [leaves]), punishReset_run hX h⟩
  | d3ServerResetIndication =>
    simp only [hs] at h
    obtain ⟨σ₂, h, htimer⟩ := bind_eq_ok h
    obtain ⟨as, hscript, hrun⟩ :
        ∃ as, MessageScript X msg as ∧ (actSystem now x X).Run σ as σ₂ := by
      split at h
      · exact hclear ‹_› (by simp [hs]) h
      · exact ⟨_, .confirmReset (.inl ‹_›) hs, resetConfirmation_run hX h⟩
      · exact ⟨_, .confirmReset (.inr ‹_›) hs, resetConfirmation_run hX h⟩
      · cases h
        exact ⟨_, .ignored (by simp_all [leaves]), .nil σ⟩
    exact .inl ⟨as, hscript, hrun.append (.single htimer)⟩
  | p5CallCollision =>
    simp only [hs, timerActs, List.append_nil] at h ⊢
    refine .inl ?_
    split at h
    · exact hclear ‹_› (by simp [hs]) h
    · exact ⟨_, .punishClear _ _ (by simp [hs]) (by simp_all [leaves]), punishClear_run hX h⟩
  | p6ClientClearRequest =>
    simp only [hs, timerActs, List.append_nil] at h ⊢
    refine .inl ?_
    split at h
    · cases h
      exact ⟨_, .ignored (by simp_all [leaves]), .nil σ⟩
    · exact ⟨_, .punishClear _ _ (by simp [hs]) (by simp_all [leaves]), punishClear_run hX h⟩
  | p7ServerClearIndication =>
    simp only [hs] at h
    obtain ⟨σ₂, h, htimer⟩ := bind_eq_ok h
    obtain ⟨as, hscript, hrun⟩ :
        ∃ as, MessageScript X msg as ∧ (actSystem now x X).Run σ as σ₂ := by
      split at h
      · exact ⟨_, .confirmClear (.inl ‹_›) hs, clearConfirmation_run h⟩
      · exact ⟨_, .confirmClear (.inr ‹_›) hs, clearConfirmation_run h⟩
      · cases h
        exact ⟨_, .ignored (by simp_all [leaves]), .nil σ⟩
    exact .inl ⟨as, hscript, hrun.append (.single htimer)⟩

/-! ### Timers and restarts -/

theorem clearExpiration_run (hX : σ.heap.get? x = some X)
    (h : jzChannelDoClearIndicationExpiration now x σ = .ok σ') :
    (X.timerCount = 1 ∧ (actSystem now x X).Run σ
        (punishClearActs X.lcn .localProcedureError .timeExpiredClearRequest) σ') ∨
      (X.timerCount = 2 ∧ (actSystem now x X).Run σ (expireClearActs X.lcn) σ') := by
  have h := channel_bind_eq_ok hX h
  split at h
  · exact .inl ⟨‹_›, punishClear_run hX h⟩
  · obtain ⟨σ₁, h₁, h⟩ := bind_eq_ok h
    obtain ⟨σ₂, h₂, h⟩ := bind_eq_ok h
    exact .inr ⟨‹_›, .cons h₁ (.cons h₂ (.single h))⟩
  · cases h

theorem resetExpiration_run (hX : σ.heap.get? x = some X)
    (h : jzChannelDoResetIndicationExpiration now x σ = .ok σ') :
    (X.timerCount = 1 ∧ (actSystem now x X).Run σ
        (punishResetActs X.lcn .localProcedureError .timeExpiredResetRequest) σ') ∨
      (X.timerCount = 2 ∧ (actSystem now x X).Run σ
        (punishClearActs X.lcn .localProcedureError .timeExpiredResetRequest) σ') := by
  have h := channel_bind_eq_ok hX h
  split at h
  · exact .inl ⟨‹_›, punishReset_run hX h⟩
  · exact .inr ⟨‹_›, punishClear_run hX h⟩
  · cases h

theorem incomingCallExpiration_run (hX : σ.heap.get? x = some X)
    (h : jzChannelDoIncomingCallExpiration now x σ = .ok σ') :
    X.timerCount = 1 ∧ (actSystem now x X).Run σ (.own jzChannelTimerReset ::
        punishClearActs X.lcn .localProcedureError .timeExpiredIncomingCall) σ' := by
  obtain ⟨_, hcount, h⟩ := bind_eq_ok (channel_bind_eq_ok hX h)
  obtain ⟨σ₁, h₁, h⟩ := bind_eq_ok h
  obtain ⟨X₀, hX₀, rfl⟩ := update_eq_ok h₁
  obtain rfl : X = X₀ := Option.some.inj (hX.symm.trans hX₀)
  have hrun := punishClear_run (get_setChannel_self hX) h
  have hsystem : actSystem now x (jzChannelTimerReset X) = actSystem now x X :=
    actSystem_congr rfl rfl
  rw [hsystem] at hrun
  exact ⟨by simpa using eq_true_of_assertThat hcount, .cons h₁ hrun⟩

/-- **An expired timer** plays its script. -/
theorem checkTimers_expired (hX : σ.heap.get? x = some X)
    (hdue : ¬ (X.timerType = .none ∨ X.timerExpirationTime > now))
    (h : jzChannelCheckTimers now x σ = .ok σ') :
    ∃ as, ExpiryScript X as ∧ (actSystem now x X).Run σ as σ' := by
  have h := channel_bind_eq_ok hX h
  rw [if_neg hdue] at h
  obtain ⟨σ₁, h₁, h⟩ := bind_eq_ok h
  obtain ⟨X₀, hX₀, rfl⟩ := update_eq_ok h₁
  obtain rfl : X = X₀ := Option.some.inj (hX.symm.trans hX₀)
  -- The handlers find the channel with the expiration counted.
  have hX₁ := get_setChannel_self (N := { X with timerCount := X.timerCount + 1 }) hX
  have hsystem : actSystem now x { X with timerCount := X.timerCount + 1 } = actSystem now x X :=
    actSystem_congr rfl rfl
  split at h
  · cases h
  · rename_i htimer
    obtain ⟨hcount, hrun⟩ := incomingCallExpiration_run hX₁ h
    rw [hsystem] at hrun
    exact ⟨_, .incomingCall htimer hcount, .cons h₁ hrun⟩
  · rename_i htimer
    obtain ⟨hcount, hrun⟩ | ⟨hcount, hrun⟩ := resetExpiration_run hX₁ h
    · rw [hsystem] at hrun
      exact ⟨_, .firstReset htimer hcount, .cons h₁ hrun⟩
    · rw [hsystem] at hrun
      exact ⟨_, .lastReset htimer hcount, .cons h₁ hrun⟩
  · rename_i htimer
    obtain ⟨hcount, hrun⟩ | ⟨hcount, hrun⟩ := clearExpiration_run hX₁ h
    · rw [hsystem] at hrun
      exact ⟨_, .firstClear htimer hcount, .cons h₁ hrun⟩
    · rw [hsystem] at hrun
      exact ⟨_, .lastClear htimer hcount, .cons h₁ hrun⟩

/-- **A look at the timer** of a channel does nothing, or plays the script of an expired
timer. -/
theorem checkTimers_script (hX : σ.heap.get? x = some X)
    (h : jzChannelCheckTimers now x σ = .ok σ') :
    σ' = σ ∨ ∃ as, ExpiryScript X as ∧ (actSystem now x X).Run σ as σ' := by
  by_cases hdue : X.timerType = .none ∨ X.timerExpirationTime > now
  · have h := channel_bind_eq_ok hX h
    rw [if_pos hdue] at h
    cases h
    exact .inl rfl
  · exact .inr (checkTimers_expired hX hdue h)

/-- **A restart** plays its script. -/
theorem restartChannel_script {cause : ClearCause} {diagnostic : UInt8}
    (hX : σ.heap.get? x = some X) (h : restartChannel cause now x diagnostic σ = .ok σ') :
    (actSystem now x X).Run σ (restartActs cause diagnostic) σ' := by
  obtain ⟨σ₁, h₁, h⟩ := bind_eq_ok (channel_bind_eq_ok hX h)
  obtain ⟨σ₂, h₂, h⟩ := bind_eq_ok h
  obtain ⟨σ₃, h₃, h⟩ := bind_eq_ok h
  exact .cons h₁ (.cons h₂ (.cons h₃ (.single h)))

end

end Application10
end Jozabad
