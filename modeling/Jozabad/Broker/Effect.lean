import Jozabad.Broker.Channel

/-!
# Everything a dispatch can do

The dispatcher has an X and a Y variant of most of its actions. Here a channel is
read from the point of view of the side that sent the message: `selfPs`, `otherPr`
and so on are the counters of that side and of its peer, and `setSelf` writes the
sender's own.

`Effect c sock M isY c' outs` lists the ways in which a dispatch of `M` can turn `c`
into `c'` and send `outs`, each with the circumstances under which it is taken.
`channelDispatch_effect` is the inversion of `channelDispatch`: whatever a dispatch
returns is one of these.
-/

namespace Jozabad
namespace Broker

open JozaMsg

/-! ### A channel from one side -/

namespace Channel

variable (c : Channel) (isY : Bool)

/-- Where the sender is reached. -/
def selfZaddr : Frame := if isY then c.yzaddr else c.xzaddr

/-- Where the sender's peer is reached. -/
def otherZaddr : Frame := if isY then c.xzaddr else c.yzaddr

/-- The number of the next packet that the sender is to send. -/
def selfPs : ℕ := if isY then c.yps else c.xps

/-- The smallest packet number that the sender will accept. -/
def selfPr : ℕ := if isY then c.ypr else c.xpr

/-- The number of the next packet that the peer is to send. -/
def otherPs : ℕ := if isY then c.xps else c.yps

/-- The smallest packet number that the peer will accept. -/
def otherPr : ℕ := if isY then c.xpr else c.ypr

/-- Write the sender's two counters. -/
def setSelf (ps pr : ℕ) : Channel :=
  if isY then { c with yps := ps, ypr := pr } else { c with xps := ps, xpr := pr }

/-- Zero all four counters. -/
def zeroed : Channel :=
  { c with xps := 0, xpr := 0, yps := 0, ypr := 0 }

variable {c isY} {ps pr : ℕ}

@[simp] theorem setSelf_state : (c.setSelf isY ps pr).state = c.state := by
  cases isY <;> rfl

@[simp] theorem setSelf_lcn : (c.setSelf isY ps pr).lcn = c.lcn := by
  cases isY <;> rfl

@[simp] theorem setSelf_window : (c.setSelf isY ps pr).window = c.window := by
  cases isY <;> rfl

@[simp] theorem setSelf_pkt : (c.setSelf isY ps pr).pkt = c.pkt := by
  cases isY <;> rfl

@[simp] theorem setSelf_tput : (c.setSelf isY ps pr).tput = c.tput := by
  cases isY <;> rfl

@[simp] theorem setSelf_xname : (c.setSelf isY ps pr).xname = c.xname := by
  cases isY <;> rfl

@[simp] theorem setSelf_yname : (c.setSelf isY ps pr).yname = c.yname := by
  cases isY <;> rfl

@[simp] theorem setSelf_xzaddr : (c.setSelf isY ps pr).xzaddr = c.xzaddr := by
  cases isY <;> rfl

@[simp] theorem setSelf_yzaddr : (c.setSelf isY ps pr).yzaddr = c.yzaddr := by
  cases isY <;> rfl

@[simp] theorem setSelf_selfPs : (c.setSelf isY ps pr).selfPs isY = ps := by
  cases isY <;> rfl

@[simp] theorem setSelf_selfPr : (c.setSelf isY ps pr).selfPr isY = pr := by
  cases isY <;> rfl

@[simp] theorem setSelf_otherPs : (c.setSelf isY ps pr).otherPs isY = c.otherPs isY := by
  cases isY <;> rfl

@[simp] theorem setSelf_otherPr : (c.setSelf isY ps pr).otherPr isY = c.otherPr isY := by
  cases isY <;> rfl

/-! The counters from the other side. -/

@[simp] theorem selfPs_not : c.selfPs (!isY) = c.otherPs isY := by
  cases isY <;> rfl

@[simp] theorem selfPr_not : c.selfPr (!isY) = c.otherPr isY := by
  cases isY <;> rfl

@[simp] theorem otherPs_not : c.otherPs (!isY) = c.selfPs isY := by
  cases isY <;> rfl

@[simp] theorem otherPr_not : c.otherPr (!isY) = c.selfPr isY := by
  cases isY <;> rfl

end Channel

/-! ### The ways a dispatch can go -/

variable (c : Channel) (sock : Sock) (M : JozaMsg) (isY : Bool)

/-- A `DATA` message that the channel has nothing against: its length, its PS, its
place in the window and its PR. -/
structure DataAdmitted : Prop where
  length_le : ∃ bytes, packetBytes c.pkt = .ok bytes ∧ M.data.length ≤ bytes
  ps_eq : M.ps.toNat = c.selfPs isY
  in_window : seqInRange M.ps.toNat (c.otherPr isY) (windowEnd (c.otherPr isY) c.window) = true
  pr_in_range : seqInRange M.pr.toNat (c.selfPr isY) (c.otherPs isY) = true

/-- A `CALL_ACCEPTED` that the channel has nothing against. -/
structure CallAdmitted : Prop where
  pkt : packetNegotiate M.packet.toNat c.pkt = .ok true
  window : windowNegotiate M.window.toNat c.window = .ok true
  tput : tputNegotiate M.throughput.toNat c.tput = .ok true
  calling : M.callingAddress = c.xname
  called : c.yname.text = some M.calledAddress

/-- **What a dispatch can do** with a message `M` of side `isY`. -/
inductive Effect : Channel → List JozaMsg → Prop
  /-- The message is dropped. -/
  | discard (ha : actionTable c.state M.id.code isY = .discard) : Effect c []
  /-- The broker resets the call. -/
  | reset (ha : actionTable c.state M.id.code isY = .reset)
      (hs : c.state = .dataTransfer ∨ c.state = .xResetRequest ∨ c.state = .yResetRequest) :
      Effect { c with state := .yResetRequest }
        [sendAddrResetRequest (c.selfZaddr isY) .localProcedureError (STATE2DIAG c.state),
         sendAddrResetRequest (c.otherZaddr isY) .remoteProcedureError (STATE2DIAG c.state)]
  /-- The broker clears the call. -/
  | clear (ha : actionTable c.state M.id.code isY = .clear) :
      Effect { c with state := .ready }
        [sendAddrClearRequest (c.selfZaddr isY) .localProcedureError (STATE2DIAG c.state),
         sendAddrClearRequest (c.otherZaddr isY) .remoteProcedureError (STATE2DIAG c.state)]
  /-- The sender leaves, and its peer is told. -/
  | disconnect (hid : M.id = .disconnect) (hsend : sock.sendError = none) :
      Effect { c with state := .ready }
        [sendAddrClearRequest (c.otherZaddr isY) .workerOriginated .workerOriginated]
  /-- The sender leaves, but its peer cannot be told. -/
  | disconnectFailed (hid : M.id = .disconnect) (d : Diag) (hsend : sock.sendError = some d) :
      Effect { c with state := .ready }
        [sendAddrClearRequest (c.otherZaddr isY) .workerOriginated .workerOriginated,
         diagnostic (c.selfZaddr isY) .zmqSendmsgErr d]
  /-- The sender is told that its message is not acceptable. -/
  | refused (C : Cause) (D : Diag) (hs : c.state ≠ .xClearRequest ∧ c.state ≠ .yClearRequest) :
      Effect c [diagnostic (c.selfZaddr isY) C D]
  /-- Y has called X, which is calling Y. -/
  | collision (hy : isY = true) (hid : M.id = .callRequest) (hs : c.state = .xCallRequest) :
      Effect { c with state := .callCollision }
        [diagnostic (c.selfZaddr isY) .callCollision .callCollision]
  /-- Y accepts the call. -/
  | accepted (hy : isY = true) (hid : M.id = .callAccepted)
      (hs : c.state = .xCallRequest ∨ c.state = .callCollision) (hM : CallAdmitted c M) :
      Effect { c with state := .dataTransfer, window := M.window.toNat, pkt := M.packet.toNat,
                      tput := M.throughput.toNat }
        [sendAddrCallAccepted (c.otherZaddr isY) M.callingAddress M.calledAddress M.packet
          M.window M.throughput M.data]
  /-- The sender asks its peer to clear the call. -/
  | clearRequested (hid : M.id = .clearRequest)
      (hs : c.state ≠ .xClearRequest ∧ c.state ≠ .yClearRequest) :
      Effect { c with state := STATE_CLEAR_REQUEST isY }
        [sendAddrClearRequest (c.otherZaddr isY) .workerOriginated .workerOriginated]
  /-- The sender agrees to clear the call. -/
  | clearConfirmed (ha : (actionTable c.state M.id.code isY).closes = true)
      (hs : c.state = STATE_CLEAR_REQUEST !isY) :
      Effect { c.zeroed with state := .ready } [sendAddrClearConfirmation (c.otherZaddr isY)]
  /-- Data is forwarded. -/
  | data (hid : M.id = .data) (hs : c.state = .dataTransfer) (hM : DataAdmitted c M isY) :
      Effect (c.setSelf isY ((c.selfPs isY + 1) % (SEQ_MAX + 1)) M.pr.toNat)
        [sendAddrData (c.otherZaddr isY) M.q M.pr M.ps M.data]
  /-- An acknowledgement is forwarded. -/
  | rr (hid : M.id = .rr) (hs : c.state = .dataTransfer)
      (hpr : seqInRange M.pr.toNat (c.selfPr isY) (c.otherPs isY) = true) :
      Effect (c.setSelf isY (c.selfPs isY) M.pr.toNat) [sendAddrRr (c.otherZaddr isY) M.pr]
  /-- An acknowledgement with the request to stop is forwarded. -/
  | rnr (hid : M.id = .rnr) (hs : c.state = .dataTransfer)
      (hpr : seqInRange M.pr.toNat (c.selfPr isY) (c.otherPs isY) = true) :
      Effect (c.setSelf isY (c.selfPs isY) M.pr.toNat) [sendAddrRnr (c.otherZaddr isY) M.pr]
  /-- The sender asks its peer to reset the call. -/
  | resetRequested (hid : M.id = .resetRequest) (hs : c.state = .dataTransfer) :
      Effect c [sendAddrResetRequest (c.otherZaddr isY) .workerOriginated .workerOriginated]
  /-- The sender agrees to reset the call. -/
  | resetConfirmed (hs : c.state = if isY then .xResetRequest else .yResetRequest) :
      Effect { c.zeroed with state := .dataTransfer }
        [sendAddrResetConfirmation (c.otherZaddr isY)]

/-! ### The list is complete -/

variable {c sock M isY} {c' : Channel} {outs : List JozaMsg}

/-- What the data action can do: refuse, or forward what is admitted. -/
theorem doIData_eq_ok {self other : Frame} {pkt window ps pr ops opr ps' pr' : ℕ}
    (h : doIData self other M pkt window ps pr ops opr = .ok (ps', pr', outs)) :
    (ps' = ps ∧ pr' = pr ∧ ∃ D, outs = [diagnostic self .localProcedureError D]) ∨
      ((∃ bytes, packetBytes pkt = .ok bytes ∧ M.data.length ≤ bytes) ∧ M.ps.toNat = ps ∧
        seqInRange M.ps.toNat opr (windowEnd opr window) = true ∧
        seqInRange M.pr.toNat pr ops = true ∧ ps' = (ps + 1) % (SEQ_MAX + 1) ∧
        pr' = M.pr.toNat ∧ outs = [sendAddrData other M.q M.pr M.ps M.data]) := by
  obtain ⟨bytes, hbytes, h⟩ := bind_eq_ok h
  split_ifs at h with h₁ h₂ h₃ h₄
  · cases h
    exact .inl ⟨rfl, rfl, _, rfl⟩
  · cases h
    exact .inl ⟨rfl, rfl, _, rfl⟩
  · cases h
    exact .inl ⟨rfl, rfl, _, rfl⟩
  · cases h
    exact .inl ⟨rfl, rfl, _, rfl⟩
  · cases h
    refine .inr ⟨⟨bytes, hbytes, not_lt.1 h₁⟩, not_not.1 h₂, ?_, ?_, rfl, rfl, rfl⟩
    · simpa using h₃
    · simpa using h₄

/-- What the call-accepted action can do: refuse, or forward what is admitted. -/
theorem doYCallAccepted_eq_ok {self other : Frame} {selfName otherName : CString} {s s' : State}
    {window pkt tput window' pkt' tput' : ℕ}
    (h : doYCallAccepted self other M selfName otherName s window pkt tput =
      .ok (s', window', pkt', tput', outs)) :
    (s' = s ∧ window' = window ∧ pkt' = pkt ∧ tput' = tput ∧
        ∃ C D, outs = [diagnostic self C D]) ∨
      (packetNegotiate M.packet.toNat pkt = .ok true ∧
        windowNegotiate M.window.toNat window = .ok true ∧
        tputNegotiate M.throughput.toNat tput = .ok true ∧
        M.callingAddress = otherName ∧ M.calledAddress = selfName ∧
        s' = .dataTransfer ∧ window' = M.window.toNat ∧ pkt' = M.packet.toNat ∧
        tput' = M.throughput.toNat ∧
        outs = [sendAddrCallAccepted other M.callingAddress M.calledAddress M.packet M.window
          M.throughput M.data]) := by
  obtain ⟨pktOk, hpkt, h⟩ := bind_eq_ok h
  -- The checks come one after the other, and the first that fails is reported.
  cases pktOk with
  | false =>
    cases h
    exact .inl ⟨rfl, rfl, rfl, rfl, _, _, rfl⟩
  | true =>
    obtain ⟨windowOk, hwindow, h⟩ := bind_eq_ok h
    cases windowOk with
    | false =>
      cases h
      exact .inl ⟨rfl, rfl, rfl, rfl, _, _, rfl⟩
    | true =>
      obtain ⟨tputOk, htput, h⟩ := bind_eq_ok h
      cases tputOk with
      | false =>
        cases h
        exact .inl ⟨rfl, rfl, rfl, rfl, _, _, rfl⟩
      | true =>
        simp only [Bool.not_true, Bool.false_eq_true, if_false] at h
        split_ifs at h with h₁ h₂
        · cases h
          exact .inl ⟨rfl, rfl, rfl, rfl, _, _, rfl⟩
        · cases h
          exact .inl ⟨rfl, rfl, rfl, rfl, _, _, rfl⟩
        · cases h
          exact .inr ⟨hpkt, hwindow, htput, not_not.1 h₁, not_not.1 h₂, rfl, rfl, rfl, rfl, rfl⟩

theorem doIDisconnect_effect (hid : M.id = .disconnect) :
    Effect c sock M isY
      { c with state := (doIDisconnect sock (c.selfZaddr isY) (c.otherZaddr isY)).1 }
      (doIDisconnect sock (c.selfZaddr isY) (c.otherZaddr isY)).2 := by
  unfold doIDisconnect
  cases hsend : sock.sendError with
  | none => exact .disconnect hid hsend
  | some d => exact .disconnectFailed hid d hsend

theorem doIClearRequest_effect (hid : M.id = .clearRequest)
    (hs : c.state ≠ .xClearRequest ∧ c.state ≠ .yClearRequest) :
    Effect c sock M isY
      { c with state := (doIClearRequest (c.selfZaddr isY) (c.otherZaddr isY) M isY c.state).1 }
      (doIClearRequest (c.selfZaddr isY) (c.otherZaddr isY) M isY c.state).2 := by
  unfold doIClearRequest
  split_ifs with h₁ h₂
  · exact .refused _ _ hs
  · exact .refused _ _ hs
  · exact .clearRequested hid hs

theorem doIReset_effect (hid : M.id = .resetRequest) (hs : c.state = .dataTransfer) :
    Effect c sock M isY c (doIReset (c.selfZaddr isY) (c.otherZaddr isY) M) := by
  have hs' : c.state ≠ .xClearRequest ∧ c.state ≠ .yClearRequest := by simp [hs]
  unfold doIReset
  split_ifs with h₁ h₂
  · exact .refused _ _ hs'
  · exact .refused _ _ hs'
  · exact .resetRequested hid hs

/-- Writing back the counters of a side changes nothing. -/
theorem Channel.setSelf_self : c.setSelf isY (c.selfPs isY) (c.selfPr isY) = c := by
  cases isY <;> rfl

theorem doIRr_effect (hid : M.id = .rr) (hs : c.state = .dataTransfer) :
    Effect c sock M isY
      (c.setSelf isY (c.selfPs isY)
        (doIRr (c.selfZaddr isY) (c.otherZaddr isY) M (c.selfPr isY) (c.otherPs isY)).1)
      (doIRr (c.selfZaddr isY) (c.otherZaddr isY) M (c.selfPr isY) (c.otherPs isY)).2 := by
  unfold doIRr
  split_ifs with h
  · rw [Channel.setSelf_self]
    exact .refused _ _ (by simp [hs])
  · exact .rr hid hs (by simpa using h)

theorem doIRnr_effect (hid : M.id = .rnr) (hs : c.state = .dataTransfer) :
    Effect c sock M isY
      (c.setSelf isY (c.selfPs isY)
        (doIRnr (c.selfZaddr isY) (c.otherZaddr isY) M (c.selfPr isY) (c.otherPs isY)).1)
      (doIRnr (c.selfZaddr isY) (c.otherZaddr isY) M (c.selfPr isY) (c.otherPs isY)).2 := by
  unfold doIRnr
  split_ifs with h
  · rw [Channel.setSelf_self]
    exact .refused _ _ (by simp [hs])
  · exact .rnr hid hs (by simpa using h)

theorem doIData_effect {ps pr : ℕ} (hid : M.id = .data) (hs : c.state = .dataTransfer)
    (h : doIData (c.selfZaddr isY) (c.otherZaddr isY) M c.pkt c.window (c.selfPs isY)
      (c.selfPr isY) (c.otherPs isY) (c.otherPr isY) = .ok (ps, pr, outs)) :
    Effect c sock M isY (c.setSelf isY ps pr) outs := by
  rcases doIData_eq_ok h with ⟨rfl, rfl, D, rfl⟩ | ⟨hlen, hps, hwin, hpr, rfl, rfl, rfl⟩
  · rw [Channel.setSelf_self]
    exact .refused _ _ (by simp [hs])
  · exact .data hid hs ⟨hlen, hps, hwin, hpr⟩

theorem doYCallAccepted_effect {yname : CString} {s' : State} {window pkt tput : ℕ}
    (hy : isY = true) (hid : M.id = .callAccepted)
    (hs : c.state = .xCallRequest ∨ c.state = .callCollision) (hname : c.yname.text = some yname)
    (h : doYCallAccepted (c.selfZaddr isY) (c.otherZaddr isY) M yname c.xname c.state c.window
      c.pkt c.tput = .ok (s', window, pkt, tput, outs)) :
    Effect c sock M isY { c with state := s', window, pkt, tput } outs := by
  rcases doYCallAccepted_eq_ok h with ⟨rfl, rfl, rfl, rfl, C, D, rfl⟩ |
    ⟨hpkt, hwindow, htput, hcalling, hcalled, rfl, rfl, rfl, rfl, rfl⟩
  · exact .refused _ _ (by rcases hs with hs | hs <;> simp [hs])
  · exact .accepted hy hid hs ⟨hpkt, hwindow, htput, hcalling, by rw [hname, hcalled]⟩

theorem NamePtr.read_eq_ok {p : NamePtr} {s : CString} (h : p.read = .ok s) : p.text = some s := by
  unfold NamePtr.read at h
  cases hp : p.text with
  | none => rw [hp] at h; cases h
  | some t => rw [hp] at h; cases h; rfl

/-- **Inversion of the dispatcher.** -/
theorem channelDispatch_effect (h : channelDispatch c sock M isY = .ok (c', outs)) :
    Effect c sock M isY c' outs := by
  obtain ⟨a, ha, h⟩ := bind_eq_ok h
  obtain ⟨yname, hname, h⟩ := bind_eq_ok h
  have hfit := actionGet_fits ha
  have hcell := (actionGet_eq_ok ha).2
  -- A cell of the table fixes the side, the message and the state that it is for.
  cases a <;> simp only [actionFits, decide_eq_true_eq, Bool.false_eq_true] at hfit
  -- The dispatcher has no code for a call request: it asserts.
  case unspecified | xCallRequest | yCallRequest => cases h
  case discard =>
    cases h
    exact .discard hcell
  case reset =>
    cases h
    cases isY <;> exact .reset hcell hfit
  case clear =>
    cases h
    cases isY <;> exact .clear hcell
  case xDisconnect | yDisconnect =>
    obtain ⟨rfl, hid⟩ := hfit
    cases h
    exact doIDisconnect_effect hid
  case xClearRequest | yClearRequest =>
    obtain ⟨rfl, hid, hs⟩ := hfit
    cases h
    exact doIClearRequest_effect hid hs
  case xClearConfirmation | yClearConfirmation =>
    obtain ⟨rfl, hs⟩ := hfit
    cases h
    exact .clearConfirmed (by rw [hcell]; rfl) hs
  case xData | yData =>
    obtain ⟨rfl, hid, hs⟩ := hfit
    obtain ⟨⟨ps, pr, outs'⟩, hdata, h⟩ := bind_eq_ok h
    cases h
    exact doIData_effect hid hs hdata
  case xRr | yRr =>
    obtain ⟨rfl, hid, hs⟩ := hfit
    cases h
    exact doIRr_effect hid hs
  case xRnr | yRnr =>
    obtain ⟨rfl, hid, hs⟩ := hfit
    cases h
    exact doIRnr_effect hid hs
  case xReset | yReset =>
    obtain ⟨rfl, hid, hs⟩ := hfit
    cases h
    exact doIReset_effect hid hs
  case xResetConfirmation | yResetConfirmation =>
    obtain ⟨rfl, hs⟩ := hfit
    cases h
    exact .resetConfirmed hs
  case yCallAccepted =>
    obtain ⟨rfl, hid, hs⟩ := hfit
    obtain ⟨⟨s', window, pkt, tput, outs'⟩, haccept, h⟩ := bind_eq_ok h
    cases h
    exact doYCallAccepted_effect rfl hid hs (NamePtr.read_eq_ok hname) haccept
  case yCallCollision =>
    obtain ⟨rfl, hid, hs⟩ := hfit
    cases h
    exact .collision rfl hid hs

/-- A dispatch closes an open channel only by an action that is meant to. -/
theorem Effect.closes (h : Effect c sock M isY c' outs) (hopen : c.state ≠ .ready)
    (hclosed : c'.state = .ready) : (actionTable c.state M.id.code isY).closes = true := by
  cases h with
  | clear ha =>
    rw [ha]
    rfl
  | disconnect hid | disconnectFailed hid =>
    rw [hid]
    exact actionTable_disconnect c.state isY
  | clearConfirmed ha => exact ha
  | discard | refused | resetRequested => exact absurd hclosed hopen
  | data | rr | rnr =>
    rw [Channel.setSelf_state] at hclosed
    exact absurd hclosed hopen
  | clearRequested => cases isY <;> cases hclosed
  | reset | collision | accepted | resetConfirmed => cases hclosed

/-! ### What a dispatch leaves alone -/

/-- Two states of the channel of one call: its number, its parties and their addresses
are the same. -/
structure SameCall (c c' : Channel) : Prop where
  lcn : c'.lcn = c.lcn
  xzaddr : c'.xzaddr = c.xzaddr
  yzaddr : c'.yzaddr = c.yzaddr
  xname : c'.xname = c.xname
  yname : c'.yname = c.yname

theorem SameCall.refl (c : Channel) : SameCall c c :=
  ⟨rfl, rfl, rfl, rfl, rfl⟩

theorem SameCall.trans {c'' : Channel} (h : SameCall c c') (h' : SameCall c' c'') :
    SameCall c c'' :=
  ⟨h'.lcn.trans h.lcn, h'.xzaddr.trans h.xzaddr, h'.yzaddr.trans h.yzaddr,
    h'.xname.trans h.xname, h'.yname.trans h.yname⟩

theorem SameCall.selfZaddr (h : SameCall c c') : c'.selfZaddr isY = c.selfZaddr isY := by
  cases isY
  · exact h.xzaddr
  · exact h.yzaddr

theorem SameCall.otherZaddr (h : SameCall c c') : c'.otherZaddr isY = c.otherZaddr isY := by
  cases isY
  · exact h.yzaddr
  · exact h.xzaddr

theorem Effect.sameCall (h : Effect c sock M isY c' outs) : SameCall c c' := by
  cases h <;> exact ⟨by simp [Channel.zeroed], by simp [Channel.zeroed], by simp [Channel.zeroed],
    by simp [Channel.zeroed], by simp [Channel.zeroed]⟩

/-- In data transfer, `DATA` goes to the data action. -/
theorem channelDispatch_data (hs : c.state = .dataTransfer) (hid : M.id = .data) :
    channelDispatch c sock M isY = (do
      let _ ← c.yname.read
      let (ps, pr, outs) ← doIData (c.selfZaddr isY) (c.otherZaddr isY) M c.pkt c.window
        (c.selfPs isY) (c.selfPr isY) (c.otherPs isY) (c.otherPr isY)
      return (c.setSelf isY ps pr, outs)) := by
  have hcell : actionGet c.state M.id isY = .ok (if isY then .yData else .xData) := by
    rw [hs, hid]
    cases isY <;> rfl
  unfold channelDispatch
  rw [hcell]
  cases isY <;> rfl

/-! ### Reading a cell forwards

The dispatches of the actions that do not look at the message, and of those of a
reset. -/

section Cells

variable {yname : CString}

/-- A dispatch that returns has found its action, and has followed both names. -/
theorem channelDispatch_named (h : channelDispatch c sock M isY = .ok (c', outs)) :
    M.id.code < ACTION_MESSAGE_COUNT ∧ ∃ yname, c.yname.text = some yname := by
  obtain ⟨_, ha, h⟩ := bind_eq_ok h
  obtain ⟨yname, hname, _⟩ := bind_eq_ok h
  exact ⟨(actionGet_eq_ok ha).1, yname, NamePtr.read_eq_ok hname⟩

theorem NamePtr.read_ok {p : NamePtr} (h : p.text = some yname) : p.read = .ok yname := by
  unfold NamePtr.read
  rw [h]

theorem channelDispatch_discard (hid : M.id.code < ACTION_MESSAGE_COUNT)
    (hname : c.yname.text = some yname) (ha : actionTable c.state M.id.code isY = .discard) :
    channelDispatch c sock M isY = .ok (c, []) := by
  unfold channelDispatch
  rw [actionGet_ok hid, ha, NamePtr.read_ok hname]
  rfl

theorem channelDispatch_reset (hid : M.id.code < ACTION_MESSAGE_COUNT)
    (hname : c.yname.text = some yname) (ha : actionTable c.state M.id.code isY = .reset) :
    channelDispatch c sock M isY = .ok ({ c with state := .yResetRequest },
      [sendAddrResetRequest (c.selfZaddr isY) .localProcedureError (STATE2DIAG c.state),
       sendAddrResetRequest (c.otherZaddr isY) .remoteProcedureError (STATE2DIAG c.state)]) := by
  unfold channelDispatch
  rw [actionGet_ok hid, ha, NamePtr.read_ok hname]
  cases isY <;> rfl

theorem channelDispatch_clear (hid : M.id.code < ACTION_MESSAGE_COUNT)
    (hname : c.yname.text = some yname) (ha : actionTable c.state M.id.code isY = .clear) :
    channelDispatch c sock M isY = .ok ({ c with state := .ready },
      [sendAddrClearRequest (c.selfZaddr isY) .localProcedureError (STATE2DIAG c.state),
       sendAddrClearRequest (c.otherZaddr isY) .remoteProcedureError (STATE2DIAG c.state)]) := by
  unfold channelDispatch
  rw [actionGet_ok hid, ha, NamePtr.read_ok hname]
  cases isY <;> rfl

theorem channelDispatch_unspecified (hid : M.id.code < ACTION_MESSAGE_COUNT)
    (hname : c.yname.text = some yname) (ha : actionTable c.state M.id.code isY = .unspecified) :
    channelDispatch c sock M isY = .error .aborted := by
  unfold channelDispatch
  rw [actionGet_ok hid, ha, NamePtr.read_ok hname]
  rfl

/-- In data transfer, `RESET_REQUEST` goes to the reset action, which leaves the channel
as it is. -/
theorem channelDispatch_resetRequest (hname : c.yname.text = some yname)
    (hs : c.state = .dataTransfer) (hid : M.id = .resetRequest) :
    channelDispatch c sock M isY =
      .ok (c, doIReset (c.selfZaddr isY) (c.otherZaddr isY) M) := by
  have hcell : actionGet c.state M.id isY = .ok (if isY then .yReset else .xReset) := by
    rw [hs, hid]
    cases isY <;> rfl
  unfold channelDispatch
  rw [hcell, NamePtr.read_ok hname]
  cases isY <;> rfl

/-- While the channel waits for X, both kinds of answer from X confirm the reset. -/
theorem channelDispatch_resetConfirmation (hname : c.yname.text = some yname)
    (hs : c.state = .yResetRequest) (hid : M.id = .resetConfirmation ∨ M.id = .resetRequest) :
    channelDispatch c sock M false =
      .ok ({ c.zeroed with state := .dataTransfer },
        [sendAddrResetConfirmation (c.otherZaddr false)]) := by
  have hcell : actionGet c.state M.id false = .ok .xResetConfirmation := by
    rw [hs]
    rcases hid with hid | hid <;> rw [hid] <;> rfl
  unfold channelDispatch
  rw [hcell, NamePtr.read_ok hname]
  rfl

end Cells

/-- A dispatch sends no `CALL_REQUEST`, which is sent when the call is placed, and no
`DIRECTORY`, which is not sent on a call. -/
theorem Effect.id_ne (h : Effect c sock M isY c' outs) :
    ∀ o ∈ outs, o.id ≠ .callRequest ∧ o.id ≠ .directory := by
  intro o ho
  cases h with
  | discard => cases ho
  | reset | clear | disconnectFailed =>
    rcases List.mem_pair.1 ho with rfl | rfl <;> simp [sendAddrResetRequest, sendAddrClearRequest,
      diagnostic]
  | disconnect | refused | collision | accepted | clearRequested | clearConfirmed | data | rr | rnr
      | resetRequested | resetConfirmed =>
    obtain rfl := List.mem_singleton.1 ho
    simp [sendAddrResetRequest, sendAddrClearRequest, sendAddrCallAccepted,
      sendAddrClearConfirmation, sendAddrResetConfirmation, sendAddrData, sendAddrRr, sendAddrRnr,
      diagnostic]

end Broker
end Jozabad
