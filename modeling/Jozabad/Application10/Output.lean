import Jozabad.Application10.Damage
import Jozabad.Application10.Inbox
import Jozabad.Application10.Input
import Jozabad.Application10.Steps

/-!
# What the server sends can be received (`msg.c`, `channel.c`, `client.c`)

The server passes on addresses, facilities and data as they came in, and puts messages of its
own between them. All of these are messages that a receiver takes as they are
(`JzMsg.Sendable`): they can be encoded, their encodings fit into the receive buffer, their
numbers are in range, and decoding gives the same message again.

What comes in is such a message, but for its type (`JzMsg.Regular`). From there the property
goes through the handlers: a message from the server to a channel (`ServerEffect.sendable`), the
scripts of the handlers (`Act.Proper`), tasks, and what is sent to a client as such.
-/

namespace Jozabad
namespace Application10

open Reader

/-! ### Messages -/

/-- A message that a receiver takes as it is. -/
structure JzMsg.Regular (m : JzMsg) : Prop where
  spelled : m.Spelled
  receivable : m.Receivable
  whole : m.received = m

/-- A regular message of a type that the encoder supports. -/
structure JzMsg.Sendable (m : JzMsg) : Prop extends JzMsg.Regular m where
  encodable : m.Encodable

section

variable {m msg : JzMsg} {n : ℕ} {lcn : UInt16}

/-- A message without addresses and without data. -/
theorem sendable_of_short (hsize : frameSize m = .ok n) (hn : n ≤ 1000)
    (hversion : m.version = JZ_MSG_VERSION) (hlcn : m.lcn.toNat ≤ JZ_MSG_MAX_LCN)
    (hcalling : m.callingAddress = none) (hcalled : m.calledAddress = none)
    (hwhole : m.received = m) : m.Sendable where
  spelled := by
    refine ⟨hversion, fun s hs => ?_, fun s hs => ?_⟩
    · rw [hcalling] at hs
      cases hs
    · rw [hcalled] at hs
      cases hs
  receivable := by
    refine ⟨?_, hlcn⟩
    rw [bodySize_eq hsize]
    exact le_trans (envelopeSize_mono hn) (by decide)
  whole := hwhole
  encodable := by rw [JzMsg.Encodable, bodySize_eq hsize, hsize]

theorem sendable_clearRequest {cause diagnostic : UInt8} (h : lcn.toNat ≤ JZ_MSG_MAX_LCN) :
    (jzMsgNewClearRequest lcn cause diagnostic).Sendable :=
  sendable_of_short rfl (by decide) rfl h rfl rfl rfl

theorem sendable_clearConfirmation (h : lcn.toNat ≤ JZ_MSG_MAX_LCN) :
    (jzMsgNewClearConfirmation lcn).Sendable :=
  sendable_of_short rfl (by decide) rfl h rfl rfl rfl

theorem sendable_resetRequest {cause diagnostic : UInt8} (h : lcn.toNat ≤ JZ_MSG_MAX_LCN) :
    (jzMsgNewResetRequest lcn cause diagnostic).Sendable :=
  sendable_of_short rfl (by decide) rfl h rfl rfl rfl

theorem sendable_resetConfirmation (h : lcn.toNat ≤ JZ_MSG_MAX_LCN) :
    (jzMsgNewResetConfirmation lcn).Sendable :=
  sendable_of_short rfl (by decide) rfl h rfl rfl rfl

theorem sendable_rr {pr : UInt16} (h : lcn.toNat ≤ JZ_MSG_MAX_LCN) :
    (jzMsgNewRr lcn pr).Sendable :=
  sendable_of_short rfl (by decide) rfl h rfl rfl rfl

theorem sendable_rnr {pr : UInt16} (h : lcn.toNat ≤ JZ_MSG_MAX_LCN) :
    (jzMsgNewRnr lcn pr).Sendable :=
  sendable_of_short rfl (by decide) rfl h rfl rfl rfl

theorem sendable_diagnostic {diagnostic version id : UInt8} :
    (jzMsgNewDiagnostic diagnostic version id lcn).Sendable :=
  sendable_of_short rfl (by decide) rfl (Nat.zero_le _) rfl rfl rfl

theorem sendable_restartRequest {cause diagnostic : UInt8} :
    (jzMsgNewRestartRequest cause diagnostic).Sendable :=
  sendable_of_short rfl (by decide) rfl (Nat.zero_le _) rfl rfl rfl

/-- A message that has the addresses and the data of a regular one. -/
theorem JzMsg.Regular.sendable_of (h : msg.Regular) (hmsg : frameSize msg = .ok n)
    (hsize : frameSize m = .ok n) (hversion : m.version = JZ_MSG_VERSION)
    (hlcn : m.lcn.toNat ≤ JZ_MSG_MAX_LCN)
    (hcalling : m.callingAddress = msg.callingAddress ∨ m.callingAddress = none)
    (hcalled : m.calledAddress = msg.calledAddress ∨ m.calledAddress = none)
    (hwhole : m.received = m) : m.Sendable where
  spelled := by
    refine ⟨hversion, fun s hs => ?_, fun s hs => ?_⟩
    · obtain heq | hnone := hcalling
      · exact h.spelled.calling s (heq ▸ hs)
      · rw [hnone] at hs
        cases hs
    · obtain heq | hnone := hcalled
      · exact h.spelled.called s (heq ▸ hs)
      · rw [hnone] at hs
        cases hs
  receivable := by
    refine ⟨?_, hlcn⟩
    rw [bodySize_eq hsize, ← bodySize_eq hmsg]
    exact h.receivable.size
  whole := hwhole
  encodable := by rw [JzMsg.Encodable, bodySize_eq hsize, hsize]

/-- The addresses of a call are there. -/
theorem JzMsg.Regular.addresses (h : msg.Regular)
    (hid : msg.id = .callRequest ∨ msg.id = .callAccepted) :
    some (msg.callingAddress.getD .empty) = msg.callingAddress ∧
      some (msg.calledAddress.getD .empty) = msg.calledAddress := by
  have hcalling := congrArg JzMsg.callingAddress h.whole
  have hcalled := congrArg JzMsg.calledAddress h.whole
  unfold JzMsg.received at hcalling hcalled
  obtain hid | hid := hid
  · rw [hid] at hcalling hcalled
    exact ⟨hcalling, hcalled⟩
  · rw [hid] at hcalling hcalled
    exact ⟨hcalling, hcalled⟩

theorem JzMsg.Regular.callRequest (h : msg.Regular) (hid : msg.id = .callRequest)
    (hlcn : lcn.toNat ≤ JZ_MSG_MAX_LCN) :
    (jzMsgNewCallRequest lcn msg.callingAddress msg.calledAddress msg.packet msg.window
      msg.throughput msg.data).Sendable := by
  obtain ⟨hcalling, hcalled⟩ := h.addresses (.inl hid)
  refine h.sendable_of ?_ rfl rfl hlcn (.inl rfl) (.inl rfl) ?_
  · rw [frameSize, hid]
    rfl
  · unfold JzMsg.received jzMsgNewCallRequest
    simp only [hcalling, hcalled]

theorem JzMsg.Regular.callAccepted (h : msg.Regular) (hid : msg.id = .callAccepted)
    (hlcn : lcn.toNat ≤ JZ_MSG_MAX_LCN) :
    (jzMsgNewCallAccepted lcn msg.callingAddress msg.calledAddress msg.packet msg.window
      msg.throughput msg.data).Sendable := by
  obtain ⟨hcalling, hcalled⟩ := h.addresses (.inr hid)
  refine h.sendable_of ?_ rfl rfl hlcn (.inl rfl) (.inl rfl) ?_
  · rw [frameSize, hid]
    rfl
  · unfold JzMsg.received jzMsgNewCallAccepted
    simp only [hcalling, hcalled]

theorem JzMsg.Regular.data (h : msg.Regular) (hid : msg.id = .data)
    (hlcn : lcn.toNat ≤ JZ_MSG_MAX_LCN) :
    (jzMsgNewData lcn msg.q msg.pr msg.ps msg.data).Sendable := by
  refine h.sendable_of ?_ rfl rfl hlcn (.inr rfl) (.inr rfl) rfl
  rw [frameSize, hid]
  rfl

end

/-! ### Scripts -/

/-- The number of the channel is one that a receiver takes. -/
def JzChannel.Assignable (X : JzChannel) : Prop :=
  X.lcn.toNat ≤ JZ_MSG_MAX_LCN

/-- The act gives regular messages to the channels, and sends what can be sent. -/
def Act.Proper : Act → Prop
  | .self msg => msg.Regular
  | .tell f => ∀ Y : JzChannel, Y.Assignable → (f Y).Regular
  | .notify msg => msg.Sendable
  | .own _ | .other _ => True

/-- The number of the peer is in range, and what the two have sent can be sent. -/
structure Duo.Sound (d : Duo) : Prop where
  other : ∀ Y, d.other = some Y → Y.Assignable
  sent : ∀ s ∈ d.sent, s.msg.Sendable

section

variable {now x : ℕ} {X X' Y : JzChannel} {msg : JzMsg} {out : Option JzMsg} {d d' : Duo} {a : Act}
  {as : List Act}

theorem JzChannel.Assignable.keeps (h : X.Assignable) (hkeeps : X.Keeps X') : X'.Assignable := by
  have hlcn : X'.lcn = X.lcn := congrArg Prod.snd hkeeps.owner
  rw [JzChannel.Assignable, hlcn]
  exact h

/-- **What goes to the client** for a message from the server. -/
theorem ServerEffect.sendable (h : ServerEffect now X msg X' out) (hmsg : msg.Regular) :
    ∀ m, out = some m → m.Sendable := by
  have hlcn := hmsg.receivable.lcn
  rintro m rfl
  cases h with
  | clear => exact sendable_clearRequest hlcn
  | incomingCall hid => exact hmsg.callRequest hid hlcn
  | connected hid => exact hmsg.callAccepted hid hlcn
  | confirmClear => exact sendable_clearConfirmation hlcn
  | reset => exact sendable_resetRequest hlcn
  | confirmReset => exact sendable_resetConfirmation hlcn
  | data hid => exact hmsg.data hid hlcn
  | rr => exact sendable_rr hlcn
  | rnr => exact sendable_rnr hlcn

namespace Duo.Sound

/-- The message that comes out of a channel is sent. -/
theorem post {z : ℕ} {Z : JzChannel} (h : d.Sound) (hout : ∀ m, out = some m → m.Sendable) :
    ∀ s ∈ d.sent ++ Application10.post Z z out, s.msg.Sendable :=
  List.forall_mem_append.2 ⟨h.sent, fun _ hs => hout _ (mem_post hs).2.2⟩

theorem act (h : d.Sound) (htame : a.Tame) (hproper : a.Proper)
    (hstep : (duoSystem now x X).Step d a d') : d'.Sound := by
  cases a with
  | own f =>
    obtain rfl := step_own.1 hstep
    exact ⟨h.other, h.sent⟩
  | other f =>
    obtain rfl := step_other.1 hstep
    refine ⟨fun Y hY => ?_, h.sent⟩
    obtain ⟨Y₀, hY₀, rfl⟩ := Option.map_eq_some_iff.1 hY
    exact (h.other Y₀ hY₀).keeps (htame Y₀)
  | self msg =>
    obtain ⟨X', out, heff, rfl⟩ := step_self hstep
    exact ⟨h.other, h.post (heff.sendable hproper)⟩
  | tell f =>
    obtain rfl | ⟨y, Y, Y', out, -, hother, heff, rfl⟩ := step_tell_cases hstep
    · exact h
    · have hY : Y.Assignable := h.other Y hother
      refine ⟨fun Y₁ hY₁ => ?_, h.post (heff.sendable (hproper Y hY))⟩
      obtain rfl := Option.some.inj hY₁
      exact hY.keeps heff.keeps
  | notify msg =>
    obtain rfl := step_notify.1 hstep
    exact ⟨h.other, List.forall_mem_append.2 ⟨h.sent, List.forall_mem_singleton.2 hproper⟩⟩

theorem run (h : d.Sound) (htame : ∀ a ∈ as, a.Tame) (hproper : ∀ a ∈ as, a.Proper)
    (hrun : (duoSystem now x X).Run d as d') : d'.Sound := by
  induction hrun with
  | nil => exact h
  | cons hstep _ ih =>
    rw [List.forall_mem_cons] at htame hproper
    exact ih (h.act htame.1 hproper.1 hstep) htame.2 hproper.2

end Duo.Sound

theorem proper_punishClear {lcn : UInt16} {cause : ClearCause} {diagnostic : Diag}
    (h : lcn.toNat ≤ JZ_MSG_MAX_LCN) : ∀ a ∈ punishClearActs lcn cause diagnostic, a.Proper :=
  List.forall_mem_cons.2 ⟨(sendable_clearRequest h).toRegular, List.forall_mem_cons.2 ⟨trivial,
    List.forall_mem_singleton.2 fun _ hY => (sendable_clearRequest hY).toRegular⟩⟩

theorem proper_punishReset {lcn : UInt16} {cause : ResetCause} {diagnostic : Diag}
    (h : lcn.toNat ≤ JZ_MSG_MAX_LCN) : ∀ a ∈ punishResetActs lcn cause diagnostic, a.Proper :=
  List.forall_mem_cons.2 ⟨(sendable_resetRequest h).toRegular,
    List.forall_mem_singleton.2 fun _ hY => (sendable_resetRequest hY).toRegular⟩

theorem proper_timerActs (s : ChannelState) : ∀ a ∈ timerActs s, a.Proper := by
  cases s with
  | p3ServerWaiting | d3ServerResetIndication | p7ServerClearIndication =>
    exact List.forall_mem_singleton.2 trivial
  | p1Ready | p2ClientWaiting | p5CallCollision | p6ClientClearRequest | d1FlowControlReady
    | d2ClientResetRequest => exact List.forall_mem_nil _

/-- **The scripts of a regular message** are proper. -/
theorem MessageScript.proper (h : MessageScript X msg as) (hX : X.Assignable) (hmsg : msg.Regular) :
    ∀ a ∈ as ++ timerActs X.state, a.Proper := by
  refine List.forall_mem_append.2 ⟨?_, proper_timerActs X.state⟩
  have hlcn := hmsg.receivable.lcn
  cases h with
  | ignored => exact List.forall_mem_nil _
  | clear =>
    exact List.forall_mem_cons.2 ⟨fun _ hY => (sendable_clearRequest hY).toRegular,
      List.forall_mem_singleton.2 trivial⟩
  | punishClear => exact proper_punishClear hX
  | punishReset => exact proper_punishReset hX
  | accept hid =>
    exact List.forall_mem_cons.2 ⟨trivial, List.forall_mem_cons.2
      ⟨fun _ hY => (hmsg.callAccepted hid hY).toRegular, List.forall_mem_singleton.2 trivial⟩⟩
  | collide hid =>
    exact List.forall_mem_cons.2 ⟨trivial, List.forall_mem_cons.2
      ⟨fun _ hY => (hmsg.callRequest hid hY).toRegular, List.forall_mem_singleton.2 trivial⟩⟩
  | confirmClear => exact List.forall_mem_singleton.2 trivial
  | reset =>
    exact List.forall_mem_cons.2 ⟨trivial,
      List.forall_mem_singleton.2 fun _ hY => (sendable_resetRequest hY).toRegular⟩
  | confirmReset =>
    exact List.forall_mem_cons.2 ⟨trivial,
      List.forall_mem_singleton.2 fun _ hY => (sendable_resetConfirmation hY).toRegular⟩
  | data hid =>
    exact List.forall_mem_cons.2 ⟨trivial,
      List.forall_mem_singleton.2 fun _ hY => (hmsg.data hid hY).toRegular⟩
  -- An acknowledgement keeps the number that it came in with.
  | rr =>
    exact List.forall_mem_cons.2 ⟨trivial,
      List.forall_mem_singleton.2 fun _ _ => (sendable_rr hlcn).toRegular⟩
  | rnr =>
    exact List.forall_mem_cons.2 ⟨trivial,
      List.forall_mem_singleton.2 fun _ _ => (sendable_rnr hlcn).toRegular⟩

theorem ExpiryScript.proper (h : ExpiryScript X as) (hX : X.Assignable) : ∀ a ∈ as, a.Proper := by
  cases h with
  | incomingCall =>
    exact List.forall_mem_cons.2 ⟨trivial, List.forall_mem_cons.2 ⟨trivial, proper_punishClear hX⟩⟩
  | firstReset => exact List.forall_mem_cons.2 ⟨trivial, proper_punishReset hX⟩
  | lastReset | firstClear => exact List.forall_mem_cons.2 ⟨trivial, proper_punishClear hX⟩
  | lastClear =>
    exact List.forall_mem_cons.2 ⟨trivial, List.forall_mem_cons.2 ⟨trivial, List.forall_mem_cons.2
      ⟨trivial, List.forall_mem_singleton.2 sendable_diagnostic⟩⟩⟩

theorem proper_restartActs {cause : ClearCause} {diagnostic : UInt8} :
    ∀ a ∈ restartActs cause diagnostic, a.Proper :=
  List.forall_mem_cons.2 ⟨trivial, List.forall_mem_cons.2 ⟨trivial, List.forall_mem_cons.2
    ⟨fun _ hY => (sendable_clearRequest hY).toRegular, List.forall_mem_singleton.2 trivial⟩⟩⟩

end

/-! ### The server -/

/-- The tables are in order, the numbers of all channels are in range, and what has been sent
can be sent. -/
structure Server.Sound (σ : Server) : Prop where
  registered : σ.Registered
  numbered : σ.Every JzChannel.Assignable
  sent : ∀ s ∈ σ.sent, s.msg.Sendable

section

variable {σ σ₁ σ' : Server} {now x i : ℕ} {lcn : UInt16} {X : JzChannel} {C : JzClient}
  {msg : JzMsg} {as : List Act} {e : Event}

namespace Server.Sound

theorem start : Sound {} :=
  ⟨.start, fun _ _ h => (nomatch h), List.forall_mem_nil _⟩

theorem cleared (h : σ.Sound) : ({ σ with sent := [] } : Server).Sound :=
  ⟨h.registered.cleared, h.numbered, List.forall_mem_nil _⟩

/-- **A proper script.** -/
theorem plays (h : σ.Sound) (hplays : Plays now x X as σ σ') (hproper : ∀ a ∈ as, a.Proper) :
    σ'.Sound := by
  obtain ⟨d, hd, hshows⟩ := hplays.shows
  have hstart : (σ.duo X).Sound := by
    refine ⟨fun Y hY => ?_, List.forall_mem_nil _⟩
    obtain ⟨y, -, hY⟩ := Option.bind_eq_some_iff.1 hY
    exact h.numbered y Y hY
  have hsound := hstart.run hplays.tame hproper hd
  refine ⟨hplays.registered h.registered, fun z Z hZ => ?_, ?_⟩
  · -- The channels keep their owners.
    have howner := hplays.touches.owner z
    rw [hZ, Option.map_some] at howner
    obtain ⟨Z₀, hZ₀, heq⟩ := Option.map_eq_some_iff.1 howner.symm
    have hlcn : Z.lcn = Z₀.lcn := (congrArg Prod.snd heq).symm
    rw [JzChannel.Assignable, hlcn]
    exact h.numbered z Z₀ hZ₀
  · rw [hshows.sent]
    exact List.forall_mem_append.2 ⟨h.sent, hsound.sent⟩

theorem opens (h : σ.Sound) (hopen : Opens i lcn σ σ') (hlcn : lcn.toNat ≤ JZ_MSG_MAX_LCN) :
    σ'.Sound :=
  ⟨h.registered.opens hopen, hopen.every hlcn h.numbered, hopen.sent ▸ h.sent⟩

/-- A call goes to a number that is lower than the largest one. -/
theorem calls (h : σ.Sound) (hX : σ.heap.get? x = some X) (hid : msg.id = .callRequest)
    (hmsg : msg.Regular) (hcalls : Calls now x msg i lcn σ σ')
    (hlcn : lcn.toNat ≤ JZ_MSG_MAX_LCN) : σ'.Sound := by
  refine ⟨h.registered.calls hcalls hX, hcalls.every hX (h.numbered x X hX) hlcn h.numbered, ?_⟩
  rw [hcalls.sent]
  exact List.forall_mem_append.2 ⟨h.sent,
    List.forall_mem_singleton.2 (hmsg.callRequest hid hmsg.receivable.lcn)⟩

/-- **A message to a channel.** -/
theorem processMessage (h : σ.Sound) (hX : σ.heap.get? x = some X) (hmsg : msg.Regular)
    (hrun : jzChannelProcessMessage now x msg σ = .ok σ') : σ'.Sound := by
  obtain ⟨as, hscript, hplays⟩ | ⟨-, hid, i, lcn, hgrants, hcalls⟩ :=
    processMessage_cases h.registered hX hrun
  · exact h.plays hplays (hscript.proper (h.numbered x X hX) hmsg)
  · obtain ⟨P, -, -, -, hlt⟩ := hgrants.number
    exact h.calls hX hid hmsg hcalls hlt.le

theorem checkTimers (h : σ.Sound) (hrun : jzChannelCheckTimers now x σ = .ok σ') :
    σ'.Sound := by
  obtain rfl | ⟨X, as, hscript, hplays⟩ := timers_cases h.registered hrun
  · exact h
  · exact h.plays hplays (hscript.proper (h.numbered x X hplays.found))

theorem remove {cause : ClearCause} {diagnostic : UInt8} (h : σ.Sound)
    (hdoes : (Task.remove cause now i lcn x diagnostic).Does σ σ') : σ'.Sound := by
  obtain ⟨X, σ₁, -, hremoves⟩ := remove_cases h.registered hdoes
  have h₁ := h.plays hremoves.plays proper_restartActs
  refine ⟨(hremoves.registered h.registered).2, hremoves.removes.every h₁.numbered, ?_⟩
  rw [hremoves.removes.sent]
  exact h₁.sent

/-! ### Clients -/

theorem sendMsg (h : σ.Sound) (hmsg : msg.Sendable)
    (hsend : jzClientSendMsg i none msg σ = .ok σ') : σ'.Sound := by
  have hregistered := (sendMsg_changes hsend)
  obtain rfl := sendMsg_eq_ok hsend
  exact ⟨h.registered.clients rfl rfl hregistered.listed, h.numbered,
    List.forall_mem_append.2 ⟨h.sent, List.forall_mem_singleton.2 hmsg⟩⟩

theorem updateClient {f : JzClient → JzClient} (h : σ.Sound)
    (hrun : σ.updateClient i f = .ok σ') (hsame : ∀ C, (f C).channels = C.channels) :
    σ'.Sound := by
  have hchanges := updateClient_changes hrun hsame
  obtain ⟨C, -, rfl⟩ := updateClient_eq_ok hrun
  exact ⟨h.registered.clients rfl rfl hchanges.listed, h.numbered, h.sent⟩

/-- A loop over the channels of a client. -/
theorem foreachRemove {cause : ClearCause} {diagnostic : UInt8}
    {entries : List ((_ : UInt16) × ℕ)} (h : σ.Sound) (hnodup : entries.NodupKeys)
    (hlisted : ∀ e ∈ entries, σ.Listed i e.1 e.2)
    (hrun : Application10.foreachRemove i (fun x => restartChannel cause now x diagnostic)
      entries σ = .ok σ') : σ'.Sound := by
  induction entries generalizing σ with
  | nil =>
    cases hrun
    exact h
  | cons e entries ih =>
    obtain ⟨σ₁, h₁, hrun⟩ := bind_eq_ok hrun
    obtain ⟨σ₂, h₂, hrun⟩ := bind_eq_ok hrun
    obtain ⟨σ₃, h₃, hrun⟩ := bind_eq_ok hrun
    rw [List.nodupKeys_cons] at hnodup
    rw [List.forall_mem_cons] at hlisted
    have htask : (Task.remove cause now i e.1 e.2 diagnostic).Does σ σ₃ :=
      ⟨hlisted.1, σ₁, σ₂, h₁, h₂, h₃⟩
    refine ih (h.remove htask) hnodup.2 (fun e' he' => ?_) hrun
    refine listed_of_remove h₁ h₂ h₃ (fun heq => hnodup.1 ?_) (hlisted.2 e' he')
    rw [← heq]
    exact List.mem_keys_of_mem he'

theorem removeAll {cause : ClearCause} {diagnostic : UInt8} (h : σ.Sound)
    (hC : σ.clients[i]? = some C)
    (hrun : Application10.foreachRemove i (fun x => restartChannel cause now x diagnostic)
      C.channels.entries σ = .ok σ') : σ'.Sound :=
  h.foreachRemove C.channels.nodupKeys (listed_of_entry hC) hrun

theorem punishmentRestart {cause : RestartCause} {diagnostic : Diag} (h : σ.Sound)
    (hrun : jzClientDoPunishmentRestart now i cause diagnostic σ = .ok σ') : σ'.Sound := by
  obtain ⟨σ₁, h₁, hrun⟩ := bind_eq_ok hrun
  obtain ⟨C, hC, hrun⟩ := bind_eq_ok hrun
  obtain ⟨σ₂, h₂, hrun⟩ := bind_eq_ok hrun
  have hsound := h.sendMsg sendable_restartRequest h₁
  exact (hsound.removeAll (client_eq_ok hC) h₂).updateClient hrun fun _ => rfl

theorem doRestart {cause diagnostic : UInt8} (h : σ.Sound)
    (hrun : jzClientDoRestart now i cause diagnostic σ = .ok σ') : σ'.Sound := by
  unfold jzClientDoRestart at hrun
  split at hrun
  · exact h.punishmentRestart hrun
  obtain ⟨σ₁, h₁, hrun⟩ := bind_eq_ok hrun
  obtain ⟨C, hC, hrun⟩ := bind_eq_ok hrun
  obtain ⟨σ₂, h₂, hrun⟩ := bind_eq_ok hrun
  obtain ⟨σ₃, h₃, hrun⟩ := bind_eq_ok hrun
  have hconfirmation : jzMsgNewRestartConfirmation.Sendable :=
    sendable_of_short rfl (by decide) rfl (by decide) rfl rfl rfl
  have hsound := (h.updateClient h₁ fun _ => rfl).removeAll (client_eq_ok hC) h₂
  exact (hsound.sendMsg hconfirmation h₃).updateClient hrun fun _ => rfl

theorem doHangup (h : σ.Sound) (hrun : jzClientDoHangup now i σ = .ok σ') : σ'.Sound := by
  obtain ⟨C, hC, hrun⟩ := bind_eq_ok hrun
  obtain ⟨σ₁, h₁, hrun⟩ := bind_eq_ok hrun
  exact (h.removeAll (client_eq_ok hC) h₁).updateClient hrun fun _ => rfl

/-! ### Timers -/

theorem checkChannelTimers {readings : List (ℕ × ℕ)} (h : σ.Sound)
    (hrun : Application10.checkChannelTimers readings σ = .ok σ') : σ'.Sound := by
  induction readings generalizing σ with
  | nil =>
    cases hrun
    exact h
  | cons r readings ih =>
    obtain ⟨σ₁, h₁, hrun⟩ := bind_eq_ok hrun
    exact ih (h.checkTimers h₁) hrun

theorem restartExpiration (h : σ.Sound)
    (hrun : jzClientDoRestartIndicationExpiration now i σ = .ok σ') : σ'.Sound := by
  obtain ⟨C, -, hrun⟩ := bind_eq_ok hrun
  split at hrun
  · exact h.punishmentRestart hrun
  · obtain ⟨σ₁, h₁, hrun⟩ := bind_eq_ok hrun
    exact (h.updateClient h₁ fun _ => rfl).sendMsg sendable_diagnostic hrun
  · cases hrun

theorem clientCheckTimers {clock : ℕ → ℕ} (h : σ.Sound)
    (hrun : jzClientCheckTimers clock i σ = .ok σ') : σ'.Sound := by
  obtain ⟨C, -, hrun⟩ := bind_eq_ok hrun
  obtain ⟨σ₁, h₁, hrun⟩ := bind_eq_ok hrun
  obtain ⟨C₁, -, hrun⟩ := bind_eq_ok hrun
  have hsound := h.checkChannelTimers h₁
  split at hrun
  · cases hrun
    exact hsound
  · obtain ⟨σ₂, h₂, hrun⟩ := bind_eq_ok hrun
    exact (hsound.updateClient h₂ fun _ => rfl).restartExpiration hrun

/-! ### Messages of a client -/

theorem doDiagnostic {diagnostic : Diag} {version id : UInt8} (h : σ.Sound)
    (hrun : jzClientDoDiagnostic i diagnostic version id lcn σ = .ok σ') : σ'.Sound :=
  h.sendMsg sendable_diagnostic hrun

theorem inC1Uninitialized (h : σ.Sound)
    (hrun : jzClientProcessMessageInC1UninitializedState i msg σ = .ok σ') : σ'.Sound := by
  have hindication : jzMsgNewConnectIndication.Sendable :=
    sendable_of_short rfl (by decide) rfl (by decide) rfl rfl rfl
  unfold jzClientProcessMessageInC1UninitializedState at hrun
  split at hrun
  · obtain ⟨found, -, hrun⟩ := bind_eq_ok hrun
    cases found with
    | some j => exact h.doDiagnostic hrun
    | none =>
      obtain ⟨σ₁, h₁, hrun⟩ := bind_eq_ok hrun
      exact (h.sendMsg hindication h₁).updateClient hrun fun _ => rfl
  · cases hrun
    exact h

theorem inC2ClientRestartRequest (h : σ.Sound)
    (hrun : jzClientProcessMessageInC2ClientRestartRequestState now i msg σ = .ok σ') :
    σ'.Sound := by
  unfold jzClientProcessMessageInC2ClientRestartRequestState at hrun
  split at hrun
  · cases hrun
    exact h
  split at hrun
  · exact h.punishmentRestart hrun
  · exact h.doDiagnostic hrun

theorem inC3ServerRestartRequest (h : σ.Sound)
    (hrun : jzClientProcessMessageInC3ServerRestartRequestState i msg σ = .ok σ') :
    σ'.Sound := by
  have hreset {τ : Server} (hτ : τ.Sound) (hrun : (τ.updateClient i fun C =>
      if C.state ≠ .c3ServerRestartRequest ∧ C.timerType = .restartIndication then
        jzClientTimerReset C
      else C) = .ok σ') : σ'.Sound := by
    refine hτ.updateClient hrun fun C => ?_
    split
    · rfl
    · rfl
  unfold jzClientProcessMessageInC3ServerRestartRequestState at hrun
  simp only at hrun
  split at hrun
  · obtain ⟨σ₁, h₁, hrun⟩ := bind_eq_ok hrun
    exact hreset (h.updateClient h₁ fun _ => rfl) hrun
  split at hrun
  · obtain ⟨σ₁, h₁, hrun⟩ := bind_eq_ok hrun
    cases h₁
    exact hreset h hrun
  · obtain ⟨σ₁, h₁, hrun⟩ := bind_eq_ok hrun
    exact hreset (h.doDiagnostic h₁) hrun

theorem inC4Initialized (h : σ.Sound) (hmsg : msg.Regular)
    (hrun : jzClientProcessMessageInC4InitializedState now i msg σ = .ok σ') : σ'.Sound := by
  unfold jzClientProcessMessageInC4InitializedState at hrun
  split at hrun
  · exact h.doRestart hrun
  split at hrun
  · exact h.punishmentRestart hrun
  split at hrun
  · obtain ⟨⟨x, σ₁⟩, hfind, hrun⟩ := bind_eq_ok hrun
    obtain ⟨-, X, hX, -⟩ := findOrOpen_spec h.registered hfind
    have h₁ : σ₁.Sound := by
      obtain ⟨rfl, -⟩ | ⟨-, hopen⟩ := findOrOpen_cases hfind
      · exact h
      · exact h.opens hopen hmsg.receivable.lcn
    exact h₁.processMessage hX hmsg hrun
  · exact h.doDiagnostic hrun

theorem clientProcessMessage (h : σ.Sound) (hmsg : msg.Regular)
    (hrun : jzClientProcessMessage now i msg σ = .ok σ') : σ'.Sound := by
  obtain ⟨C, -, hrun⟩ := bind_eq_ok hrun
  obtain ⟨_, -, hrun⟩ := bind_eq_ok hrun
  split at hrun
  · split at hrun
    · exact h.inC1Uninitialized hrun
    · exact h.inC2ClientRestartRequest hrun
    · exact h.inC3ServerRestartRequest hrun
    · exact h.inC4Initialized hmsg hrun
  · cases hrun
    exact h

/-- An event of the main loop that is no part of a read. -/
theorem event (h : σ.Sound) (henabled : e.Enabled σ) (hno : e.NoRead)
    (hrun : σ.handle e = .ok σ') : σ'.Sound := by
  cases e with
  | message | badMessage | corrupt => exact hno.elim
  | connect =>
    cases hrun
    exact ⟨h.registered.clients rfl rfl append_changes.listed, h.numbered, h.sent⟩
  | hangup now i =>
    obtain ⟨C, -, hrun⟩ := bind_eq_ok hrun
    obtain ⟨_, -, hrun⟩ := bind_eq_ok hrun
    obtain ⟨σ₁, h₁, hrun⟩ := bind_eq_ok hrun
    exact (h.doHangup h₁).updateClient hrun fun _ => rfl
  | tick clock i => exact h.clientCheckTimers hrun
  | rehash i channels =>
    obtain ⟨C, hC, hsame⟩ := henabled
    obtain ⟨C₀, hC₀, rfl⟩ := updateClient_eq_ok hrun
    obtain rfl : C = C₀ := Option.some.inj (hC.symm.trans hC₀)
    have hchanges : ChangesClients σ (σ.setClient i { C with channels }) :=
      setClient_changes hC fun lcn => by rw [← hsame.get?]
    exact ⟨h.registered.clients rfl rfl hchanges.listed, h.numbered, h.sent⟩

end Server.Sound

end

end Application10
end Jozabad
