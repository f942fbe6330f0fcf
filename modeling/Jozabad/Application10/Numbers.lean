import Jozabad.Application10.Delivery

/-!
# Logical channel numbers

Each side of a call has a number of its own, and every message to a client is to carry the
number of the client's own channel. The handlers write the number by hand. Two kinds of
messages get the wrong one (`Event.Mislabels`): `RR` and `RNR` are passed on with the number
under which they came, and a `CALL_REQUEST` is delivered with the number of the caller.

* `lcn_translation`: the runs in which every message carries the number of its own channel
  are exactly the runs in which no such message goes to a channel with another number.
* `lcn_leaked`: a call from the channel 5 of one client to the channel 1 of another.
-/

namespace Jozabad
namespace Application10

open Partners

/-- Whether messages of this type belong to a channel: the types of `jzMsgIsForChannel`. -/
def isForChannel (id : MsgId) : Bool :=
  id = .callRequest ∨ id = .data ∨ id = .rr ∨ id = .rnr ∨ id = .callAccepted ∨
    id = .clearRequest ∨ id = .clearConfirmation ∨ id = .resetRequest ∨ id = .resetConfirmation

/-- The owners of the channels in `L`. -/
def owners (L : ℕ → Option JzChannel) (z : ℕ) : Option (ℕ × UInt16) :=
  (L z).map JzChannel.owner

/-- The message goes to the owner of the channel that sends it, under its number. -/
def Sent.Own (L : ℕ → Option JzChannel) (s : Sent) : Prop :=
  ∀ z, s.channel = some z → isForChannel s.msg.id = true → owners L z = some (s.client, s.msg.lcn)

section

variable {σ σ₁ σ' : Server} {now x y z i : ℕ} {lcn : UInt16} {X Y : JzChannel} {msg : JzMsg}
  {d d' : Duo} {as : List Act} {e : Event}

/-! ### Scripts -/

/-- The act labels what it has sent with the number of the channel that sends it, where the
peer is `o`. -/
def Act.Labels (X : JzChannel) (o : Option JzChannel) : Act → Prop
  | .self msg => msg.lcn = X.lcn
  | .tell f => ∀ Y, o.map JzChannel.owner = some Y.owner → (f Y).lcn = Y.lcn
  | .notify msg => isForChannel msg.id = false
  | .own _ | .other _ => True

/-- The two channels have kept their owners, and have sent messages with their own numbers. -/
structure Duo.Labelled (d : Duo) (x : ℕ) (X : JzChannel) (o : Option JzChannel) : Prop where
  own : d.own.owner = X.owner
  other : d.other.map JzChannel.owner = o.map JzChannel.owner
  sent : ∀ s ∈ d.sent, isForChannel s.msg.id = true →
    (s.channel = some x ∧ X.owner = (s.client, s.msg.lcn)) ∨
      ∃ y, X.peer = some y ∧ s.channel = some y ∧
        o.map JzChannel.owner = some (s.client, s.msg.lcn)

theorem Duo.Labelled.act {o : Option JzChannel} {a : Act} (htame : a.Tame)
    (hlabels : a.Labels X o) (hd : d.Labelled x X o) (h : (duoSystem now x X).Step d a d') :
    d'.Labelled x X o := by
  cases a with
  | own f =>
    obtain rfl := step_own.1 h
    exact ⟨(htame d.own).owner.trans hd.own, hd.other, hd.sent⟩
  | other f =>
    obtain rfl := step_other.1 h
    refine ⟨hd.own, ?_, hd.sent⟩
    rw [← hd.other, Option.map_map]
    cases d.other with
    | none => rfl
    | some Y => exact congrArg some (htame Y).owner
  | self msg =>
    obtain ⟨X', out, heff, rfl⟩ := step_self h
    refine ⟨heff.keeps.owner.trans hd.own, hd.other, fun s hs hid => ?_⟩
    obtain hs | hs := List.mem_append.1 hs
    · exact hd.sent s hs hid
    · obtain ⟨hclient, hchannel, rfl⟩ := mem_post hs
      -- The channel answers under its own number, since the message is for it.
      refine .inl ⟨hchannel, ?_⟩
      have hparent : d.own.parent = X.parent := congrArg Prod.fst hd.own
      rw [hclient, heff.out_lcn, hlabels, hparent]
      rfl
  | tell f =>
    obtain rfl | ⟨y, Y, Y', out, hpeer, hother, heff, rfl⟩ := step_tell_cases h
    · exact hd
    · have howner : o.map JzChannel.owner = some Y.owner := by
        rw [← hd.other, hother, Option.map_some]
      refine ⟨hd.own, ?_, fun s hs hid => ?_⟩
      · rw [howner]
        exact congrArg some heff.keeps.owner
      · obtain hs | hs := List.mem_append.1 hs
        · exact hd.sent s hs hid
        · obtain ⟨hclient, hchannel, rfl⟩ := mem_post hs
          -- So does the peer.
          refine .inr ⟨y, hpeer, hchannel, ?_⟩
          rw [howner, hclient, heff.out_lcn, hlabels Y howner]
          rfl
  | notify msg =>
    obtain rfl := step_notify.1 h
    refine ⟨hd.own, hd.other, fun s hs hid => ?_⟩
    obtain hs | hs := List.mem_append.1 hs
    · exact hd.sent s hs hid
    · rw [List.mem_singleton] at hs
      rw [hs, hlabels] at hid
      cases hid

theorem Duo.Labelled.run {o : Option JzChannel} (htame : ∀ a ∈ as, a.Tame)
    (hlabels : ∀ a ∈ as, a.Labels X o) (hd : d.Labelled x X o)
    (h : (duoSystem now x X).Run d as d') : d'.Labelled x X o := by
  induction h with
  | nil => exact hd
  | cons hstep _ ih =>
    rw [List.forall_mem_cons] at htame hlabels
    exact ih htame.2 hlabels.2 (hd.act htame.1 hlabels.1 hstep)

/-- What has been sent more carries its own numbers in `L`. -/
def SendsOwn (L : ℕ → Option JzChannel) (σ σ' : Server) : Prop :=
  ∃ new, σ'.sent = σ.sent ++ new ∧ ∀ s ∈ new, s.Own L

theorem Duo.Labelled.sendsOwn (hX : σ.heap.get? x = some X) (hshows : Shows σ x X d σ')
    (hd : d.Labelled x X (X.peer.bind σ.heap.get?)) : SendsOwn σ.heap.get? σ σ' := by
  refine ⟨d.sent, hshows.sent, fun s hs z hz hid => ?_⟩
  obtain ⟨hchannel, howner⟩ | ⟨y, hpeer, hchannel, howner⟩ := hd.sent s hs hid
  · obtain rfl := Option.some.inj (hz.symm.trans hchannel)
    rw [owners, hX, Option.map_some, howner]
  · obtain rfl := Option.some.inj (hz.symm.trans hchannel)
    rw [hpeer, Option.bind_some] at howner
    exact howner

/-- A script all of whose acts label what they send. -/
theorem Plays.sendsOwn (h : Plays now x X as σ σ')
    (hlabels : ∀ a ∈ as, a.Labels X (X.peer.bind σ.heap.get?)) : SendsOwn σ.heap.get? σ σ' := by
  obtain ⟨d, hd, hshows⟩ := h.shows
  have hstart : (σ.duo X).Labelled x X (X.peer.bind σ.heap.get?) :=
    ⟨rfl, rfl, fun _ hs => absurd hs List.not_mem_nil⟩
  exact (hstart.run h.tame hlabels hd).sendsOwn h.found hshows

/-! ### The scripts -/

variable {o : Option JzChannel}

theorem punishClearActs_labels {cause : ClearCause} {diagnostic : Diag} :
    ∀ a ∈ punishClearActs X.lcn cause diagnostic, a.Labels X o :=
  List.forall_mem_cons.2 ⟨rfl, List.forall_mem_cons.2 ⟨trivial,
    List.forall_mem_singleton.2 fun _ _ => rfl⟩⟩

theorem punishResetActs_labels {cause : ResetCause} {diagnostic : Diag} :
    ∀ a ∈ punishResetActs X.lcn cause diagnostic, a.Labels X o :=
  List.forall_mem_cons.2 ⟨rfl, List.forall_mem_singleton.2 fun _ _ => rfl⟩

theorem timerActs_labels (s : ChannelState) : ∀ a ∈ timerActs s, a.Labels X o := by
  cases s with
  | p3ServerWaiting | d3ServerResetIndication | p7ServerClearIndication =>
    exact List.forall_mem_singleton.2 trivial
  | p1Ready | p2ClientWaiting | p5CallCollision | p6ClientClearRequest | d1FlowControlReady
    | d2ClientResetRequest => exact fun _ h => absurd h List.not_mem_nil

/-- An acknowledgement that the channel accepts. -/
structure AcceptsReceipt (new : UInt16 → UInt16 → JzMsg) (X : JzChannel) (msg : JzMsg) :
    Prop where
  kind : msg.id = .rr ∧ new = jzMsgNewRr ∨ msg.id = .rnr ∧ new = jzMsgNewRnr
  state : X.state = .d1FlowControlReady
  valid : seqInRange msg.pr.toNat X.clientPr.toNat X.peerPs.toNat = true

/-- All scripts of messages label what they send, but for that of an acknowledgement. -/
theorem MessageScript.labels (h : MessageScript X msg as) :
    (∀ a ∈ as ++ timerActs X.state, a.Labels X o) ∨
      ∃ new, AcceptsReceipt new X msg ∧ as = receiptActs new msg := by
  have hlabels (h : ∀ a ∈ as, a.Labels X o) : ∀ a ∈ as ++ timerActs X.state, a.Labels X o :=
    List.forall_mem_append.2 ⟨h, timerActs_labels X.state⟩
  cases h with
  | ignored => exact .inl (hlabels fun _ h => absurd h List.not_mem_nil)
  | clear =>
    exact .inl (hlabels (List.forall_mem_cons.2 ⟨fun _ _ => rfl,
      List.forall_mem_singleton.2 trivial⟩))
  | punishClear => exact .inl (hlabels punishClearActs_labels)
  | punishReset => exact .inl (hlabels punishResetActs_labels)
  | accept | collide =>
    exact .inl (hlabels (List.forall_mem_cons.2 ⟨trivial, List.forall_mem_cons.2
      ⟨fun _ _ => rfl, List.forall_mem_singleton.2 trivial⟩⟩))
  | confirmClear => exact .inl (hlabels (List.forall_mem_singleton.2 trivial))
  | reset | confirmReset | data =>
    exact .inl (hlabels (List.forall_mem_cons.2 ⟨trivial,
      List.forall_mem_singleton.2 fun _ _ => rfl⟩))
  -- An acknowledgement goes on under the number of the sender.
  | rr hid hs hvalid => exact .inr ⟨_, ⟨.inl ⟨hid, rfl⟩, hs, hvalid⟩, rfl⟩
  | rnr hid hs hvalid => exact .inr ⟨_, ⟨.inr ⟨hid, rfl⟩, hs, hvalid⟩, rfl⟩

theorem ExpiryScript.labels (h : ExpiryScript X as) : ∀ a ∈ as, a.Labels X o := by
  cases h with
  | incomingCall =>
    exact List.forall_mem_cons.2 ⟨trivial, List.forall_mem_cons.2
      ⟨trivial, punishClearActs_labels⟩⟩
  | firstReset => exact List.forall_mem_cons.2 ⟨trivial, punishResetActs_labels⟩
  | lastReset | firstClear => exact List.forall_mem_cons.2 ⟨trivial, punishClearActs_labels⟩
  | lastClear =>
    exact List.forall_mem_cons.2 ⟨trivial, List.forall_mem_cons.2 ⟨trivial,
      List.forall_mem_cons.2 ⟨trivial, List.forall_mem_singleton.2 rfl⟩⟩⟩

theorem restartActs_labels {cause : ClearCause} {diagnostic : UInt8} :
    ∀ a ∈ restartActs cause diagnostic, a.Labels X o :=
  List.forall_mem_cons.2 ⟨trivial, List.forall_mem_cons.2 ⟨trivial,
    List.forall_mem_cons.2 ⟨fun _ _ => rfl, List.forall_mem_singleton.2 trivial⟩⟩⟩

/-! ### Acknowledgements -/

/-- A channel passes an acknowledgement on to its client in `D1`, and in no other state. -/
theorem ServerEffect.receipt {Y' : JzChannel} {out : Option JzMsg} {m : JzMsg}
    (hkind : m.id = .rr ∨ m.id = .rnr)
    (h : ServerEffect now Y m Y' out) :
    (Y.state = .d1FlowControlReady ∧ ∃ m', out = some m' ∧ isForChannel m'.id = true ∧
        m'.lcn = m.lcn) ∨
      (Y.state ≠ .d1FlowControlReady ∧ out = none) := by
  cases h with
  | rr _ hs | rnr _ hs => exact .inl ⟨hs, _, rfl, rfl, rfl⟩
  | ignored hs =>
    refine .inr ⟨fun hs' => ?_, rfl⟩
    rw [hs'] at hs
    obtain hid | hid := hkind <;> rw [hid] at hs <;> cases hs
  -- The other effects are those of other messages.
  | clear hid | incomingCall hid | collision hid | connected hid | reset hid | data hid =>
    obtain hid' | hid' := hkind <;> rw [hid'] at hid <;> cases hid
  | confirmClear hid | confirmReset hid =>
    obtain hid' | hid' := hkind <;> rw [hid'] at hid <;> obtain hid | hid := hid <;> cases hid

theorem AcceptsReceipt.new_id {new : UInt16 → UInt16 → JzMsg} (h : AcceptsReceipt new X msg)
    (lcn pr : UInt16) : (new lcn pr).id = .rr ∨ (new lcn pr).id = .rnr := by
  obtain ⟨-, rfl⟩ | ⟨-, rfl⟩ := h.kind
  · exact .inl rfl
  · exact .inr rfl

theorem AcceptsReceipt.new_lcn {new : UInt16 → UInt16 → JzMsg} (h : AcceptsReceipt new X msg)
    (lcn pr : UInt16) : (new lcn pr).lcn = lcn := by
  obtain ⟨-, rfl⟩ | ⟨-, rfl⟩ := h.kind <;> rfl

/-- The acknowledgement goes to a channel in `D1` that has another number. -/
def PassesForeign (σ : Server) (X : JzChannel) (msg : JzMsg) : Prop :=
  ∃ new y Y, AcceptsReceipt new X msg ∧ X.peer = some y ∧ σ.heap.get? y = some Y ∧
    Y.state = .d1FlowControlReady ∧ Y.lcn ≠ msg.lcn

/-- An acknowledgement that goes to a channel of the same number is labelled. -/
theorem receipt_sendsOwn {new : UInt16 → UInt16 → JzMsg} (haccept : AcceptsReceipt new X msg)
    (h : Plays now x X (receiptActs new msg ++ timerActs X.state) σ σ')
    (hnot : ¬ PassesForeign σ X msg) : SendsOwn σ.heap.get? σ σ' := by
  by_cases hsame : ∀ y Y, X.peer = some y → σ.heap.get? y = some Y → Y.lcn = msg.lcn
  · -- Both channels have the same number, so that it is right.
    refine h.sendsOwn (List.forall_mem_append.2 ⟨?_, timerActs_labels X.state⟩)
    refine List.forall_mem_cons.2 ⟨trivial, List.forall_mem_singleton.2 fun Y howner => ?_⟩
    obtain ⟨Y₀, hY₀, heq⟩ := Option.map_eq_some_iff.1 howner
    obtain ⟨y, hpeer, hY₀⟩ := Option.bind_eq_some_iff.1 hY₀
    rw [haccept.new_lcn, ← hsame y Y₀ hpeer hY₀]
    exact congrArg Prod.snd heq
  · push Not at hsame
    obtain ⟨y, Y, hpeer, hY, hne⟩ := hsame
    obtain ⟨d, hd, hshows⟩ := h.shows
    have hduo : σ.duo X = ⟨X, some Y, []⟩ := by
      rw [Server.duo, hpeer, Option.bind_some, hY]
    rw [hduo, haccept.state] at hd
    simp only [receiptActs, timerActs, List.append_nil, Lts.Run.cons_iff, Lts.Run.nil_iff,
      step_own] at hd
    obtain ⟨_, rfl, d₂, h₂, rfl⟩ := hd
    obtain ⟨Y', out, heff, rfl⟩ := step_tell hpeer rfl h₂
    -- With another number, the peer must not have passed it on.
    obtain ⟨hs, -⟩ | ⟨-, rfl⟩ := heff.receipt (haccept.new_id _ _)
    · exact absurd ⟨new, y, Y, haccept, hpeer, hY, hs, hne⟩ hnot
    · exact ⟨[], hshows.sent, fun _ hs => absurd hs List.not_mem_nil⟩

/-- What a channel that accepts an acknowledgement tells its peer. -/
theorem toPeer_of_receipt {new : UInt16 → UInt16 → JzMsg} (hX : σ.heap.get? x = some X)
    (haccept : AcceptsReceipt new X msg) (h : jzChannelProcessMessage now x msg σ = .ok σ') :
    X.toPeer now (fun _ => new msg.lcn msg.pr) (σ.setChannel x { X with clientPr := msg.pr }) =
      .ok σ' := by
  obtain ⟨hkind, hs, hvalid⟩ := haccept
  obtain ⟨σ₁, h, hdump⟩ := bind_eq_ok h
  obtain ⟨_, -, hdump⟩ := bind_eq_ok hdump
  cases hdump
  have h := channel_bind_eq_ok hX h
  have hreceipt : clientReceipt new now x msg σ = .ok σ' := by
    obtain ⟨hid, rfl⟩ | ⟨hid, rfl⟩ := hkind
    · simp only [hs, hid] at h
      exact h
    · simp only [hs, hid] at h
      exact h
  have h := channel_bind_eq_ok hX hreceipt
  rw [if_neg (not_not.2 hvalid)] at h
  obtain ⟨σ₂, h₂, h⟩ := bind_eq_ok h
  rw [update_of_get hX] at h₂
  obtain rfl := Except.ok.inj h₂
  exact h

/-! ### Messages and calls -/

/-- A call is granted, and the number of the called channel is not that of the caller. -/
def CallsForeign (σ : Server) (X : JzChannel) (msg : JzMsg) : Prop :=
  X.state = .p1Ready ∧ msg.id = .callRequest ∧ ∃ i lcn, Grants σ X msg i lcn ∧ lcn ≠ msg.lcn

/-- A message that is for a channel of the sending client carries its number. `σ` and `σ'` are
the server before and after the step. -/
def Sent.CarriesOwn (σ σ' : Server) (s : Sent) : Prop :=
  ∀ z Z, s.channel = some z → isForChannel s.msg.id = true →
    (σ.heap.get? z = some Z ∨ σ'.heap.get? z = some Z) →
      s.client = Z.parent ∧ s.msg.lcn = Z.lcn

/-- **The step sends a channel's client the number of another channel.** -/
def Event.Mislabels (σ : Server) : Event → Prop
  | .message _ i msg => σ.Delivers i msg ∧ ∃ x X σ₁,
      findOrOpenChannel i msg.lcn { σ with sent := [] } = .ok (x, σ₁) ∧
        σ₁.heap.get? x = some X ∧ (PassesForeign σ₁ X msg ∨ CallsForeign σ₁ X msg)
  | _ => False

/-- All channels of `L` are in `L'`, with the same owners. -/
def OwnersIn (L L' : ℕ → Option JzChannel) : Prop :=
  ∀ z Z, L z = some Z → owners L' z = some Z.owner

theorem Sent.Own.carriesOwn {L : ℕ → Option JzChannel} {s : Sent} (h : s.Own L)
    (hbefore : OwnersIn σ.heap.get? L) (hafter : OwnersIn σ'.heap.get? L) :
    s.CarriesOwn σ σ' := by
  intro z Z hz hid hZ
  have howner : owners L z = some Z.owner := by
    obtain hZ | hZ := hZ
    · exact hbefore z Z hZ
    · exact hafter z Z hZ
  obtain ⟨hclient, hlcn⟩ := Prod.mk.injEq _ _ _ _ ▸ Option.some.inj ((h z hz hid).symm.trans howner)
  exact ⟨hclient, hlcn⟩

theorem OwnersIn.refl (L : ℕ → Option JzChannel) : OwnersIn L L :=
  fun z Z hZ => by rw [owners, hZ, Option.map_some]

theorem OwnersIn.of_eq {L L' : ℕ → Option JzChannel} (h : ∀ z, owners L z = owners L' z) :
    OwnersIn L L' :=
  fun z Z hZ => by rw [← h, owners, hZ, Option.map_some]

theorem Plays.ownersIn (h : Plays now x X as σ σ') : OwnersIn σ'.heap.get? σ.heap.get? :=
  .of_eq h.touches.owner

theorem Opens.ownersIn (h : Opens i lcn σ σ') (hσ : σ.Registered) :
    OwnersIn σ.heap.get? σ'.heap.get? := by
  intro z Z hZ
  rw [owners, h.get_of_ne (hσ.ne_next hZ), hZ, Option.map_some]

/-- What a message to a channel sends. -/
theorem message_carriesOwn (hσ₁ : σ₁.Registered) (hX : σ₁.heap.get? x = some X)
    (hsent : σ₁.sent = []) (hbefore : OwnersIn σ.heap.get? σ₁.heap.get?)
    (h : jzChannelProcessMessage now x msg σ₁ = .ok σ')
    (hpasses : ¬ PassesForeign σ₁ X msg) (hcalls : ¬ CallsForeign σ₁ X msg) :
    ∀ s ∈ σ'.sent, s.CarriesOwn σ σ' := by
  obtain ⟨as, hscript, hplays⟩ | ⟨hs, hid, i, lcn, hgrants, hcall⟩ := processMessage_cases hσ₁ hX h
  · have hsends : SendsOwn σ₁.heap.get? σ₁ σ' := by
      obtain hlabels | ⟨new, haccept, rfl⟩ := hscript.labels
      · exact hplays.sendsOwn hlabels
      · exact receipt_sendsOwn haccept hplays hpasses
    obtain ⟨new, hnew, hown⟩ := hsends
    rw [hnew, hsent, List.nil_append]
    exact fun s hs => (hown s hs).carriesOwn hbefore hplays.ownersIn
  · have hsame : lcn = msg.lcn := by
      by_contra hne
      exact hcalls ⟨hs, hid, i, lcn, hgrants, hne⟩
    rw [hcall.sent, hsent, List.nil_append, List.forall_mem_singleton]
    rintro z Z hz - hZ
    obtain rfl := Option.some.inj hz
    obtain hZ | hZ := hZ
    · -- The called channel was not there before.
      have hnone := hbefore _ Z hZ
      rw [owners, hσ₁.next_eq_none] at hnone
      cases hnone
    · obtain rfl := Option.some.inj (hcall.other.symm.trans hZ)
      exact ⟨rfl, hsame.symm⟩

/-- An acknowledgement that goes to a channel with another number carries the wrong one. -/
theorem passes_not_carriesOwn (hX : σ₁.heap.get? x = some X) (hne : X.peer ≠ some x)
    (hpasses : PassesForeign σ₁ X msg) (h : jzChannelProcessMessage now x msg σ₁ = .ok σ') :
    ∃ s ∈ σ'.sent, ¬ s.CarriesOwn σ σ' := by
  obtain ⟨new, y, Y, haccept, hpeer, hY, hs, hlcn⟩ := hpasses
  have hto := toPeer_of_receipt hX haccept h
  have hxy : y ≠ x := by
    rintro rfl
    exact hne hpeer
  have hY₁ := (get_setChannel_of_ne (N := { X with clientPr := msg.pr }) hxy).trans hY
  revert hto hY₁
  generalize σ₁.setChannel x { X with clientPr := msg.pr } = σ₂
  intro hto hY₁
  simp only [JzChannel.toPeer, hpeer] at hto
  obtain ⟨Y₀, -, hto⟩ := bind_eq_ok hto
  obtain ⟨Y₂, Y', out, hY₂, hstate, rfl⟩ := processServerMessage_eq_ok hto
  obtain rfl : Y = Y₂ := Option.some.inj (hY₁.symm.trans hY₂)
  have heff := inState_effect hstate
  obtain ⟨-, m, rfl, hfor, hm⟩ | ⟨hs', -⟩ := heff.receipt (haccept.new_id _ _)
  · refine ⟨⟨Y.parent, some y, m⟩, ?_, fun hcarries => hlcn ?_⟩
    · exact List.mem_append_right _ List.mem_cons_self
    · -- The message is sent on behalf of the peer, under the number of the sender.
      have hown := (hcarries y Y' rfl hfor (.inr (get_setChannel_self hY₁))).2
      have howner : Y'.lcn = Y.lcn := congrArg Prod.snd heff.keeps.owner
      rw [← howner, ← hown, hm, haccept.new_lcn]
  · exact absurd hs hs'

/-- A call that is granted is made. -/
theorem granted_calls (hσ : σ.Registered) (hX : σ.heap.get? x = some X)
    (hs : X.state = .p1Ready) (hid : msg.id = .callRequest) (hgrants : Grants σ X msg i lcn)
    (h : jzChannelProcessMessage now x msg σ = .ok σ') : Calls now x msg i lcn σ σ' := by
  obtain ⟨σ₁, h, hdump⟩ := bind_eq_ok h
  obtain ⟨_, -, hdump⟩ := bind_eq_ok hdump
  cases hdump
  have h := channel_bind_eq_ok hX h
  simp only [hs, hid] at h
  exact connects_calls hσ hX hid (callRequest_granted hX hgrants h)

/-- The message that the called client gets. -/
theorem Calls.mem_sent (h : Calls now x msg i lcn σ σ') :
    ∃ s ∈ σ'.sent, s.channel = some σ.next ∧ isForChannel s.msg.id = true ∧
      s.msg.lcn = msg.lcn := by
  rw [h.sent]
  exact ⟨_, List.mem_append_right _ List.mem_cons_self, rfl, rfl, rfl⟩

/-- A call to a channel with another number than the caller's carries the wrong one. -/
theorem calls_not_carriesOwn (hσ₁ : σ₁.Registered) (hX : σ₁.heap.get? x = some X)
    (hcalls : CallsForeign σ₁ X msg) (h : jzChannelProcessMessage now x msg σ₁ = .ok σ') :
    ∃ s ∈ σ'.sent, ¬ s.CarriesOwn σ σ' := by
  obtain ⟨hs, hid, i, lcn, hgrants, hne⟩ := hcalls
  have hcall := granted_calls hσ₁ hX hs hid hgrants h
  obtain ⟨s, hs, hchannel, hfor, hlcn⟩ := hcall.mem_sent
  refine ⟨s, hs, fun hcarries => hne ?_⟩
  exact ((hcarries σ₁.next _ hchannel hfor (.inr hcall.other)).2.symm).trans hlcn

/-! ### Tasks -/

/-- A task sends right numbers, and channels keep their owners. -/
structure Translates (σ σ' : Server) : Prop where
  owners : OwnersIn σ'.heap.get? σ.heap.get?
  sends : SendsOwn σ.heap.get? σ σ'

theorem OwnersIn.trans {L L' L'' : ℕ → Option JzChannel} (h : OwnersIn L L')
    (h' : OwnersIn L' L'') : OwnersIn L L'' := by
  intro z Z hZ
  obtain ⟨Z', hZ', howner⟩ := Option.map_eq_some_iff.1 (h z Z hZ)
  rw [← howner]
  exact h' z Z' hZ'

theorem Sent.Own.mono {L L' : ℕ → Option JzChannel} {s : Sent} (h : s.Own L')
    (hin : OwnersIn L' L) : s.Own L := by
  intro z hz hid
  obtain ⟨Z, hZ, howner⟩ := Option.map_eq_some_iff.1 (h z hz hid)
  rw [← howner]
  exact hin z Z hZ

theorem Translates.refl (σ : Server) : Translates σ σ :=
  ⟨.refl _, [], (List.append_nil _).symm, fun _ h => absurd h List.not_mem_nil⟩

theorem Translates.trans (h : Translates σ σ₁) (h' : Translates σ₁ σ') : Translates σ σ' := by
  obtain ⟨hin, new, hnew, hown⟩ := h
  obtain ⟨hin', new', hnew', hown'⟩ := h'
  refine ⟨hin'.trans hin, new ++ new', by rw [hnew', hnew, List.append_assoc], ?_⟩
  exact List.forall_mem_append.2 ⟨hown, fun s hs => (hown' s hs).mono hin⟩

theorem Plays.translates (h : Plays now x X as σ σ')
    (hlabels : ∀ a ∈ as, a.Labels X (X.peer.bind σ.heap.get?)) : Translates σ σ' :=
  ⟨h.ownersIn, h.sendsOwn hlabels⟩

theorem Removes.translates (h : Removes i lcn x σ σ') : Translates σ σ' := by
  refine ⟨fun z Z hZ => ?_, [], by rw [h.sent, List.append_nil],
    fun _ h => absurd h List.not_mem_nil⟩
  -- What is left has the owner that it had.
  have hz : z ≠ x := by
    rintro rfl
    rw [h.heap, Table.get?_remove_self] at hZ
    cases hZ
  rw [h.get_of_ne hz] at hZ
  rw [owners, hZ, Option.map_some]

theorem Task.translates {t : Task} (hσ : σ.Registered) (h : t.Does σ σ') : Translates σ σ' := by
  cases t with
  | clients =>
    -- What is sent here is on behalf of no channel.
    obtain ⟨new, hnew, hnone⟩ := h.sent
    refine ⟨?_, new, hnew, fun s hs z hz => ?_⟩
    · rw [h.heap]
      exact .refl _
    · rw [hnone s hs] at hz
      cases hz
  | timers now x =>
    obtain rfl | ⟨X, as, hscript, hplays⟩ := timers_cases hσ h
    · exact .refl _
    · exact hplays.translates hscript.labels
  | remove =>
    obtain ⟨X, σ₁, -, hremoves⟩ := remove_cases hσ h
    exact (hremoves.plays.translates restartActs_labels).trans hremoves.removes.translates

theorem Works.translates {xs : Set ℕ} (hσ : σ.Registered) (h : Works xs σ σ') :
    Translates σ σ' := by
  obtain ⟨ts, hrun, -⟩ := h
  have hboth := hrun.preserves (fun τ => τ.Registered ∧ Translates σ τ) ⟨hσ, .refl σ⟩
    fun _ _ _ hτ hstep => ⟨hτ.1.task hstep, hτ.2.trans (Task.translates hτ.1 hstep)⟩
  exact hboth.2

/-! ### Steps and runs -/

/-- What a message finds. -/
theorem Got.ownersIn (h : Got now x X msg σ e σ₁ σ') (hσ : σ.Registered) :
    OwnersIn σ.heap.get? σ₁.heap.get? ∧ σ₁.sent = [] := by
  obtain rfl | ⟨hopen, -⟩ := h.opened
  · exact ⟨.refl _, rfl⟩
  · exact ⟨hopen.ownersIn hσ.cleared, hopen.sent⟩

theorem Server.Numbers.parent (hσ : σ.Registered) (h : σ.Numbers i lcn x X) : X.parent = i := by
  obtain ⟨hlisted, hX⟩ | ⟨-, -, rfl⟩ := h
  · obtain ⟨X₀, hX₀, howner⟩ := hσ.get_of_listed hlisted
    obtain rfl : X = X₀ := Option.some.inj (hX.symm.trans hX₀)
    exact congrArg Prod.fst howner
  · rfl

/-- What a message that is given to a channel mislabels. -/
theorem Got.mislabels_iff (h : Got now x X msg σ e σ₁ σ') (hσ : σ.Registered) :
    e.Mislabels σ ↔ PassesForeign σ₁ X msg ∨ CallsForeign σ₁ X msg := by
  obtain ⟨hgives, hfind, -, -, hX, -, -⟩ := h
  cases e with
  | connect | badMessage | corrupt | hangup | tick | rehash => exact hgives.elim
  | message now' i m =>
    obtain ⟨rfl, hdelivers, hnumbers⟩ := hgives
    rw [hnumbers.parent hσ] at hfind
    -- The message is given to one channel only, in one server.
    constructor
    · rintro ⟨-, x', X', σ₁', hfind', hX', hforeign⟩
      obtain ⟨rfl, rfl⟩ := Prod.mk.injEq _ _ _ _ ▸ Except.ok.inj (hfind.symm.trans hfind')
      obtain rfl : X = X' := Option.some.inj (hX.symm.trans hX')
      exact hforeign
    · exact fun hforeign => ⟨hdelivers, x, X, σ₁, hfind, hX, hforeign⟩

/-- A step that does not give a message to a channel mislabels nothing. -/
theorem Event.Mislabels.got (hσ : σ.Registered) (hstep : serverSystem.Step σ e σ')
    (h : e.Mislabels σ) : ∃ now x X msg σ₁, Got now x X msg σ e σ₁ σ' := by
  cases e with
  | connect | badMessage | corrupt | hangup | tick | rehash => exact h.elim
  | message now i msg =>
    obtain ⟨x, σ₁, hto⟩ := delivers_spec (σ := { σ with sent := [] }) h.1 hstep.2
    obtain ⟨X, hgot⟩ := hto.got hσ h.1
    exact ⟨now, x, X, msg, σ₁, hgot⟩

/-- **A step sends only right numbers if and only if it does not mislabel.** -/
theorem step_translates_iff (hσ : σ.Registered) (h : serverSystem.Step σ e σ') :
    (∀ s ∈ σ'.sent, s.CarriesOwn σ σ') ↔ ¬ e.Mislabels σ := by
  constructor
  · intro hall hmislabels
    obtain ⟨now, x, X, msg, σ₁, hgot⟩ := hmislabels.got hσ h
    -- Both ways to mislabel a message send it in this step.
    have hwrong : ∃ s ∈ σ'.sent, ¬ s.CarriesOwn σ σ' := by
      obtain hpasses | hcalls := (hgot.mislabels_iff hσ).1 hmislabels
      · exact passes_not_carriesOwn hgot.found (hgot.registered.peer_ne hgot.found) hpasses
          hgot.processed
      · exact calls_not_carriesOwn hgot.registered hgot.found hcalls hgot.processed
    obtain ⟨s, hs, hnot⟩ := hwrong
    exact hnot (hall s hs)
  · intro hnot
    obtain ⟨now, x, X, msg, σ₁, hgot⟩ | hworks := step_cases hσ h
    · rw [hgot.mislabels_iff hσ, not_or] at hnot
      obtain ⟨hin, hsent⟩ := hgot.ownersIn hσ
      exact message_carriesOwn hgot.registered hgot.found hsent hin hgot.processed hnot.1 hnot.2
    · obtain ⟨hin, new, hnew, hown⟩ := hworks.translates hσ.cleared
      intro s hs
      rw [hnew, List.nil_append] at hs
      exact (hown s hs).carriesOwn (.refl _) hin

/-- The server, as long as each message to a client carries the number of its channel. -/
def translatingSystem : Lts Server Event where
  Init := serverSystem.Init
  Step σ e σ' := serverSystem.Step σ e σ' ∧ ∀ s ∈ σ'.sent, s.CarriesOwn σ σ'

theorem translating_step_iff (hσ : σ.Registered) : translatingSystem.Step σ e σ' ↔
    (serverSystem.restrict fun σ e => ¬ e.Mislabels σ).Step σ e σ' := by
  rw [Lts.restrict_step, and_comm]
  exact and_congr_right (step_translates_iff hσ)

theorem Server.Registered.step (hσ : σ.Registered) (h : serverSystem.Step σ e σ') :
    σ'.Registered :=
  hσ.cleared.event h.1 h.2

/-- **The runs in which all messages carry their own channel's number** are the runs in which no
step passes an acknowledgement on, or makes a call, between channels of different numbers. -/
theorem lcn_translation (es : List Event) (σ : Server) : translatingSystem.Run {} es σ ↔
    (serverSystem.restrict fun σ e => ¬ e.Mislabels σ).Run {} es σ := by
  constructor
  · -- Either run is simulated by the other one, step by step, in registered servers.
    intro hrun
    obtain ⟨_, hrun', rfl, -⟩ := hrun.simulate (fun σ τ => σ = τ ∧ σ.Registered)
      (fun σ e σ' τ hτ hstep => ⟨σ', hτ.1 ▸ (translating_step_iff hτ.2).1 hstep, rfl,
        hτ.2.step hstep.1⟩) ⟨rfl, Server.Registered.start⟩
    exact hrun'
  · intro hrun
    obtain ⟨_, hrun', rfl, -⟩ := hrun.simulate (fun σ τ => σ = τ ∧ σ.Registered)
      (fun σ e σ' τ hτ hstep => ⟨σ', hτ.1 ▸ (translating_step_iff hτ.2).2 hstep, rfl,
        hτ.2.step hstep.2⟩) ⟨rfl, Server.Registered.start⟩
    exact hrun'

/-- **A number leaks.** `A` calls `B` on its channel 5, and `B` gets the call with the number 5
on its channel 1. -/
theorem lcn_leaked : ∃ σ σ' s, serverSystem.Reachable σ ∧
    serverSystem.Step σ (.message 0 0 (jzMsgNewCallRequest 5 (some ⟨[65], by decide⟩)
      (some ⟨[66], by decide⟩) 6 2 10 [])) σ' ∧
    s ∈ σ'.sent ∧ ¬ s.CarriesOwn σ σ' := by
  have hplay : ({} : Server).play (callEvents.take 4) = some _ := rfl
  refine ⟨_, _, _, reachable_of_play hplay, ⟨⟨_, rfl, rfl⟩, rfl⟩, List.mem_cons_self, ?_⟩
  intro h
  obtain ⟨-, hlcn⟩ := h 1 _ rfl rfl (.inr rfl)
  exact absurd hlcn (by decide)

end

end Application10
end Jozabad
