import Jozabad.Broker.AbortFree
import Jozabad.Broker.LifeCycle

/-!
# The facilities of a call

The caller requests a packet size, a window and a throughput; the broker stores what is
requested with the channel, and the callee may answer with other values, as long as
each lies between the requested one and a default. After that the facilities stay as
they are.

* `Evolution` lists where the facilities of a stored channel can come from in one step,
  and `JozaPoll.Step.evolution` says that the list is complete.
* `facilities_negotiated` is the result over whole runs. A channel is there because
  of the last call request that was granted (`lastCall`): every call is given the same
  number, so that a new channel takes the place of an old one.
* The packet sizes and throughputs of stored channels are always valid codes. Windows
  are valid codes as long as no call request is granted whose window is not one
  (`GrantsBadWindow`): prevalidation checks the window as a sequence number, and lets
  the two next to the range pass.
-/

namespace Jozabad
namespace Broker

open JozaMsg

/-! ### Facilities -/

/-- The facilities of a call. -/
@[ext]
structure Facilities where
  pkt : ℕ
  window : ℕ
  tput : ℕ
  deriving DecidableEq

/-- The facilities stored with a channel. -/
def Channel.facilities (c : Channel) : Facilities :=
  { pkt := c.pkt, window := c.window, tput := c.tput }

/-- The facilities that a message names. -/
def JozaMsg.facilities (M : JozaMsg) : Facilities :=
  { pkt := M.packet.toNat, window := M.window.toNat, tput := M.throughput.toNat }

/-- Each facility lies between the one of `requested` and its default, inclusive. -/
structure Facilities.Between (f requested : Facilities) : Prop where
  pkt : f.pkt ∈ Set.uIcc requested.pkt p_negotiate
  window : f.window ∈ Set.uIcc requested.window WINDOW_NEGOTIATE
  tput : f.tput ∈ Set.uIcc requested.tput t_negotiate

theorem Facilities.Between.refl (f : Facilities) : f.Between f :=
  ⟨Set.left_mem_uIcc, Set.left_mem_uIcc, Set.left_mem_uIcc⟩

/-- Between a valid window and the default there are only valid ones. -/
theorem window_valid_of_mem {w requested : ℕ} (h : w ∈ Set.uIcc requested WINDOW_NEGOTIATE)
    (hr : WINDOW_MIN ≤ requested ∧ requested ≤ WINDOW_MAX) : WINDOW_MIN ≤ w ∧ w ≤ WINDOW_MAX := by
  rw [Set.mem_uIcc] at h
  simp only [WINDOW_NEGOTIATE, WINDOW_MIN, WINDOW_MAX, SEQ_MAX] at *
  omega

variable {b b' : JozaPoll} {msg : JozaMsg} {env : Env} {outs : List JozaMsg} {w w' : Worker}
  {c c' : Channel} {sock : Sock} {isY : Bool} {key other l : ℕ} {e : Event} {es : List Event}
  {t t' : ChannelsTable}

/-! ### One dispatch -/

/-- The facilities stay, and the call does not begin to wait again. -/
structure Carried (c c' : Channel) : Prop where
  facilities : c'.facilities = c.facilities
  waiting : Waiting c'.state → Waiting c.state

theorem Carried.refl (c : Channel) : Carried c c :=
  ⟨rfl, id⟩

theorem Carried.trans {c'' : Channel} (h : Carried c c') (h' : Carried c' c'') : Carried c c'' :=
  ⟨h'.facilities.trans h.facilities, fun hs => h.waiting (h'.waiting hs)⟩

/-- The call is accepted with the facilities of the message. -/
structure Accepted (c : Channel) (M : JozaMsg) (c' : Channel) : Prop where
  id : M.id = .callAccepted
  waiting : Waiting c.state
  state : c'.state = .dataTransfer
  facilities : c'.facilities = M.facilities
  between : c'.facilities.Between c.facilities

/-- A dispatch leaves the facilities alone, or accepts the call. -/
theorem Effect.carried_or_accepted (h : Effect c sock msg isY c' outs) :
    Carried c c' ∨ Accepted c msg c' := by
  -- A closed call does not wait.
  have hready : Waiting .ready → Waiting c.state := by
    rintro (hs | hs) <;> cases hs
  cases h with
  | accepted _ hid hs hM =>
    exact .inr ⟨hid, hs, rfl, rfl, negotiate_mem_uIcc hM.pkt, negotiate_mem_uIcc hM.window,
      negotiate_mem_uIcc hM.tput⟩
  | discard | refused | resetRequested => exact .inl (.refl _)
  | clear | disconnect | disconnectFailed | clearConfirmed => exact .inl ⟨rfl, hready⟩
  | collision _ _ hs => exact .inl ⟨rfl, fun _ => .inl hs⟩
  | reset | resetConfirmed => exact .inl ⟨rfl, by rintro (hs | hs) <;> cases hs⟩
  | clearRequested => exact .inl ⟨rfl, by rintro (hs | hs) <;> cases isY <;> cases hs⟩
  | data | rr | rnr =>
    refine .inl ⟨by simp [Channel.facilities], ?_⟩
    rw [Channel.setSelf_state]
    exact id

/-- A dispatch sends no `CALL_REQUEST`. -/
theorem Effect.not_callRequest (h : Effect c sock msg isY c' outs) :
    ∀ o ∈ outs, o.id ≠ .callRequest :=
  fun o ho => (h.id_ne o ho).1

/-! ### The channels table -/

/-- Every channel that is stored was stored before, and has been carried over. -/
def CarriedOver (t t' : ChannelsTable) : Prop :=
  ∀ l c', t'.get? l = some c' → ∃ c, t.get? l = some c ∧ Carried c c'

namespace CarriedOver

theorem refl (t : ChannelsTable) : CarriedOver t t :=
  fun _ c hc => ⟨c, hc, .refl c⟩

theorem trans {t'' : ChannelsTable} (h : CarriedOver t t') (h' : CarriedOver t' t'') :
    CarriedOver t t'' := by
  intro l c'' hc''
  obtain ⟨c', hc', hcarried'⟩ := h' l c'' hc''
  obtain ⟨c, hc, hcarried⟩ := h l c' hc'
  exact ⟨c, hc, hcarried.trans hcarried'⟩

theorem remove : CarriedOver t (t.remove l) := by
  intro l' c hc
  rw [Table.get?_remove] at hc
  split_ifs at hc
  exact ⟨c, hc, .refl c⟩

theorem modify {f : Channel → Channel} (hf : ∀ c, t.get? l = some c → Carried c (f c)) :
    CarriedOver t (t.modify l f) := by
  intro l' c' hc'
  rw [Table.get?_modify] at hc'
  split_ifs at hc' with hl
  · obtain ⟨c, hc, rfl⟩ := Option.map_eq_some_iff.1 hc'
    exact ⟨c, hc, hf c (hl ▸ hc)⟩
  · exact ⟨c', hc', .refl c'⟩

theorem sRemoveChannel : CarriedOver b.channels (Broker.sRemoveChannel b l c other).channels := by
  refine remove.trans (modify fun c _ => ⟨rfl, ?_⟩)
  rintro (hs | hs) <;> cases hs

/-- A tick carries the channels over: it disconnects, and accepts nothing. -/
theorem keptByTicks : KeptByTicks fun b => CarriedOver t b.channels where
  dispatch h hc hdisp := by
    refine h.trans (modify fun c₁ hc₁ => ?_)
    obtain rfl := Option.some.inj (hc.symm.trans hc₁)
    rcases (channelDispatch_effect hdisp).carried_or_accepted with hcarried | hacc
    · exact hcarried
    · cases hacc.id
  removeChannel _ _ _ h := h.trans sRemoveChannel
  workers h := h
  exit h := h

end CarriedOver

/-! ### One step of the broker -/

/-- The call request that a step grants: the broker forwards it. -/
def grants : Event → Option JozaMsg
  | .recv msg _ outs => if ∃ o ∈ outs, o.id = .callRequest then some msg else none
  | .ping _ _ | .signal | .rehash => none

/-- The last call request that was granted. -/
def lastCall (es : List Event) : Option JozaMsg :=
  es.foldl (fun last e => (grants e).or last) none

theorem lastCall_snoc : lastCall (es ++ [e]) = (grants e).or (lastCall es) := by
  simp [lastCall]

/-- The message is a call request that the broker grants. -/
def GrantsCall (b : JozaPoll) (msg : JozaMsg) (env : Env) : Prop :=
  prevalidateMessage msg = .unspecified ∧
    ∃ w other w', Placeable b (senderKey msg env) w msg other w'

/-- **Where the facilities of a channel come from**, in a step from `b`. -/
inductive Evolution (b : JozaPoll) (e : Event) (l : ℕ) (c' : Channel) : Prop
  /-- The channel was there before, with the same facilities. -/
  | carried {c : Channel} (hc : b.channels.get? l = some c) (h : Carried c c')
      (hother : l = b.lcn.toNat → grants e = none)
  /-- The step is a `CALL_ACCEPTED` that takes the channel to data transfer. -/
  | accepted {c : Channel} {msg : JozaMsg} {env : Env} {outs : List JozaMsg}
      (he : e = .recv msg env outs) (hno : grants e = none) (hc : b.channels.get? l = some c)
      (h : Accepted c msg c')
  /-- The step is a call request that is granted, and the channel is that of the call. -/
  | placed {msg : JozaMsg} {env : Env} {outs : List JozaMsg} (he : e = .recv msg env outs)
      (hcall : GrantsCall b msg env) (hl : l = b.lcn.toNat) (hgrant : grants e = some msg)
      (hs : c'.state = .xCallRequest) (h : c'.facilities = msg.facilities)

theorem CarriedOver.evolution (h : CarriedOver b.channels t') (hno : grants e = none)
    (hc' : t'.get? l = some c') : Evolution b e l c' := by
  obtain ⟨c, hc, hcarried⟩ := h l c' hc'
  exact .carried hc hcarried fun _ => hno

theorem grants_eq_none (h : ∀ o ∈ outs, o.id ≠ .callRequest) :
    grants (.recv msg env outs) = none := by
  refine if_neg ?_
  rintro ⟨o, ho, hid⟩
  exact h o ho hid

theorem grants_eq_some {o : JozaMsg} (ho : o ∈ outs) (hid : o.id = .callRequest) :
    grants (.recv msg env outs) = some msg := by
  unfold grants
  exact if_pos ⟨o, ho, hid⟩

/-- A channel after a dispatch. -/
theorem evolution_of_dispatch {key' : ℕ} (hc : b.channels.get? key' = some c)
    (hdisp : channelDispatch c sock msg isY = .ok (c', outs)) {c'' : Channel}
    (hc'' : (b.channels.modify key' fun _ => c').get? l = some c'') :
    Evolution b (.recv msg env outs) l c'' := by
  have heff := channelDispatch_effect hdisp
  have hno : grants (.recv msg env outs) = none := grants_eq_none heff.not_callRequest
  rw [Table.get?_modify] at hc''
  -- The channel that got the message, and then all others.
  split_ifs at hc'' with hl
  · subst hl
    rw [hc, Option.map_some, Option.some.injEq] at hc''
    subst hc''
    rcases heff.carried_or_accepted with hcarried | hacc
    · exact .carried hc hcarried fun _ => hno
    · exact .accepted rfl hno hc hacc
  · exact .carried hc'' (.refl c'') fun _ => hno

/-- The channel of a call that is placed has the facilities that are requested. -/
theorem channelCreate_facilities {ynameHi lcn : Lcn} {xzaddr yzaddr : Frame}
    {xname yname : CString}
    (h : channelCreate ynameHi lcn xzaddr xname yzaddr yname msg.packet.toNat msg.window.toNat
      msg.throughput.toNat = .ok c) : c.facilities = msg.facilities := by
  unfold channelCreate at h
  obtain ⟨_, -, h⟩ := bind_eq_ok h
  obtain ⟨_, -, h⟩ := bind_eq_ok h
  cases h
  rfl

theorem sProcess_evolution (h : sProcess b msg env = .ok (b', outs))
    (hc' : b'.channels.get? l = some c') : Evolution b (.recv msg env outs) l c' := by
  have hsame : ∀ {outs}, (∀ o ∈ outs, o.id ≠ .callRequest) → b.channels.get? l = some c' →
      Evolution b (.recv msg env outs) l c' :=
    fun hno hc => .carried hc (.refl c') fun _ => grants_eq_none hno
  -- Most messages leave the channels table alone.
  cases sProcess_outcome h with
  | malformed | callRefused | connectRefused => exact hsame (by simp [diagnostic]) hc'
  | stray | left | ignored | unknown => exact hsame (by simp) hc'
  | directory => exact hsame (by simp [sendAddrDirectory]) hc'
  | connected => exact hsame (by simp [sendAddrConnectIndication]) hc'
  | call _ hcall hdisp => exact evolution_of_dispatch (b := b) hcall.channel hdisp hc'
  | closed _ hcall hdisp hclosed =>
    have heff := channelDispatch_effect hdisp
    -- An acceptance does not close the call.
    have hcarried := heff.carried_or_accepted.resolve_right fun hacc => by
      rw [hacc.state] at hclosed
      cases hclosed
    have hover : CarriedOver b.channels (b.channels.modify _ fun _ => _) :=
      .modify fun c₁ hc₁ => Option.some.inj (hcall.channel.symm.trans hc₁) ▸ hcarried
    exact (hover.trans .sRemoveChannel).evolution (grants_eq_none heff.not_callRequest) hc'
  | callPlaced hpre hplace hnew =>
    obtain ⟨w₀, w₀', -, -, hplace₀⟩ := hplace.of_touch
    change (b.channels.set b.lcn.toNat _).get? l = some c' at hc'
    rw [Table.get?_set] at hc'
    -- The new channel is stored under the number of the call, the others stay.
    split_ifs at hc' with hl
    · have hfacilities := channelCreate_facilities hnew
      cases hc'
      exact .placed rfl ⟨hpre, w₀, _, w₀', hplace₀⟩ hl
        (grants_eq_some (List.mem_singleton_self _) rfl) rfl hfacilities
    · exact .carried hc' (.refl c') fun h => absurd h hl

theorem step_evolution (hstep : b.Step e b') (hc' : b'.channels.get? l = some c') :
    Evolution b e l c' := by
  cases e with
  | recv msg env outs => exact sProcess_evolution hstep.2 hc'
  -- A tick removes channels, and carries the others over.
  | ping visit outs =>
    have hover : CarriedOver b.channels b'.channels :=
      CarriedOver.keptByTicks.sPing (.refl _) hstep.2
    exact hover.evolution rfl hc'
  | signal =>
    obtain rfl := hstep
    exact .carried hc' (.refl c') fun _ => rfl
  | rehash =>
    obtain ⟨workers, -, rfl⟩ := hstep
    exact .carried hc' (.refl c') fun _ => rfl

/-- The number that the next call is given never changes. -/
theorem step_lcn (hstep : b.Step e b') : b'.lcn = b.lcn := by
  have hticks : KeptByTicks fun b' => b'.lcn = b.lcn :=
    ⟨fun h _ _ => h, fun _ _ _ h => h, fun h => h, fun h => h⟩
  cases e with
  -- Even a call that is placed keeps the number, as no other one is ever found.
  | recv msg env outs => cases sProcess_outcome hstep.2 <;> rfl
  | ping visit outs => exact hticks.sPing rfl hstep.2
  | signal =>
    obtain rfl := hstep
    rfl
  | rehash =>
    obtain ⟨workers, -, rfl⟩ := hstep
    rfl

/-! ### Whole runs -/

/-- **Facilities and history.** Every channel is that of the last call that was granted.
Its facilities lie between the ones requested then and the defaults; until the call is
accepted, they are the ones requested. -/
structure NegotiationInv (es : List Event) (b : JozaPoll) : Prop where
  lcn : b.lcn = LCN_MIN
  key : ∀ l c, b.channels.get? l = some c → l = LCN_MIN.toNat
  requested : ∀ l c, b.channels.get? l = some c → ∃ msg, lastCall es = some msg ∧
    c.facilities.Between msg.facilities ∧ (Waiting c.state → c.facilities = msg.facilities)

namespace NegotiationInv

theorem start : NegotiationInv [] .start := by
  refine ⟨rfl, ?_, ?_⟩
  · intro l c hc
    cases hc
  · intro l c hc
    cases hc

theorem step (h : NegotiationInv es b) (hstep : b.Step e b') : NegotiationInv (es ++ [e]) b' := by
  have hkey : ∀ l c', b'.channels.get? l = some c' → l = LCN_MIN.toNat := by
    intro l c' hc'
    cases step_evolution hstep hc' with
    | carried hc => exact h.key l _ hc
    | accepted _ _ hc => exact h.key l _ hc
    | placed _ _ hl => rw [hl, h.lcn]
  -- Any channel is stored under the number of the last call.
  refine ⟨(step_lcn hstep).trans h.lcn, hkey, ?_⟩
  intro l c' hc'
  rw [lastCall_snoc]
  cases step_evolution hstep hc' with
  -- The facilities are as they were, and the state is a later one at most.
  | carried hc hcarried hother =>
    obtain ⟨msg, hlast, hbetween, hwaiting⟩ := h.requested l _ hc
    rw [hother (by rw [h.lcn, h.key l _ hc]), Option.none_or]
    rw [← hcarried.facilities] at hbetween
    exact ⟨msg, hlast, hbetween,
      fun hs => hcarried.facilities.trans (hwaiting (hcarried.waiting hs))⟩
  -- The facilities of the answer lie between those of the request and the default.
  | accepted _ hno hc hacc =>
    obtain ⟨msg, hlast, -, hwaiting⟩ := h.requested l _ hc
    rw [hno, Option.none_or]
    have hbetween := hacc.between
    rw [hwaiting hacc.waiting] at hbetween
    refine ⟨msg, hlast, hbetween, ?_⟩
    rw [hacc.state]
    rintro (hs | hs) <;> cases hs
  -- The call request that was granted is the last one now.
  | placed _ _ _ hgrant _ hfacilities =>
    rw [hgrant, Option.some_or]
    exact ⟨_, rfl, hfacilities ▸ .refl _, fun _ => hfacilities⟩

theorem of_run (hrun : brokerSystem.Run .start es b) : NegotiationInv es b :=
  hrun.history NegotiationInv .start fun _ _ _ _ h hstep => h.step hstep

end NegotiationInv

/-! ### Windows -/

/-- The windows of the stored channels are valid. -/
def WindowsInRange (b : JozaPoll) : Prop :=
  ∀ l c, b.channels.get? l = some c → WINDOW_MIN ≤ c.window ∧ c.window ≤ WINDOW_MAX

/-- A call request is granted whose window does not pass the range check of windows. -/
def GrantsBadWindow (b : JozaPoll) : Event → Prop
  | .recv msg env _ => GrantsCall b msg env ∧ windowRngchk msg.window.toNat ≠ 0
  | .ping _ _ | .signal | .rehash => False

/-- A call request that is granted leaves a channel with what it requests. -/
theorem stored_of_grantsCall (hcall : GrantsCall b msg env)
    (h : sProcess b msg env = .ok (b', outs)) :
    ∃ c, b'.channels.get? b.lcn.toNat = some c ∧ c.facilities = msg.facilities := by
  obtain ⟨hpre, w, other, w', hplace⟩ := hcall
  have htouch : ∃ w₁', Placeable (b.touch (senderKey msg env) env.now) (senderKey msg env)
      (workerUpdateAtime env.now w) msg other w₁' := hplace.touch
  obtain ⟨w₁', htouch⟩ := htouch
  have hrun : b.shutdownNow = false := hplace.running
  rw [sProcess_of_ready hpre hplace.worker hplace.ready, sProcessMsgFromUnconnectedWorker,
    if_pos ⟨htouch.callRequest, by simp [hrun]⟩] at h
  -- The call is placed, and its channel has the facilities of the request.
  obtain ⟨c, hnew, hchannels⟩ := callRequest_of_placeable htouch h
  have hfacilities := channelCreate_facilities hnew
  refine ⟨{ c with state := .xCallRequest }, ?_, hfacilities⟩
  rw [hchannels]
  exact Table.get?_set_self

/-- **One step.** Windows in range stay in range exactly if no call request is granted
whose window is not. -/
theorem windowsInRange_step (h : WindowsInRange b) (hstep : b.Step e b') :
    WindowsInRange b' ↔ ¬ GrantsBadWindow b e := by
  constructor
  · intro h' hbad
    cases e with
    | recv msg env outs =>
      -- The call is stored with the window that it asks for.
      obtain ⟨c, hc, hfacilities⟩ := stored_of_grantsCall hbad.1 hstep.2
      have hwindow : c.window = msg.window.toNat := congrArg Facilities.window hfacilities
      have hvalid := h' _ c hc
      rw [hwindow, ← windowRngchk_eq_zero] at hvalid
      exact hbad.2 hvalid
    | ping | signal | rehash => exact hbad
  · intro hgood l c' hc'
    cases step_evolution hstep hc' with
    -- A window in range stays so, since an answer is taken only if it lies in between.
    | carried hc hcarried =>
      have hwindow : c'.window = _ := congrArg Facilities.window hcarried.facilities
      rw [hwindow]
      exact h l _ hc
    | accepted _ _ hc hacc => exact window_valid_of_mem hacc.between.window (h l _ hc)
    | placed he hcall _ _ _ hfacilities =>
      subst he
      have hwindow : c'.window = _ := congrArg Facilities.window hfacilities
      rw [hwindow]
      refine windowRngchk_eq_zero.1 ?_
      by_contra hbad
      exact hgood ⟨hcall, hbad⟩

/-- The broker as long as it grants no call request whose window is not valid. -/
def carefulSystem : Lts JozaPoll Event :=
  brokerSystem.restrict fun b e => ¬ GrantsBadWindow b e

/-- **The facilities of calls.** In every run from empty tables,

* a stored channel has valid codes for its packet size and throughput. Its facilities
  lie between the ones that were requested for it and the defaults, and are the ones
  requested until the call is accepted;
* in one more step, a channel keeps its facilities, or is taken to data transfer by a
  `CALL_ACCEPTED` with the facilities that this names, or is the channel of a call that
  is placed, with the facilities requested;
* if no call request has been granted whose window is not valid, then all windows are
  valid, and they stay so in one more step exactly if that grants no such request. -/
theorem facilities_negotiated {es : List Event} {b : JozaPoll}
    (hrun : brokerSystem.Run .start es b) :
    (∀ l c, b.channels.get? l = some c → packetRngchk c.pkt = 0 ∧ tputRngchk c.tput = 0 ∧
        ∃ msg, lastCall es = some msg ∧ c.facilities.Between msg.facilities ∧
          (Waiting c.state → c.facilities = msg.facilities)) ∧
      (∀ e b' l c', b.Step e b' → b'.channels.get? l = some c' → Evolution b e l c') ∧
      (carefulSystem.Run .start es b → WindowsInRange b ∧
        ∀ e b', b.Step e b' → (WindowsInRange b' ↔ ¬ GrantsBadWindow b e)) := by
  refine ⟨fun l c hc => ?_, fun e b' l c' hstep hc' => step_evolution hstep hc', fun hcareful => ?_⟩
  · have hvalid := (channelsValid_of_reachable (Lts.Reachable.run (.init rfl) hrun) l c hc).2
    exact ⟨hvalid.pkt, hvalid.tput, (NegotiationInv.of_run hrun).requested l c hc⟩
  · have hwindows : WindowsInRange b := by
      refine hcareful.preserves WindowsInRange (fun l c hc => by cases hc) ?_
      rintro b e b' h ⟨hgood, hstep⟩
      exact (windowsInRange_step h hstep).2 hgood
    exact ⟨hwindows, fun e b' hstep => windowsInRange_step hwindows hstep⟩

/-- The call that `A` places to `B`. -/
theorem facilities_negotiated_callAB : ∃ es b c, brokerSystem.Run .start es b ∧
    b.channels.get? 1 = some c ∧ packetRngchk c.pkt = 0 ∧ tputRngchk c.tput = 0 := by
  obtain ⟨b, hb, c, hc⟩ : ∃ b, recvAll .start [connectA, connectB, callAB] = .ok b ∧
      ∃ c, b.channels.get? 1 = some c := ⟨_, rfl, _, rfl⟩
  obtain ⟨es, hrun⟩ := recvAll_run rfl hb
  obtain ⟨hpkt, htput, -⟩ := (facilities_negotiated hrun).1 1 c hc
  exact ⟨es, b, c, hrun, hc, hpkt, htput⟩

/-- `A` calls `B` with a window of 8, and the channel is given it. -/
theorem window_out_of_range : ¬ ∀ (es : List Event) (b : JozaPoll),
    brokerSystem.Run .start es b → ∀ l c, b.channels.get? l = some c →
      WINDOW_MIN ≤ c.window ∧ c.window ≤ WINDOW_MAX := by
  intro hall
  -- `A` calls `B` with a window of eight.
  obtain ⟨b, hb, c, hc, hwindow⟩ :
      ∃ b, recvAll .start [connectA, connectB, { callAB with window := 8 }] = .ok b ∧
        ∃ c, b.channels.get? 1 = some c ∧ c.window = 8 := ⟨_, rfl, _, rfl, rfl⟩
  obtain ⟨es, hrun⟩ := recvAll_run rfl hb
  have hmax := (hall es b hrun 1 c hc).2
  rw [hwindow] at hmax
  exact absurd hmax (by decide)

end Broker
end Jozabad
