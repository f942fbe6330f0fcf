import Jozabad.Broker.Disconnect
import Jozabad.Broker.Forwarding
import Jozabad.Broker.LifeCycle
import Jozabad.Broker.Shutdown

/-!
# Calls inside the broker

`callSystem` is one call on its own. Here it is found again in the runs of the whole broker.

`receipts l` reads off a step of the broker what the call under `l` receives in it: the message
of a worker that bears the number, or the disconnects of a tick. The channel in the table is what
`entrySystem` makes of all that it has received since the call was placed, whatever else has
happened (`call_history`). It differs from a call on its own in what becomes of it when it
closes. As long as it is set up or transfers data, it is the call on its own (`run_of_live`).
-/

namespace Jozabad
namespace Broker

open JozaMsg

/-! ### A call in the table -/

/-- What the table keeps of a channel after a dispatch. A closed one has been taken for a
worker. -/
def Channel.kept (c : Channel) : Channel :=
  if channelIsClosed c then channelAsWorkerSetRoleToReady c else c

/-- A call as the table has it, under messages that pass the checks. -/
def entrySystem : Lts Channel Receipt where
  Init := IsNewCall
  Step c r c' := prevalidateMessage r.msg = .unspecified ∧
    ∃ c₁, callSystem.Step c r c₁ ∧ c' = c₁.kept

/-! ### What a call receives -/

instance {b : JozaPoll} {w : Worker} {v : Visit} : Decidable (b.Sweeps w v) :=
  inferInstanceAs (Decidable (_ ∨ _))

/-- A message, if it goes to the call under `l`. -/
def receiptsOf (b : JozaPoll) (l : ℕ) (msg : JozaMsg) (env : Env) (outs : List JozaMsg) :
    List Receipt :=
  match b.workers.get? (senderKey msg env) with
  | none => []
  | some w =>
    if prevalidateMessage msg = .unspecified ∧ w.role ≠ .ready ∧ w.lcn.toNat = l ∧
        (b.channels.get? l).isSome ∧
          (workersTableLookupOther b.workers (senderKey msg env) w).isSome then
      [{ isY := w.isY, msg, sock := env.sock, outs }]
    else []

/-- A tick disconnects the call of a worker, as if the worker had asked for it. -/
def sweptReceipt (w : Worker) (v : Visit) (outs : List JozaMsg) : Receipt :=
  { isY := w.isY, msg := { id := .disconnect }, sock := v.sock, outs }

/-- The disconnects of the call under `l` in a walk over the workers. -/
def receiptsSwept (visit : ℕ → Visit) (l : ℕ) : List ℕ → JozaPoll → List Receipt
  | [], _ => []
  | key :: keys, b =>
    match b.workers.get? key with
    | none => receiptsSwept visit l keys b
    | some w =>
      match sPingWorker b key w (visit key) with
      -- The walk does not get further.
      | .error _ => []
      | .ok (b', outs, delete) =>
        (if b.Sweeps w (visit key) ∧ w.role ≠ .ready ∧ w.lcn.toNat = l then
          [sweptReceipt w (visit key) outs] else []) ++
          receiptsSwept visit l keys
            (if delete then { b' with workers := b'.workers.remove key } else b')

/-- What the call under `l` receives in a step. -/
def receipts (l : ℕ) : JozaPoll × Event → List Receipt
  | (b, .recv msg env outs) => receiptsOf b l msg env outs
  | (b, .ping visit _) => receiptsSwept visit l b.workers.keys b
  | (_, .signal) | (_, .rehash) => []

/-- The step places the call `c` under `l`, and the callee is told. -/
inductive Placed (l : ℕ) : JozaPoll × Event → Channel → Prop
  | callRequest {b msg env w other w' c} (hpre : prevalidateMessage msg = .unspecified)
      (hplace : Placeable b (senderKey msg env) w msg other w') (hl : b.lcn.toNat = l)
      (hnew : channelCreate env.ynameHi b.lcn w.zaddr w.address w'.zaddr w'.address
        msg.packet.toNat msg.window.toNat msg.throughput.toNat = .ok c) :
      Placed l (b, .recv msg env [sendAddrCallRequest w'.zaddr msg.callingAddress
        msg.calledAddress msg.packet msg.window msg.throughput msg.data])
        { c with state := .xCallRequest }

/-- In the run `ts` the call `c₀` has been placed under `l`, and has received `rs` since. No
other call has been placed under the number since. -/
def Chronicle (l : ℕ) (ts : List (JozaPoll × Event)) (c₀ : Channel) (rs : List Receipt) : Prop :=
  ∃ ts₁ t ts₂, ts = ts₁ ++ t :: ts₂ ∧ Placed l t c₀ ∧ (∀ t' ∈ ts₂, ∀ c, ¬ Placed l t' c) ∧
    rs = ts₂.flatMap (receipts l)

variable {b b' : JozaPoll} {msg : JozaMsg} {env : Env} {visit : ℕ → Visit} {w : Worker}
  {c c' c₀ c₁ : Channel} {key other k l : ℕ} {e : Event} {t : JozaPoll × Event}
  {ts : List (JozaPoll × Event)} {r : Receipt} {rs seg : List Receipt} {sock : Sock} {isY : Bool}
  {outs : List JozaMsg}

namespace Chronicle

theorem placed (h : Placed l t c₀) : Chronicle l (ts ++ [t]) c₀ [] :=
  ⟨ts, t, [], rfl, h, by simp, rfl⟩

theorem snoc (h : Chronicle l ts c₀ rs) (hno : ∀ c, ¬ Placed l t c) :
    Chronicle l (ts ++ [t]) c₀ (rs ++ receipts l t) := by
  obtain ⟨ts₁, t₀, ts₂, rfl, hplaced, hsince, rfl⟩ := h
  refine ⟨ts₁, t₀, ts₂ ++ [t], by simp, hplaced, ?_, by simp⟩
  intro t' ht'
  rcases List.mem_append.1 ht' with ht' | ht'
  · exact hsince t' ht'
  · rw [List.mem_singleton.1 ht']
    exact hno

theorem isNewCall (h : Chronicle l ts c₀ rs) : IsNewCall c₀ := by
  obtain ⟨_, _, _, -, hplaced, -⟩ := h
  cases hplaced with
  | callRequest _ _ _ hnew => exact ⟨_, _, _, _, _, _, _, _, _, _, hnew, rfl⟩

end Chronicle

/-- A call is placed under the number that the broker holds. -/
theorem Placed.lcn_eq (h : Placed l t c) : t.1.lcn.toNat = l := by
  cases h with
  | callRequest _ _ hl => exact hl

/-- A step that sends no call request places no call. -/
theorem not_placed (hno : grants e = none) : ¬ Placed l (b, e) c := by
  rintro ⟨⟩
  rw [grants_eq_some (List.mem_singleton_self (sendAddrCallRequest ..)) rfl] at hno
  cases hno

/-! ### Messages of workers -/

/-- A worker on a call talks to it. -/
theorem receiptsOf_onCall (hpre : prevalidateMessage msg = .unspecified)
    (hcall : OnCall b (senderKey msg env) w c other) :
    receiptsOf b l msg env outs =
      if w.lcn.toNat = l then [{ isY := w.isY, msg, sock := env.sock, outs }] else [] := by
  obtain ⟨w', hother⟩ := hcall.other
  unfold receiptsOf
  rw [hcall.worker]
  by_cases hl : w.lcn.toNat = l
  · subst hl
    simp [hpre, hcall.role, hcall.channel, hother]
  · simp [hl]

/-- Nobody else talks to a call. -/
theorem receiptsOf_eq_nil (h : prevalidateMessage msg = .unspecified →
    ∀ w c other, ¬ OnCall b (senderKey msg env) w c other) :
    receiptsOf b l msg env outs = [] := by
  unfold receiptsOf
  cases hw : b.workers.get? (senderKey msg env) with
  | none => rfl
  | some w =>
    dsimp only
    split_ifs with hon
    · obtain ⟨hpre, hrole, rfl, hchannel, hother⟩ := hon
      obtain ⟨c, hc⟩ := Option.isSome_iff_exists.1 hchannel
      obtain ⟨⟨other, w'⟩, hfound⟩ := Option.isSome_iff_exists.1 hother
      exact absurd ⟨hw, hrole, hc, w', hfound⟩ (h hpre w c other)
    · rfl

/-- A ready worker is on no call. -/
theorem not_onCall_of_ready {now : ℤ} (hw : (b.touch key now).workers.get? key = some w)
    (hrole : w.role = .ready) {w₁ : Worker} : ¬ OnCall b key w₁ c other := by
  intro hcall
  have hcall' : OnCall (b.touch key now) key (workerUpdateAtime now w₁) c other := hcall.touch
  have hsame := hcall'.worker
  rw [hw, Option.some.injEq] at hsame
  exact hcall'.role (hsame ▸ hrole)

/-- Nor is a worker that is not registered. -/
theorem not_onCall_of_unknown (hw : b.workers.get? key = none) : ¬ OnCall b key w c other := by
  intro hcall
  rw [hcall.worker] at hw
  cases hw

/-! ### One dispatch -/

/-- The channel under `l` is what comes of the one before under `rs`. -/
def FromEntry (b : JozaPoll) (l : ℕ) (rs : List Receipt) (c' : Channel) : Prop :=
  ∃ c, b.channels.get? l = some c ∧ entrySystem.Run c rs c'

/-- A channel is removed: it may be another one that goes, and nothing else changes but the
channel itself. -/
theorem sRemoveChannel_get? (h : (sRemoveChannel b k c₁ other).channels.get? l = some c') :
    ∃ c, b.channels.get? l = some c ∧
      c' = if l = k then channelAsWorkerSetRoleToReady c else c := by
  rw [sRemoveChannel, Table.get?_modify, Table.get?_remove] at h
  by_cases hgone : l = (channelAsWorkerGetLcn c₁).toNat
  · rw [if_pos hgone, Option.map_none, ite_self] at h
    cases h
  rw [if_neg hgone] at h
  by_cases hl : l = k
  · rw [if_pos hl, Option.map_eq_some_iff] at h
    obtain ⟨c, hc, rfl⟩ := h
    exact ⟨c, hc, (if_pos hl).symm⟩
  · rw [if_neg hl] at h
    exact ⟨c', h, (if_neg hl).symm⟩

/-- **A dispatch** is a step of the call it is meant for, and of no other. -/
theorem fromEntry_dispatch {channels : ChannelsTable} (other : ℕ)
    (hpre : prevalidateMessage msg = .unspecified) (hc : b.channels.get? k = some c)
    (hdisp : channelDispatch c sock msg isY = .ok (c₁, outs))
    (hopen : c₁.state ≠ .ready → channels = b.channels.modify k fun _ => c₁)
    (hclosed : c₁.state = .ready → channels =
      (sRemoveChannel { b with channels := b.channels.modify k fun _ => c₁ } k c₁ other).channels)
    (hc' : channels.get? l = some c') :
    FromEntry b l (if k = l then [{ isY, msg, sock, outs }] else []) c' := by
  have hmodified : ∀ c₂, (b.channels.modify k fun _ => c₁).get? l = some c₂ →
      (l = k ∧ c₂ = c₁) ∨ (l ≠ k ∧ b.channels.get? l = some c₂) := by
    intro c₂ hc₂
    by_cases hl : l = k
    · subst hl
      rw [Table.get?_modify_self hc, Option.some.injEq] at hc₂
      exact .inl ⟨rfl, hc₂.symm⟩
    · rw [Table.get?_modify_of_ne hl] at hc₂
      exact .inr ⟨hl, hc₂⟩
  have hkept : (l = k ∧ c' = c₁.kept) ∨ (l ≠ k ∧ b.channels.get? l = some c') := by
    unfold Channel.kept channelIsClosed
    by_cases hs : c₁.state = .ready
    · rw [hclosed hs] at hc'
      obtain ⟨c₂, hc₂, rfl⟩ := sRemoveChannel_get? hc'
      rcases hmodified c₂ hc₂ with ⟨rfl, rfl⟩ | ⟨hl, hc₂⟩
      · simp [hs]
      · exact .inr ⟨hl, by rw [if_neg hl, hc₂]⟩
    · rw [hopen hs] at hc'
      rw [decide_eq_false hs, if_neg Bool.false_ne_true]
      exact hmodified c' hc'
  rcases hkept with ⟨rfl, hc'⟩ | ⟨hl, hc'⟩
  · rw [if_pos rfl]
    refine ⟨c, hc, .single ⟨hpre, c₁, ?_, hc'⟩⟩
    change callRecv c sock msg isY = .ok (c₁, outs)
    rw [callRecv, if_neg (not_not.2 hpre), hdisp]
  · rw [if_neg (Ne.symm hl)]
    exact ⟨c', hc', .nil c'⟩

/-! ### One step of the broker -/

/-- What a step makes of the channel under `l`: it is that of a new call, or it is the one from
before with what it has received. -/
theorem sProcess_entry (h : sProcess b msg env = .ok (b', outs))
    (hc' : b'.channels.get? l = some c') :
    Placed l (b, .recv msg env outs) c' ∨
      (∀ c, ¬ Placed l (b, .recv msg env outs) c) ∧
        FromEntry b l (receiptsOf b l msg env outs) c' := by
  -- Where nobody talks to a call and none is placed, the channels stay as they are.
  have hsame {outs : List JozaMsg} (hids : ∀ o ∈ outs, o.id ≠ .callRequest)
      (hno : prevalidateMessage msg = .unspecified →
        ∀ w c other, ¬ OnCall b (senderKey msg env) w c other)
      (hc : b.channels.get? l = some c') : Placed l (b, .recv msg env outs) c' ∨
        (∀ c, ¬ Placed l (b, .recv msg env outs) c) ∧
          FromEntry b l (receiptsOf b l msg env outs) c' := by
    rw [receiptsOf_eq_nil hno]
    exact .inr ⟨fun _ => not_placed (grants_eq_none hids), c', hc, .nil c'⟩
  cases sProcess_outcome h with
  | malformed hpre => exact hsame (by simp [diagnostic]) (fun hok => absurd hok hpre) hc'
  | stray _ hw _ hmissing =>
    refine hsame (by simp) (fun _ w₁ c other hcall => ?_) hc'
    have hcall' : OnCall (b.touch (senderKey msg env) env.now) (senderKey msg env)
        (workerUpdateAtime env.now w₁) c other := hcall.touch
    have hw₁ := hcall'.worker
    rw [hw, Option.some.injEq] at hw₁
    exact hmissing c other (hw₁ ▸ hcall')
  | callRefused _ _ _ hw hrole =>
    exact hsame (by simp [diagnostic]) (fun _ _ _ _ => not_onCall_of_ready hw hrole) hc'
  | directory _ hw hrole =>
    exact hsame (by simp [sendAddrDirectory]) (fun _ _ _ _ => not_onCall_of_ready hw hrole) hc'
  | left _ hw hrole | ignored _ hw hrole =>
    exact hsame (by simp) (fun _ _ _ _ => not_onCall_of_ready hw hrole) hc'
  | connectRefused _ _ _ hw =>
    exact hsame (by simp [diagnostic]) (fun _ _ _ _ => not_onCall_of_unknown hw) hc'
  | connected _ hw =>
    exact hsame (by simp [sendAddrConnectIndication]) (fun _ _ _ _ => not_onCall_of_unknown hw) hc'
  | unknown _ hw => exact hsame (by simp) (fun _ _ _ _ => not_onCall_of_unknown hw) hc'
  | @call w c other c₁ _ hpre hcall hdisp hopen =>
    obtain ⟨w₀, rfl, hcall₀⟩ := hcall.of_touch
    have hids := (channelDispatch_effect hdisp).not_callRequest
    rw [receiptsOf_onCall hpre hcall₀]
    exact .inr ⟨fun _ => not_placed (grants_eq_none hids),
      fromEntry_dispatch other hpre hcall₀.channel hdisp (fun _ => rfl)
        (fun hclosed => absurd hclosed hopen) hc'⟩
  | @closed w c other c₁ _ hpre hcall hdisp hclosed =>
    obtain ⟨w₀, rfl, hcall₀⟩ := hcall.of_touch
    have hids := (channelDispatch_effect hdisp).not_callRequest
    rw [receiptsOf_onCall hpre hcall₀]
    exact .inr ⟨fun _ => not_placed (grants_eq_none hids),
      fromEntry_dispatch other hpre hcall₀.channel hdisp (fun hopen => absurd hclosed hopen)
        (fun _ => rfl) hc'⟩
  | @callPlaced w w' other c hpre hplace hnew =>
    obtain ⟨w₀, w₀', rfl, rfl, hplace₀⟩ := hplace.of_touch
    -- The callee is the same, whether or not it is the caller that has been refreshed.
    have hzaddr : (if other = senderKey msg env then workerUpdateAtime env.now w₀' else w₀').zaddr =
        w₀'.zaddr := by
      split_ifs <;> rfl
    have haddress : (if other = senderKey msg env then workerUpdateAtime env.now w₀'
        else w₀').address = w₀'.address := by
      split_ifs <;> rfl
    rw [hzaddr, haddress] at hnew
    rw [hzaddr]
    have hstored : (b.channels.set b.lcn.toNat { c with state := .xCallRequest }).get? l =
        some c' := hc'
    by_cases hl : l = b.lcn.toNat
    · subst hl
      rw [Table.get?_set_self, Option.some.injEq] at hstored
      subst hstored
      exact .inl (.callRequest hpre hplace₀ rfl hnew)
    · right
      rw [Table.get?_set_of_ne hl] at hstored
      rw [receiptsOf_eq_nil fun _ _ _ _ => not_onCall_of_ready hplace.worker hplace.ready]
      refine ⟨?_, c', hstored, .nil c'⟩
      exact fun _ hplaced => hl hplaced.lcn_eq.symm

theorem sDisconnectIdleChannel_entry {v : Visit}
    (h : sDisconnectIdleChannel b key w v = .ok (b', outs))
    (hc' : b'.channels.get? l = some c') :
    FromEntry b l (if w.lcn.toNat = l then [sweptReceipt w v outs] else []) c' := by
  unfold sDisconnectIdleChannel at h
  cases hc : b.channels.get? w.lcn.toNat with
  | none =>
    rw [hc] at h
    cases h
  | some c =>
    rw [hc] at h
    obtain ⟨⟨c₁, outs₁⟩, hdisp, h⟩ := bind_eq_ok h
    have hpre : prevalidateMessage { id := .disconnect } = .unspecified :=
      prevalidateMessage_disconnect rfl
    dsimp only at h
    split_ifs at h with hclosed
    · cases hother : workersTableLookupOther b.workers key w with
      | none =>
        rw [hother] at h
        cases h
      | some entry =>
        rw [hother] at h
        cases h
        exact fromEntry_dispatch entry.1 hpre hc hdisp
          (fun hopen => absurd (of_decide_eq_true hclosed) hopen) (fun _ => rfl) hc'
    · cases h
      exact fromEntry_dispatch key hpre hc hdisp (fun _ => rfl)
        (fun hs => absurd (decide_eq_true hs) hclosed) hc'

theorem sPingWorkers_entry {keys : List ℕ} (h : sPingWorkers visit keys b = .ok (b', outs))
    (hc' : b'.channels.get? l = some c') : FromEntry b l (receiptsSwept visit l keys b) c' := by
  induction keys generalizing b outs with
  | nil =>
    cases h
    exact ⟨c', hc', .nil c'⟩
  | cons key keys ih =>
    rw [sPingWorkers] at h
    cases hw : b.workers.get? key with
    | none =>
      rw [hw] at h
      simp only [receiptsSwept, hw]
      exact ih h
    | some w =>
      rw [hw] at h
      obtain ⟨⟨b₁, outs₁, delete⟩, hworker, h⟩ := bind_eq_ok h
      obtain ⟨⟨b₂, outs₂⟩, hrest, h⟩ := bind_eq_ok h
      cases h
      obtain ⟨c₁, hc₁, hrun⟩ := ih hrest
      -- The deletion of a worker leaves the channels alone.
      have hchannel : b₁.channels.get? l = some c₁ := by
        split_ifs at hc₁ <;> exact hc₁
      simp only [receiptsSwept, hw, hworker]
      obtain ⟨c, hc, hfirst⟩ : FromEntry b l (if b.Sweeps w (visit key) ∧ w.role ≠ .ready ∧
          w.lcn.toNat = l then [sweptReceipt w (visit key) outs₁] else []) c₁ := by
        rcases sPingWorker_eq_ok hworker with ⟨-, hrole, rfl, -, -⟩ | ⟨hsweep, hrole, -, hdisc⟩ |
          ⟨hstays, rfl, -⟩
        · rw [if_neg fun hswept => hswept.2.1 hrole]
          exact ⟨c₁, hchannel, .nil c₁⟩
        · have hentry := sDisconnectIdleChannel_entry hdisc hchannel
          simp only [hsweep, hrole, ne_eq, not_false_eq_true, true_and]
          exact hentry
        · rw [if_neg fun hswept => hstays hswept.1]
          exact ⟨c₁, hchannel, .nil c₁⟩
      exact ⟨c, hc, hfirst.append hrun⟩

/-- **A step of the broker** places a call under the number, or is what the call under it makes
of all it receives in the step. -/
theorem step_entry (hstep : b.Step e b') (hc' : b'.channels.get? l = some c') :
    Placed l (b, e) c' ∨
      (∀ c, ¬ Placed l (b, e) c) ∧ FromEntry b l (receipts l (b, e)) c' := by
  cases e with
  | recv msg env outs => exact sProcess_entry hstep.2 hc'
  | ping visit outs =>
    right
    refine ⟨fun _ => not_placed rfl, ?_⟩
    obtain ⟨workers, channels, hworkers, hb'⟩ := sPing_eq_ok hstep.2
    refine sPingWorkers_entry hworkers ?_
    rcases hb' with ⟨-, rfl⟩ | rfl <;> exact hc'
  | signal =>
    obtain rfl := hstep
    exact .inr ⟨fun _ => not_placed rfl, c', hc', .nil c'⟩
  | rehash =>
    obtain ⟨workers, -, rfl⟩ := hstep
    exact .inr ⟨fun _ => not_placed rfl, c', hc', .nil c'⟩

/-! ### Whole runs -/

/-- A channel in the table is that of the call that has been placed last under its number, after
all that it has received since. -/
theorem exists_entry_run (hrun : brokerSystem.traced.Run .start ts b)
    (hc : b.channels.get? l = some c) :
    ∃ c₀ rs, Chronicle l ts c₀ rs ∧ entrySystem.Run c₀ rs c := by
  refine hrun.history (fun past b => ∀ c, b.channels.get? l = some c →
    ∃ c₀ rs, Chronicle l past c₀ rs ∧ entrySystem.Run c₀ rs c) ?_ ?_ c hc
  · intro c hc
    cases hc
  · rintro past b ⟨b₀, e⟩ b' ih ⟨rfl, hstep⟩ c' hc'
    rcases step_entry hstep hc' with hplaced | ⟨hno, c, hc, hreceipts⟩
    · exact ⟨c', [], .placed hplaced, .nil c'⟩
    · obtain ⟨c₀, rs, hchronicle, hrun⟩ := ih c hc
      exact ⟨c₀, _, hchronicle.snoc hno, hrun.append hreceipts⟩

/-! ### Calls that are not over -/

/-- The call is set up or transfers data. -/
def Live (s : State) : Prop :=
  Waiting s ∨ InTransfer s

theorem Live.ne_ready {s : State} (h : Live s) : s ≠ .ready := by
  rintro rfl
  rcases h with (h | h) | h | h | h <;> cases h

/-- A call that is live has been live all the time. -/
theorem Effect.live (h : Effect c sock msg isY c' outs) (hs : Live c'.state) : Live c.state := by
  cases h with
  | discard | refused | resetRequested => exact hs
  | reset _ hs' => exact .inr hs'
  | collision _ _ hs' => exact .inl (.inl hs')
  | accepted _ _ hs' => exact .inl hs'
  | data _ hs' | rr _ hs' | rnr _ hs' => exact .inr (.inl hs')
  | resetConfirmed hs' =>
    rw [hs']
    cases isY
    · exact .inr (.inr (.inr rfl))
    · exact .inr (.inr (.inl rfl))
  | clear | disconnect | disconnectFailed | clearConfirmed => exact absurd rfl hs.ne_ready
  | clearRequested =>
    cases isY <;> rcases hs with (hs | hs) | hs | hs | hs <;> cases hs

/-- **A call that is not over** is a call on its own: nothing but its messages has had a part
in it. -/
theorem run_of_live (hrun : entrySystem.Run c₀ rs c) (hs : Live c.state) :
    openSystem.Run c₀ rs c := by
  refine hrun.history (fun past c => Live c.state → openSystem.Run c₀ past c)
    (fun _ => .nil c₀) ?_ hs
  rintro past c r c' ih ⟨hpre, c₁, hstep, rfl⟩ hs
  have hkept : c₁.kept = c₁ := by
    refine if_neg fun hclosed => hs.ne_ready ?_
    rw [Channel.kept, if_pos hclosed]
    rfl
  rw [hkept] at hs ⊢
  have hlive : Live c.state := by
    rcases callSystem_step_cases hstep with ⟨hbad, -⟩ | ⟨-, heff⟩
    · exact absurd hpre hbad
    · exact heff.live hs
  exact (ih hlive).append (.single ⟨hlive.ne_ready, hstep⟩)

/-- **The history of a channel.** In every run of the broker, a channel in the table is that of
the call that has been placed last under its number, after all the messages of workers that bear
the number and all disconnects by ticks since. If the call is not over, the channel is that of a
call on its own. -/
theorem call_history (hrun : brokerSystem.traced.Run .start ts b)
    (hc : b.channels.get? l = some c) :
    ∃ c₀ rs, Chronicle l ts c₀ rs ∧ entrySystem.Run c₀ rs c ∧
      (Live c.state → openSystem.Run c₀ rs c) := by
  obtain ⟨c₀, rs, hchronicle, hentry⟩ := exists_entry_run hrun hc
  exact ⟨c₀, rs, hchronicle, hentry, run_of_live hentry⟩

/-- `B` accepts the call of `A`. -/
def acceptAB : JozaMsg :=
  { callAB with id := .callAccepted, address := connectB.address }

/-- `A` sends data on the call. -/
def dataAB : JozaMsg :=
  { id := .data, address := connectA.address, ps := 0, data := [1] }

/-- The call of `A` to `B` is accepted, and used. -/
theorem run_callAB : ∃ ts b b' o, brokerSystem.traced.Run .start ts b ∧
    b.Step (.recv dataAB quietEnv [o]) b' ∧ o.id = .data ∧
      ∃ c, b'.channels.get? 1 = some c ∧ c.state = .dataTransfer ∧
        WINDOW_MIN ≤ c.window ∧ c.window ≤ WINDOW_MAX := by
  obtain ⟨b, hrecv, b', o, hstep, ho, hc⟩ : ∃ b,
      recvAll .start [connectA, connectB, callAB, acceptAB] = .ok b ∧
        ∃ b' o, b.Step (.recv dataAB quietEnv [o]) b' ∧ o.id = .data ∧
          ∃ c, b'.channels.get? 1 = some c ∧ c.state = .dataTransfer ∧
            WINDOW_MIN ≤ c.window ∧ c.window ≤ WINDOW_MAX :=
    ⟨_, rfl, _, _, ⟨rfl, rfl⟩, rfl, _, rfl, rfl, by decide, by decide⟩
  obtain ⟨es, hrun⟩ := recvAll_run rfl hrecv
  obtain ⟨ts, htraced, -⟩ := hrun.traced
  exact ⟨ts, b, b', o, htraced, hstep, ho, hc⟩

/-- Its channel is that of a call on its own. -/
theorem call_history_callAB : ∃ ts b c, brokerSystem.traced.Run .start ts b ∧
    b.channels.get? 1 = some c ∧ ∃ c₀ rs, Chronicle 1 ts c₀ rs ∧ openSystem.Run c₀ rs c := by
  obtain ⟨ts, b, b', o, hrun, hstep, -, c, hc, hs, -⟩ := run_callAB
  have hrun' : brokerSystem.traced.Run .start (ts ++ [(b, .recv dataAB quietEnv [o])]) b' :=
    hrun.append (.single ⟨rfl, hstep⟩)
  obtain ⟨c₀, rs, hchronicle, -, hopen⟩ := call_history hrun' hc
  exact ⟨_, b', c, hrun', hc, c₀, rs, hchronicle, hopen (.inr (.inl hs))⟩

end Broker
end Jozabad
