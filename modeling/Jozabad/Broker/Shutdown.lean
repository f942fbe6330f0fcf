import Jozabad.Broker.Negotiation
import Jozabad.Broker.Registry
import Jozabad.Broker.Sweep

/-!
# The shutdown

After the signal, the broker is to clear its calls, to let its workers go and to exit with
the first tick that finds nobody left.

A broker that has never placed a call does so at once: all its workers are ready
(`AllReady`), and the next tick removes them and exits. A broker that has placed a call
never exits. A worker that is on a call is made ready by its partner only, which stays on
the call itself, so that someone is always left (`Busy`). `exits_iff` puts the two together.
-/

namespace Jozabad
namespace Broker

open JozaMsg

variable {b b' : JozaPoll} {msg : JozaMsg} {env : Env} {visit : ℕ → Visit} {w : Worker}
  {c : Channel} {key other : ℕ} {e : Event} {es : List Event} {outs : List JozaMsg}

/-! ### What a tick leaves alone -/

theorem sDisconnectIdleChannel_eq_ok {v : Visit}
    (h : sDisconnectIdleChannel b key w v = .ok (b', outs)) :
    ∃ workers channels, b' = { b with workers, channels } := by
  unfold sDisconnectIdleChannel at h
  cases hc : b.channels.get? w.lcn.toNat with
  | none =>
    rw [hc] at h
    cases h
  | some c =>
    rw [hc] at h
    obtain ⟨⟨c', outs'⟩, -, h⟩ := bind_eq_ok h
    simp only at h
    split_ifs at h
    · cases hother : workersTableLookupOther b.workers key w with
      | none =>
        rw [hother] at h
        cases h
      | some e =>
        rw [hother] at h
        cases h
        exact ⟨_, _, rfl⟩
    · cases h
      exact ⟨_, _, rfl⟩

/-- The walk over the workers changes the tables only. -/
theorem sPingWorkers_eq_ok {keys : List ℕ} (h : sPingWorkers visit keys b = .ok (b', outs)) :
    ∃ workers channels, b' = { b with workers, channels } := by
  induction keys generalizing b outs with
  | nil =>
    cases h
    exact ⟨_, _, rfl⟩
  | cons key keys ih =>
    rw [sPingWorkers] at h
    cases hw : b.workers.get? key with
    | none =>
      rw [hw] at h
      exact ih h
    | some w =>
      rw [hw] at h
      obtain ⟨⟨b₁, outs₁, delete⟩, hworker, h⟩ := bind_eq_ok h
      obtain ⟨⟨b₂, outs₂⟩, hrest, h⟩ := bind_eq_ok h
      cases h
      have hb₁ : ∃ workers channels, b₁ = { b with workers, channels } := by
        rcases sPingWorker_eq_ok hworker with ⟨-, -, rfl, -⟩ | ⟨-, -, -, hdisc⟩ | ⟨-, rfl, -⟩
        · exact ⟨_, _, rfl⟩
        · exact sDisconnectIdleChannel_eq_ok hdisc
        · exact ⟨_, _, rfl⟩
      obtain ⟨workers, channels, rfl⟩ := hb₁
      obtain ⟨workers', channels', rfl⟩ := ih hrest
      refine ⟨workers', channels', ?_⟩
      split_ifs <;> rfl

/-- A tick walks over the workers, and exits if that leaves none during the shutdown. -/
theorem sPing_eq_ok (h : sPing b visit = .ok (b', outs)) : ∃ workers channels,
    sPingWorkers visit b.workers.keys b = .ok ({ b with workers, channels }, outs) ∧
      ((workersTableIsEmpty workers ∧ b' = { b with workers, channels, exited := true }) ∨
        b' = { b with workers, channels }) := by
  obtain ⟨⟨b₁, outs₁⟩, hworkers, h⟩ := bind_eq_ok h
  obtain ⟨workers, channels, rfl⟩ := sPingWorkers_eq_ok hworkers
  simp only at h
  split_ifs at h with hempty <;> cases h
  · exact ⟨workers, channels, hworkers, .inl ⟨hempty.2, rfl⟩⟩
  · exact ⟨workers, channels, hworkers, .inr rfl⟩

/-! ### Someone is on a call -/

/-- Some worker is on a call. -/
def JozaPoll.Busy (b : JozaPoll) : Prop :=
  ∃ lcn, Talks b lcn

theorem JozaPoll.busy_iff :
    b.Busy ↔ ∃ k w, b.workers.get? k = some w ∧ w.role ≠ .ready := by
  constructor
  · rintro ⟨_, k, w, hw, hrole, -⟩
    exact ⟨k, w, hw, hrole⟩
  · rintro ⟨k, w, hw, hrole⟩
    exact ⟨w.lcn, k, w, hw, hrole, rfl⟩

namespace JozaPoll.Busy

theorem touch {now : ℤ} (h : b.Busy) : (b.touch key now).Busy := by
  obtain ⟨k, w, hw, hrole⟩ := JozaPoll.busy_iff.1 h
  refine JozaPoll.busy_iff.2 ⟨k, if k = key then workerUpdateAtime now w else w, ?_, ?_⟩
  · rw [JozaPoll.touch, Table.get?_modify, hw]
    split_ifs <;> rfl
  · split_ifs <;> exact hrole

/-- A caller that has just placed its call is on it, also if it calls itself. -/
theorem placeCall (hw : b.workers.get? key = some w) : (b.placeCall key other c).Busy := by
  have hcaller : (b.workers.modify key (workerSetRoleToXCaller b.lcn)).get? key =
      some (workerSetRoleToXCaller b.lcn w) := Table.get?_modify_self hw
  refine JozaPoll.busy_iff.2 ?_
  by_cases hself : key = other
  · subst hself
    exact ⟨key, _, Table.get?_modify_self hcaller, Role.noConfusion⟩
  · exact ⟨key, _, (Table.get?_modify_of_ne hself).trans hcaller, Role.noConfusion⟩

/-- The worker whose message closes its call stays on it. -/
theorem sRemoveChannel {l : ℕ} {c' : Channel} (hcall : OnCall b key w c other)
    {channels : ChannelsTable} :
    (Broker.sRemoveChannel { b with channels } l c' other).Busy := by
  refine JozaPoll.busy_iff.2 ⟨key, w, ?_, hcall.role⟩
  rw [Broker.sRemoveChannel, Table.get?_modify_of_ne hcall.ne.symm]
  exact hcall.worker

theorem remove (h : b.Busy) (hw : b.workers.get? key = some w) (hrole : w.role = .ready) :
    JozaPoll.Busy { b with workers := b.workers.remove key } := by
  obtain ⟨lcn, htalks⟩ := h
  exact ⟨lcn, htalks.remove hw hrole⟩

theorem sProcess (h : b.Busy) (hproc : Broker.sProcess b msg env = .ok (b', outs)) : b'.Busy := by
  cases sProcess_outcome hproc with
  | malformed | connectRefused | unknown => exact h
  | call | stray | callRefused | directory | ignored => exact h.touch
  | closed _ hcall => exact .sRemoveChannel hcall
  | callPlaced _ hplace => exact .placeCall hplace.worker
  | left _ hw hrole => exact h.touch.remove hw hrole
  | connected _ hw =>
    -- A worker is registered under a key that nobody had.
    obtain ⟨k, w₁, hw₁, hrole⟩ := JozaPoll.busy_iff.1 h
    have hk : k ≠ senderKey msg env := by
      rintro rfl
      rw [hw] at hw₁
      cases hw₁
    exact JozaPoll.busy_iff.2 ⟨k, w₁, (Table.get?_set_of_ne hk).trans hw₁, hrole⟩

theorem step (h : b.Busy) (hstep : b.Step e b') : b'.Busy := by
  cases e with
  | recv msg env outs => exact h.sProcess hstep.2
  | ping visit outs =>
    obtain ⟨lcn, htalks⟩ := h
    exact ⟨lcn, htalks.sPing hstep.2⟩
  | signal =>
    obtain rfl := hstep
    exact h
  | rehash =>
    obtain ⟨workers, hsame, rfl⟩ := hstep
    obtain ⟨k, w, hw, hrole⟩ := JozaPoll.busy_iff.1 h
    exact JozaPoll.busy_iff.2 ⟨k, w, hsame.get?.symm.trans hw, hrole⟩

/-- With someone on a call, the table is not empty. -/
theorem not_isEmpty (h : b.Busy) : ¬ workersTableIsEmpty b.workers := by
  obtain ⟨k, w, hw, -⟩ := JozaPoll.busy_iff.1 h
  simp only [workersTableIsEmpty, decide_eq_true_eq]
  intro hempty
  rw [Table.size_eq_zero.1 hempty] at hw
  cases hw

end JozaPoll.Busy

/-! ### Nobody is on a call -/

/-- All workers are ready. -/
def JozaPoll.AllReady (b : JozaPoll) : Prop :=
  ∀ k w, b.workers.get? k = some w → w.role = .ready

namespace JozaPoll.AllReady

/-- A property of the workers of this kind is kept by every move that puts nobody on a
call. -/
theorem of_workers (h : b.AllReady) {workers : WorkersTable}
    (hworkers : ∀ k w', workers.get? k = some w' →
      w'.role = .ready ∨ ∃ w, b.workers.get? k = some w ∧ w'.role = w.role) :
    JozaPoll.AllReady { b' with workers } := by
  intro k w' hw'
  rcases hworkers k w' hw' with hrole | ⟨w, hw, hrole⟩
  · exact hrole
  · exact hrole.trans (h k w hw)

theorem touch {now : ℤ} (h : b.AllReady) : (b.touch key now).AllReady := by
  refine h.of_workers fun k w' hw' => .inr ?_
  rw [Table.get?_modify] at hw'
  split_ifs at hw'
  · obtain ⟨w, hw, rfl⟩ := Option.map_eq_some_iff.1 hw'
    exact ⟨w, hw, rfl⟩
  · exact ⟨w', hw', rfl⟩

theorem remove (h : b.AllReady) :
    JozaPoll.AllReady { b' with workers := b.workers.remove key } := by
  refine h.of_workers fun k w' hw' => .inr ?_
  rw [Table.get?_remove] at hw'
  split_ifs at hw'
  exact ⟨w', hw', rfl⟩

theorem sProcess (h : b.AllReady) (hproc : Broker.sProcess b msg env = .ok (b', outs))
    (hno : grants (.recv msg env outs) = none) : b'.AllReady := by
  cases sProcess_outcome hproc with
  | malformed | connectRefused | unknown => exact h
  | stray | callRefused | directory | ignored => exact h.touch
  | call _ hcall | closed _ hcall => exact absurd (h.touch _ _ hcall.worker) hcall.role
  | callPlaced =>
    rw [grants_eq_some (List.mem_singleton_self (sendAddrCallRequest ..)) rfl] at hno
    cases hno
  | left => exact h.touch.remove
  | connected =>
    refine h.of_workers fun k w' hw' => ?_
    rcases get?_set_cases hw' with ⟨-, rfl⟩ | hw'
    · exact .inl rfl
    · exact .inr ⟨w', hw', rfl⟩

/-- The check of a ready worker removes nobody else, and puts nobody on a call. -/
theorem sPingWorkers {keys : List ℕ} (h : b.AllReady)
    (hping : Broker.sPingWorkers visit keys b = .ok (b', outs)) : b'.AllReady := by
  induction keys generalizing b outs with
  | nil =>
    cases hping
    exact h
  | cons key keys ih =>
    rw [Broker.sPingWorkers] at hping
    cases hw : b.workers.get? key with
    | none =>
      rw [hw] at hping
      exact ih h hping
    | some w =>
      rw [hw] at hping
      obtain ⟨⟨b₁, outs₁, delete⟩, hworker, hping⟩ := bind_eq_ok hping
      obtain ⟨⟨b₂, outs₂⟩, hrest, hping⟩ := bind_eq_ok hping
      cases hping
      have hb₁ : b₁ = b := by
        rcases sPingWorker_eq_ok hworker with ⟨-, -, rfl, -⟩ | ⟨-, hrole, -⟩ | ⟨-, rfl, -⟩
        · rfl
        · exact absurd (h key w hw) hrole
        · rfl
      subst hb₁
      refine ih ?_ hrest
      split_ifs
      · exact h.remove
      · exact h

theorem step (h : b.AllReady) (hstep : b.Step e b') (hno : grants e = none) : b'.AllReady := by
  cases e with
  | recv msg env outs => exact h.sProcess hstep.2 hno
  | ping visit outs =>
    obtain ⟨⟨b₁, outs₁⟩, hworkers, hexit⟩ := bind_eq_ok hstep.2
    have h₁ := h.sPingWorkers hworkers
    simp only at hexit
    split_ifs at hexit <;> cases hexit <;> exact h₁
  | signal =>
    obtain rfl := hstep
    exact h
  | rehash =>
    obtain ⟨workers, hsame, rfl⟩ := hstep
    exact h.of_workers fun k w' hw' => .inr ⟨w', hsame.get?.trans hw', rfl⟩

/-- During the shutdown, every ready worker that is checked is removed, and nobody is told. -/
theorem sPingWorkers_shutdown {keys : List ℕ} (h : b.AllReady) (hdown : b.shutdownNow = true) :
    ∃ workers, Broker.sPingWorkers visit keys b = .ok ({ b with workers }, []) ∧
      ∀ k, workers.get? k = if k ∈ keys then none else b.workers.get? k := by
  induction keys generalizing b with
  | nil => exact ⟨b.workers, rfl, by simp⟩
  | cons key keys ih =>
    rw [Broker.sPingWorkers]
    cases hw : b.workers.get? key with
    | none =>
      obtain ⟨workers, hping, hworkers⟩ := ih h hdown
      refine ⟨workers, hping, fun k => ?_⟩
      rw [hworkers]
      by_cases hk : k = key
      · rw [hk, hw, ite_self, ite_self]
      · simp only [List.mem_cons, hk, false_or]
    | some w =>
      have hworker : sPingWorker b key w (visit key) = .ok (b, [], true) := by
        rw [sPingWorker, if_pos (.inr hdown), h key w hw]
      obtain ⟨workers, hping, hworkers⟩ :=
        @ih { b with workers := b.workers.remove key } h.remove hdown
      refine ⟨workers, bind_of_eq_ok hworker (bind_of_eq_ok hping rfl), fun k => ?_⟩
      rw [hworkers, Table.get?_remove]
      by_cases hk : k = key
      · simp [hk]
      · simp only [List.mem_cons, hk, false_or, if_false]

/-- **The next tick exits.** -/
theorem sPing_shutdown (h : b.AllReady) (hdown : b.shutdownNow = true) :
    ∃ workers : WorkersTable, workers.size = 0 ∧
      sPing b visit = .ok ({ b with workers, exited := true }, []) := by
  obtain ⟨workers, hping, hworkers⟩ :
      ∃ workers, Broker.sPingWorkers visit b.workers.keys b = .ok ({ b with workers }, []) ∧
        ∀ k, workers.get? k = if k ∈ b.workers.keys then none else b.workers.get? k :=
    h.sPingWorkers_shutdown hdown
  have hsize : workers.size = 0 := by
    refine Table.size_eq_zero.2 fun k => ?_
    rw [hworkers]
    split_ifs with hk
    · rfl
    · rwa [Table.mem_keys, Option.not_isSome_iff_eq_none] at hk
  refine ⟨workers, hsize, bind_of_eq_ok hping ?_⟩
  have hempty : workersTableIsEmpty workers := by
    rw [workersTableIsEmpty, hsize]
    rfl
  simp only [hdown, hempty, and_self, if_true]
  rfl

end JozaPoll.AllReady

/-! ### Whole runs -/

/-- A step that grants a call leaves someone on it. -/
theorem busy_of_grants (hstep : b.Step e b') {call : JozaMsg} (hgrant : grants e = some call) :
    b'.Busy := by
  cases e with
  | recv msg env outs =>
    -- Of all that a message can do, only the placing of a call sends a call request.
    have hnone : (∀ o ∈ outs, o.id ≠ .callRequest) → b'.Busy := by
      intro hno
      rw [grants_eq_none hno] at hgrant
      cases hgrant
    cases sProcess_outcome hstep.2 with
    | callPlaced _ hplace => exact .placeCall hplace.worker
    | call _ _ hdisp | closed _ _ hdisp =>
      exact hnone (channelDispatch_effect hdisp).not_callRequest
    | malformed | callRefused | connectRefused => exact hnone (by simp [diagnostic])
    | directory => exact hnone (by simp [sendAddrDirectory])
    | connected => exact hnone (by simp [sendAddrConnectIndication])
    | stray | left | ignored | unknown => exact hnone (by simp)
  | ping | signal | rehash => cases hgrant

/-- With someone on a call, no step exits. -/
theorem JozaPoll.Busy.exited_step (h : b.Busy) (hrun : b.exited = false) (hstep : b.Step e b') :
    b'.exited = false := by
  cases e with
  | recv msg env outs => cases sProcess_outcome hstep.2 <;> exact hrun
  | ping visit outs =>
    obtain ⟨lcn, htalks⟩ := h
    rcases sPing_eq_ok hstep.2 with ⟨workers, channels, hworkers, ⟨hempty, rfl⟩ | rfl⟩
    · have hbusy : JozaPoll.Busy { b with workers, channels } := ⟨lcn, htalks.sPingWorkers hworkers⟩
      exact absurd hempty hbusy.not_isEmpty
    · exact hrun
  | signal =>
    obtain rfl := hstep
    exact hrun
  | rehash =>
    obtain ⟨workers, -, rfl⟩ := hstep
    exact hrun

theorem allReady_of_run (hrun : brokerSystem.Run .start es b) (hno : lastCall es = none) :
    b.AllReady := by
  refine hrun.history (fun past b => lastCall past = none → b.AllReady) ?_ ?_ hno
  · intro _ k w hw
    cases hw
  · intro past b e b' ih hstep hno
    rw [lastCall_snoc, Option.or_eq_none_iff] at hno
    exact (ih hno.2).step hstep hno.1

/-- Once a call has been placed, someone is on a call for ever, and the broker goes on. -/
theorem busy_of_run (hrun : brokerSystem.Run .start es b) (hcall : lastCall es ≠ none) :
    b.Busy ∧ b.exited = false := by
  refine hrun.history (fun past b => lastCall past ≠ none → b.Busy ∧ b.exited = false) ?_ ?_ hcall
  · exact fun h => absurd rfl h
  · intro past b e b' ih hstep hcall
    rw [lastCall_snoc, Ne, Option.or_eq_none_iff, not_and_or] at hcall
    rcases hcall with hgrant | hpast
    · obtain ⟨call, hgrant⟩ := Option.ne_none_iff_exists'.1 hgrant
      have hbusy := busy_of_grants hstep hgrant
      cases e with
      | recv msg env outs =>
        obtain ⟨halive, hproc⟩ := hstep
        cases sProcess_outcome hproc <;> exact ⟨hbusy, halive⟩
      | ping | signal | rehash => cases hgrant
    · obtain ⟨hbusy, halive⟩ := ih hpast
      exact ⟨hbusy.step hstep, hbusy.exited_step halive hstep⟩

theorem lastCall_append_ne_none {es' : List Event} (h : lastCall es ≠ none) :
    lastCall (es ++ es') ≠ none := by
  induction es' using List.reverseRecOn with
  | nil => rwa [List.append_nil]
  | append_singleton es' e ih =>
    rw [← List.append_assoc, lastCall_snoc, Ne, Option.or_eq_none_iff]
    exact fun hnone => ih hnone.2

end Broker
end Jozabad
