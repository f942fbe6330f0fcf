import Jozabad.Broker.Teardown

/-!
# The sweep of idle workers (`s_ping_`)

A tick is to remove the ready workers that have been idle for too long, and to close the
calls that have such a worker on one of their sides, whatever the order in which the table
is traversed. `sweptWorker` says what is to become of one worker, and `Swept` what is to
become of the two tables.

The first half holds: where all the workers on a call are active, the check of one worker
concerns no other one (`sPingWorkers_active`). The second half fails for every call. Its
worker that is checked hands over its channel in its own place, and so keeps its role and
its number (`Talks.sDisconnectIdleChannel`). Someone is therefore left on each call, and a
tick is a sweep exactly if no worker on a call is idle (`sweepsIdle_iff`).
-/

namespace Jozabad
namespace Broker

open JozaMsg

variable {b b' : JozaPoll} {visit : ℕ → Visit} {now : ℤ} {w : Worker} {key : ℕ} {lcn : Lcn}
  {outs : List JozaMsg}

/-! ### What a sweep is to do -/

/-- The clock reads `now` throughout the tick. -/
def OneClock (visit : ℕ → Visit) (now : ℤ) : Prop :=
  ∀ k, (visit k).now = now ∧ (visit k).refresh = now ∧ (visit k).refreshOther = now

/-- The worker has been idle for more than the timeout. -/
def Worker.Idle (now : ℤ) (w : Worker) : Prop :=
  (now - w.atime).tdiv 1000 > POLL_WORKER_REMOVAL_TIMEOUT

instance : Decidable (w.Idle now) :=
  inferInstanceAs (Decidable (_ > _))

/-- The worker is on no call, and idle. -/
def Worker.Leaves (now : ℤ) (w : Worker) : Prop :=
  w.role = .ready ∧ w.Idle now

instance : Decidable (w.Leaves now) :=
  inferInstanceAs (Decidable (_ ∧ _))

/-- The call of this number has an idle worker. -/
def IdleCall (b : JozaPoll) (now : ℤ) (lcn : Lcn) : Prop :=
  ∃ k w, b.workers.get? k = some w ∧ w.role ≠ .ready ∧ w.lcn = lcn ∧ w.Idle now

open Classical in
/-- What is to become of a worker: an idle one on no call leaves, one whose call is closed is
ready and has the full timeout again, and any other one stays as it is. -/
noncomputable def sweptWorker (b : JozaPoll) (now : ℤ) (w : Worker) : Option Worker :=
  if w.role = .ready then
    if w.Idle now then none else some w
  else if IdleCall b now w.lcn then
    some { w with role := .ready, lcn := 0, atime := now }
  else some w

/-- The message tells one side of the call that it is closed. -/
def ClearsCall (b : JozaPoll) (lcn : Lcn) (m : JozaMsg) : Prop :=
  ∃ c, b.channels.get? lcn.toNat = some c ∧ (m.address = c.xzaddr ∨ m.address = c.yzaddr)

/-- **The two tables have been swept.** Each worker is as it is to be, the channels of the
calls with an idle worker are gone and the others are as they were, and there is one
`CLEAR_REQUEST` for each of these calls. -/
structure Swept (b b' : JozaPoll) (now : ℤ) (outs : List JozaMsg) : Prop where
  workers : ∀ k, b'.workers.get? k = (b.workers.get? k).bind (sweptWorker b now)
  closed : ∀ lcn, IdleCall b now lcn → b'.channels.get? lcn.toNat = none
  kept : ∀ l, (∀ lcn, IdleCall b now lcn → lcn.toNat ≠ l) →
    b'.channels.get? l = b.channels.get? l
  cleared : ∃ lcns : List Lcn, lcns.Nodup ∧ (∀ lcn, lcn ∈ lcns ↔ IdleCall b now lcn) ∧
    List.Forall₂ (ClearsCall b) lcns (outs.filter fun m => m.id = .clearRequest)

/-- The two tables hold the same. -/
def SameTables (b b' : JozaPoll) : Prop :=
  (∀ k, b'.workers.get? k = b.workers.get? k) ∧ ∀ l, b'.channels.get? l = b.channels.get? l

/-- **The tick is a sweep**, with the same tables in the end for every order in which the
workers are visited. -/
def SweepsIdle (b : JozaPoll) (visit : ℕ → Visit) (now : ℤ) : Prop :=
  ∃ b' outs, sPing b visit = .ok (b', outs) ∧ Swept b b' now outs ∧
    ∀ workers, b.workers.SameEntries workers → ∃ b'' outs',
      sPing { b with workers } visit = .ok (b'', outs') ∧ SameTables b' b''

/-! ### Nobody on a call is idle -/

/-- All the workers on a call are active. -/
def CallsActive (b : JozaPoll) (now : ℤ) : Prop :=
  ∀ k w, b.workers.get? k = some w → w.role ≠ .ready → ¬ w.Idle now

theorem CallsActive.not_idleCall (h : CallsActive b now) : ¬ IdleCall b now lcn := by
  rintro ⟨k, w, hw, hrole, -, hidle⟩
  exact h k w hw hrole hidle

/-- The check of a worker that is ready or active: it leaves or stays, and is told nothing
but that it is to answer. -/
theorem sPingWorker_active {v : Visit} (hrun : b.shutdownNow = false) (hnow : v.now = now)
    (hactive : w.role ≠ .ready → ¬ w.Idle now) :
    ∃ outs, sPingWorker b key w v = .ok (b, outs, decide (w.Leaves now)) ∧
      ∀ m ∈ outs, m.id ≠ .clearRequest := by
  subst hnow
  unfold sPingWorker
  by_cases hidle : w.Idle v.now
  · have hrole : w.role = .ready := by
      by_contra hrole
      exact hactive hrole hidle
    have hleaves : w.Leaves v.now := ⟨hrole, hidle⟩
    refine ⟨[], ?_, by simp⟩
    rw [if_pos (.inl hidle), hrole, decide_eq_true hleaves]
  · have hstays : ¬ w.Leaves v.now := fun h => hidle h.2
    rw [if_neg (by rw [hrun]; rintro (h | h); exacts [hidle h, by cases h]),
      decide_eq_false hstays]
    split_ifs
    · refine ⟨_, rfl, ?_⟩
      intro m hm
      rw [List.mem_singleton.1 hm]
      intro hid
      cases hid
    · exact ⟨_, rfl, by simp⟩

/-- **The walk over the workers**, where those on a call are active. The visited ones that
are idle leave, and nothing else changes. -/
theorem sPingWorkers_active {keys : List ℕ} (hrun : b.shutdownNow = false)
    (hclock : OneClock visit now) (hactive : CallsActive b now) :
    ∃ workers outs, sPingWorkers visit keys b = .ok ({ b with workers }, outs) ∧
      (∀ k, workers.get? k =
        if k ∈ keys then (b.workers.get? k).filter fun w => ¬ w.Leaves now
        else b.workers.get? k) ∧
      ∀ m ∈ outs, m.id ≠ .clearRequest := by
  induction keys generalizing b with
  | nil => exact ⟨b.workers, [], rfl, by simp, by simp⟩
  | cons key keys ih =>
    rw [sPingWorkers]
    cases hw : b.workers.get? key with
    | none =>
      obtain ⟨workers, outs, hping, hworkers, houts⟩ := ih hrun hactive
      refine ⟨workers, outs, hping, ?_, houts⟩
      intro k
      rw [hworkers]
      by_cases hk : k = key
      · rw [hk, hw]
        split_ifs <;> rfl
      · simp only [List.mem_cons, hk, false_or]
    | some w =>
      obtain ⟨outs₁, hworker, houts₁⟩ := sPingWorker_active hrun (hclock key).1 (hactive key w hw)
      -- What is left of the table once this worker is checked.
      set b₁ : JozaPoll := if decide (w.Leaves now) = true
        then { b with workers := b.workers.remove key } else b with hb₁
      have hget : ∀ k, b₁.workers.get? k =
          if k = key then (b.workers.get? k).filter fun w => ¬ w.Leaves now
          else b.workers.get? k := by
        intro k
        by_cases hk : k = key
        · subst hk
          rw [hb₁, if_pos rfl, hw]
          by_cases hleaves : w.Leaves now
          · simp [hleaves, Option.filter_some]
          · simp [hleaves, hw, Option.filter_some]
        · rw [hb₁, if_neg hk]
          split_ifs
          · exact Table.get?_remove_of_ne hk
          · rfl
      have hrun₁ : b₁.shutdownNow = false := by
        rw [hb₁]
        split_ifs <;> exact hrun
      have hactive₁ : CallsActive b₁ now := by
        intro k w₁ hw₁
        rw [hget] at hw₁
        split_ifs at hw₁ with hk
        · exact hactive k w₁ (Option.filter_eq_some_iff.1 hw₁).1
        · exact hactive k w₁ hw₁
      obtain ⟨workers, outs, hping, hworkers, houts⟩ := ih hrun₁ hactive₁
      refine ⟨workers, outs₁ ++ outs, ?_, ?_, ?_⟩
      · refine bind_of_eq_ok hworker (bind_of_eq_ok hping ?_)
        rw [hb₁]
        split_ifs <;> rfl
      · intro k
        rw [hworkers, hget]
        by_cases hk : k = key
        · subst hk
          simp only [List.mem_cons, true_or, if_true, Option.filter_filter, Bool.and_self, ite_self]
        · simp only [List.mem_cons, hk, false_or, if_false]
      · intro m hm
        rcases List.mem_append.1 hm with hm | hm
        · exact houts₁ m hm
        · exact houts m hm

/-- A tick without an idle worker on a call removes the idle workers. -/
theorem sPing_active (hrun : b.shutdownNow = false) (hclock : OneClock visit now)
    (hactive : CallsActive b now) :
    ∃ workers outs, sPing b visit = .ok ({ b with workers }, outs) ∧
      (∀ k, workers.get? k = (b.workers.get? k).filter fun w => ¬ w.Leaves now) ∧
      ∀ m ∈ outs, m.id ≠ .clearRequest := by
  obtain ⟨workers, outs, hping, hworkers, houts⟩ :=
    sPingWorkers_active hrun hclock hactive
  refine ⟨workers, outs, ?_, ?_, houts⟩
  · refine bind_of_eq_ok hping ?_
    simp only [hrun, Bool.false_eq_true, false_and, if_false]
    rfl
  · intro k
    rw [hworkers]
    split_ifs with hk
    · rfl
    · rw [Table.mem_keys, Option.not_isSome_iff_eq_none] at hk
      rw [hk]
      rfl

/-- Without an idle worker on a call, the sweep concerns the ready workers only. -/
theorem CallsActive.sweptWorker_bind (h : CallsActive b now) (k : ℕ) :
    (b.workers.get? k).bind (sweptWorker b now) =
      (b.workers.get? k).filter fun w => ¬ w.Leaves now := by
  cases hw : b.workers.get? k with
  | none => rfl
  | some w =>
    rw [Option.bind_some, Option.filter_some, sweptWorker, if_neg h.not_idleCall]
    by_cases hrole : w.role = .ready
    · by_cases hidle : w.Idle now
      · have hleaves : w.Leaves now := ⟨hrole, hidle⟩
        simp [hrole, hidle, hleaves]
      · have hstays : ¬ w.Leaves now := fun hleaves => hidle hleaves.2
        simp [hrole, hidle, hstays]
    · have hstays : ¬ w.Leaves now := fun hleaves => hrole hleaves.1
      simp [hrole, hstays]

/-! ### Someone is left on each call -/

/-- Some worker is on the call of this number. -/
def Talks (b : JozaPoll) (lcn : Lcn) : Prop :=
  ∃ k w, b.workers.get? k = some w ∧ w.role ≠ .ready ∧ w.lcn = lcn

/-- What the check of a worker on a call does to the workers: nothing, or the worker that is
found on the other side is made ready, and both access times are refreshed. -/
theorem sDisconnectIdleChannel_workers {v : Visit}
    (h : sDisconnectIdleChannel b key w v = .ok (b', outs)) :
    b'.workers = b.workers ∨
      ∃ other w', workersTableLookupOther b.workers key w = some (other, w') ∧
        b'.workers = ((b.workers.modify other workerSetRoleToReady).modify key
          (workerUpdateAtime v.refresh)).modify other (workerUpdateAtime v.refreshOther) := by
  unfold sDisconnectIdleChannel at h
  cases hc : b.channels.get? w.lcn.toNat with
  | none =>
    rw [hc] at h
    cases h
  | some c =>
    rw [hc] at h
    obtain ⟨⟨c', outs'⟩, -, h⟩ := bind_eq_ok h
    simp only at h
    split_ifs at h
    · cases hother : workersTableLookupOther b.workers key w with
      | none =>
        rw [hother] at h
        cases h
      | some e =>
        rw [hother] at h
        cases h
        exact .inr ⟨e.1, e.2, rfl, rfl⟩
    · cases h
      exact .inl rfl

/-- **The worker that is checked stays on its call.** So nobody is left on a call only if
nobody was on it before. -/
theorem Talks.sDisconnectIdleChannel {v : Visit} (h : Talks b lcn)
    (hw : b.workers.get? key = some w) (hrole : w.role ≠ .ready)
    (hdisc : Broker.sDisconnectIdleChannel b key w v = .ok (b', outs)) : Talks b' lcn := by
  obtain hsame | ⟨other, w', hother, hworkers⟩ := sDisconnectIdleChannel_workers hdisc
  · rw [Talks, hsame]
    exact h
  · obtain ⟨hw', hfound⟩ := Table.find_eq_some hother
    simp only [decide_eq_true_eq] at hfound
    obtain ⟨hne, hlcn⟩ := hfound
    have hkey : b'.workers.get? key = some (workerUpdateAtime v.refresh w) := by
      rw [hworkers, Table.get?_modify_of_ne hne.symm]
      refine Table.get?_modify_self ?_
      rw [Table.get?_modify_of_ne hne.symm, hw]
    obtain ⟨k, w₁, hw₁, hrole₁, hlcn₁⟩ := h
    -- The worker that is made ready has the number of the checked one.
    by_cases hcall : w.lcn = lcn
    · exact ⟨key, _, hkey, hrole, hcall⟩
    · have hk : k ≠ other := by
        rintro rfl
        rw [hw', Option.some.injEq] at hw₁
        exact hcall (hlcn ▸ hw₁ ▸ hlcn₁)
      by_cases hkk : k = key
      · subst hkk
        rw [hw, Option.some.injEq] at hw₁
        exact absurd (hw₁ ▸ hlcn₁) hcall
      · refine ⟨k, w₁, ?_, hrole₁, hlcn₁⟩
        rw [hworkers, Table.get?_modify_of_ne hk, Table.get?_modify_of_ne hkk,
          Table.get?_modify_of_ne hk, hw₁]

/-- A worker on no call is removed. -/
theorem Talks.remove (h : Talks b lcn) (hw : b.workers.get? key = some w)
    (hrole : w.role = .ready) : Talks { b with workers := b.workers.remove key } lcn := by
  obtain ⟨k, w₁, hw₁, hrole₁, hlcn₁⟩ := h
  have hk : k ≠ key := by
    rintro rfl
    rw [hw, Option.some.injEq] at hw₁
    exact hrole₁ (hw₁ ▸ hrole)
  refine ⟨k, w₁, ?_, hrole₁, hlcn₁⟩
  rw [Table.get?_remove_of_ne hk, hw₁]

/-- The walk over the workers leaves someone on each call. -/
theorem Talks.sPingWorkers {keys : List ℕ} (h : Talks b lcn)
    (hping : Broker.sPingWorkers visit keys b = .ok (b', outs)) : Talks b' lcn := by
  induction keys generalizing b outs with
  | nil =>
    cases hping
    exact h
  | cons key keys ih =>
    rw [Broker.sPingWorkers] at hping
    cases hw : b.workers.get? key with
    | none =>
      rw [hw] at hping
      exact ih h hping
    | some w =>
      rw [hw] at hping
      obtain ⟨⟨b₁, outs₁, delete⟩, hworker, hping⟩ := bind_eq_ok hping
      obtain ⟨⟨b₂, outs₂⟩, hrest, hping⟩ := bind_eq_ok hping
      cases hping
      refine ih ?_ hrest
      rcases sPingWorker_eq_ok hworker with ⟨-, hrole, rfl, -, rfl⟩ | ⟨-, hrole, rfl, hdisc⟩ |
        ⟨-, rfl, rfl⟩
      · exact h.remove hw hrole
      · exact h.sDisconnectIdleChannel hw hrole hdisc
      · exact h

/-- **A tick leaves someone on each call.** -/
theorem Talks.sPing (h : Talks b lcn) (hping : Broker.sPing b visit = .ok (b', outs)) :
    Talks b' lcn := by
  obtain ⟨⟨b₁, outs₁⟩, hworkers, hping⟩ := bind_eq_ok hping
  have h₁ := h.sPingWorkers hworkers
  simp only at hping
  split_ifs at hping <;> cases hping <;> exact h₁

/-- A sweep leaves nobody on a call that has an idle worker. -/
theorem Swept.not_talks (h : Swept b b' now outs) (hidle : IdleCall b now lcn) :
    ¬ Talks b' lcn := by
  rintro ⟨k, w', hw', hrole', rfl⟩
  rw [h.workers] at hw'
  obtain ⟨w, -, hswept⟩ := Option.bind_eq_some_iff.1 hw'
  unfold sweptWorker at hswept
  split_ifs at hswept with hrole _ hcall <;> cases hswept
  · exact hrole' hrole
  · exact hrole' rfl
  · exact hcall hidle

/-- A tick is no sweep if a worker on a call is idle. -/
theorem SweepsIdle.callsActive (h : SweepsIdle b visit now) : CallsActive b now := by
  intro k w hw hrole hidle
  obtain ⟨b', outs, hping, hswept, -⟩ := h
  have htalks : Talks b w.lcn := ⟨k, w, hw, hrole, rfl⟩
  exact hswept.not_talks ⟨k, w, hw, hrole, rfl, hidle⟩ (htalks.sPing hping)

/-! ### The exact condition -/

/-- **The sweep of idle workers.** A tick does to the two tables what it is to do, whatever
the order of traversal, exactly if no worker on a call is idle. -/
theorem sweepsIdle_iff (hrun : b.shutdownNow = false) (hclock : OneClock visit now) :
    SweepsIdle b visit now ↔
      ∀ k w, b.workers.get? k = some w → w.role ≠ .ready → ¬ w.Idle now := by
  constructor
  · exact fun h => h.callsActive
  · intro hactive
    have hcalls : CallsActive b now := hactive
    obtain ⟨workers, outs, hping, hworkers, houts⟩ := sPing_active hrun hclock hcalls
    refine ⟨_, outs, hping, ⟨?_, ?_, fun _ _ => rfl, [], List.nodup_nil, ?_, ?_⟩, ?_⟩
    · intro k
      rw [hworkers, hcalls.sweptWorker_bind]
    · intro lcn hidle
      exact absurd hidle hcalls.not_idleCall
    · exact fun _ => iff_of_false List.not_mem_nil hcalls.not_idleCall
    · rw [List.filter_eq_nil_iff.2 fun m hm => by simpa using houts m hm]
      exact .nil
    · intro reordered hsame
      have hcalls' : CallsActive { b with workers := reordered } now := by
        intro k w hw
        exact hactive k w (hsame.get?.trans hw)
      obtain ⟨workers', outs', hping', hworkers', -⟩ :=
        sPing_active (b := { b with workers := reordered }) hrun hclock hcalls'
      refine ⟨_, outs', hping', ?_, fun _ => rfl⟩
      intro k
      rw [hworkers, hworkers', hsame.get?]

/-- A tick 40 seconds after the start. -/
def lateVisit : ℕ → Visit := fun _ =>
  { now := 40000000, refresh := 40000000, refreshOther := 40000000, sock := {} }

theorem lateVisit_oneClock : OneClock lateVisit 40000000 :=
  fun _ => ⟨rfl, rfl, rfl⟩

/-- `A` and `B` have been silent since they connected, and are removed. -/
theorem sweepsIdle_bothReady : SweepsIdle bothReady lateVisit 40000000 := by
  refine (sweepsIdle_iff rfl lateVisit_oneClock).2 ?_
  intro k w hw hrole
  refine absurd ?_ hrole
  simp only [bothReady, onlyA, Table.get?_set] at hw
  split_ifs at hw <;> cases hw <;> rfl

/-- **An idle call is not closed.** `A` calls `B`, and both are silent for 40 seconds. -/
theorem not_sweepsIdle_callAB :
    ¬ ∀ b visit now, Pairing (JozaPoll.seat b) b.channels.get? → b.shutdownNow = false →
      OneClock visit now → SweepsIdle b visit now := by
  intro hclaim
  obtain ⟨b, outs, hproc, hrun, w, hw, hrole, hidle⟩ : ∃ b outs,
      sProcess bothReady callAB quietEnv = .ok (b, outs) ∧ b.shutdownNow = false ∧
        ∃ w, b.workers.get? 1 = some w ∧ w.role = .xCaller ∧ w.Idle 40000000 :=
    ⟨_, _, rfl, rfl, _, rfl, rfl, by decide⟩
  have hpair := (PairInv.of_reachable (callAB_step b outs hproc)).pairing
  have hcalls := (hclaim b lateVisit 40000000 hpair hrun lateVisit_oneClock).callsActive
  refine hcalls 1 w hw ?_ hidle
  rw [hrole]
  decide

end Broker
end Jozabad
