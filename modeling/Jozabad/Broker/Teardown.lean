import Jozabad.Broker.Pairing

/-!
# The end of a call

When the channel of a call closes, it is to be taken out of the table, and the two workers
are to be ready again (`TornDown`). Two functions do this, one for a message of a worker on
the call, and one for a worker that has been idle for too long. Both pass the channel to
`s_remove_channel` in the place of the worker whose message it was.

So this worker is never made ready: it keeps its role and its number, whatever else becomes
of the tables (`call_never_torn_down`).
-/

namespace Jozabad
namespace Broker

open JozaMsg

variable {b b' : JozaPoll} {msg : JozaMsg} {env : Env} {outs : List JozaMsg} {w : Worker}
  {c c' : Channel} {key other : ℕ} {v : Visit}

/-- The worker under `key` is ready again. -/
def FreedWorker (b b' : JozaPoll) (key : ℕ) : Prop :=
  ∃ w now, b.workers.get? key = some w ∧
    b'.workers.get? key = some { w with role := .ready, lcn := 0, atime := now }

/-- **The call is torn down.** Its channel is gone, and its two workers are ready. All
other channels and workers are as they were. -/
structure TornDown (b b' : JozaPoll) (l key other : ℕ) : Prop where
  channels : ∀ l', b'.channels.get? l' = if l' = l then none else b.channels.get? l'
  worker : FreedWorker b b' key
  partner : FreedWorker b b' other
  others : ∀ k, k ≠ key → k ≠ other → b'.workers.get? k = b.workers.get? k

/-- A dispatch of a message of `w` closes the channel of the call that `w` is on. -/
structure Closes (b : JozaPoll) (key : ℕ) (w : Worker) (c : Channel) (other : ℕ) (sock : Sock)
    (msg : JozaMsg) (c' : Channel) (outs : List JozaMsg) : Prop where
  call : OnCall b key w c other
  dispatched : channelDispatch c sock msg w.isY = .ok (c', outs)
  closed : c'.state = .ready

/-- The partner that the search finds is another worker. -/
theorem OnCall.ne (h : OnCall b key w c other) : other ≠ key := by
  obtain ⟨w', hother⟩ := h.other
  have hfound := (Table.find_eq_some hother).2
  simp only [decide_eq_true_eq] at hfound
  exact hfound.1

/-- A worker that still has its role has not been made ready. -/
theorem not_freedWorker {w' : Worker} (hw : b'.workers.get? key = some w')
    (hrole : w'.role ≠ .ready) : ¬ FreedWorker b b' key := by
  rintro ⟨w, now, -, hfreed⟩
  rw [hw, Option.some.injEq] at hfreed
  exact hrole (hfreed ▸ rfl)

/-! ### The two functions -/

/-- A message closes the call: its sender keeps the role. -/
theorem Closes.message (hpre : prevalidateMessage msg = .unspecified)
    (h : Closes b (senderKey msg env) w c other env.sock msg c' outs) :
    ∃ b', sProcess b msg env = .ok (b', outs) ∧
      b'.workers.get? (senderKey msg env) = some (workerUpdateAtime env.now w) := by
  have hcall : OnCall (b.touch (senderKey msg env) env.now) (senderKey msg env)
      (workerUpdateAtime env.now w) c other := h.call.touch
  obtain ⟨w', hother⟩ := hcall.other
  refine ⟨sRemoveChannel { b.touch (senderKey msg env) env.now with
    channels := b.channels.modify w.lcn.toNat fun _ => c' } w.lcn.toNat c' other, ?_, ?_⟩
  · rw [sProcess_of_onCall hpre h.call.worker h.call.role, sProcessMsgFromConnectedWorker,
      hcall.channel, hother]
    refine bind_of_eq_ok h.dispatched ?_
    simp only [channelIsClosed, h.closed, decide_true, if_true]
    rfl
  · rw [sRemoveChannel, Table.get?_modify_of_ne hcall.ne.symm]
    exact hcall.worker

/-- The call of an idle worker is closed: the worker keeps the role. -/
theorem Closes.idle (h : Closes b key w c other v.sock { id := .disconnect } c' outs) :
    ∃ b', sDisconnectIdleChannel b key w v = .ok (b', outs) ∧
      b'.workers.get? key = some (workerUpdateAtime v.refresh w) := by
  obtain ⟨w', hother⟩ := h.call.other
  have hne := h.call.ne
  set b₁ := sRemoveChannel { b with channels := b.channels.modify w.lcn.toNat fun _ => c' }
    w.lcn.toNat c' other with hb₁
  have hw : b₁.workers.get? key = some w := by
    rw [hb₁, sRemoveChannel, Table.get?_modify_of_ne hne.symm]
    exact h.call.worker
  refine ⟨{ b₁ with
    workers := (b₁.workers.modify key (workerUpdateAtime v.refresh)).modify other
      (workerUpdateAtime v.refreshOther) }, ?_, ?_⟩
  · rw [sDisconnectIdleChannel, h.call.channel]
    refine bind_of_eq_ok h.dispatched ?_
    simp only [channelIsClosed, h.closed, decide_true, if_true, hother]
    rfl
  · rw [Table.get?_modify_of_ne hne.symm]
    exact Table.get?_modify_self hw

/-- **No call is torn down.** Whatever message of a worker closes a call, and whenever the
call of an idle worker is closed, the broker goes on with a worker that is not ready. -/
theorem call_never_torn_down (b : JozaPoll) (w : Worker) (c c' : Channel) (other : ℕ)
    (outs : List JozaMsg) :
    (∀ msg env, prevalidateMessage msg = .unspecified →
      Closes b (senderKey msg env) w c other env.sock msg c' outs →
        ∃ b', sProcess b msg env = .ok (b', outs) ∧
          ¬ TornDown b b' w.lcn.toNat (senderKey msg env) other) ∧
      ∀ key v, Closes b key w c other v.sock { id := .disconnect } c' outs →
        ∃ b', sDisconnectIdleChannel b key w v = .ok (b', outs) ∧
          ¬ TornDown b b' w.lcn.toNat key other := by
  constructor
  · intro msg env hpre h
    obtain ⟨b', hproc, hw⟩ := h.message hpre
    exact ⟨b', hproc, fun htorn => not_freedWorker hw h.call.role htorn.worker⟩
  · intro key v h
    obtain ⟨b', hidle, hw⟩ := h.idle
    exact ⟨b', hidle, fun htorn => not_freedWorker hw h.call.role htorn.worker⟩

/-- `A` calls `B`. It may leave then, or be idle for too long. -/
theorem disconnectA_closes : ∃ b w c other, PairInv b ∧
    (∃ c' outs, Closes b (senderKey disconnectA quietEnv) w c other quietEnv.sock disconnectA
      c' outs) ∧
      ∃ c' outs, Closes b (senderKey disconnectA quietEnv) w c other quietEnv.sock
        { id := .disconnect } c' outs := by
  obtain ⟨b, outs, hproc, w, c, other, hcloses⟩ : ∃ b outs,
      sProcess bothReady callAB quietEnv = .ok (b, outs) ∧ ∃ w c other,
        (∃ c' outs, Closes b (senderKey disconnectA quietEnv) w c other quietEnv.sock disconnectA
          c' outs) ∧
          ∃ c' outs, Closes b (senderKey disconnectA quietEnv) w c other quietEnv.sock
            { id := .disconnect } c' outs :=
    ⟨_, _, rfl, _, _, 2, ⟨_, _, ⟨rfl, by decide, rfl, _, rfl⟩, rfl, rfl⟩,
      _, _, ⟨rfl, by decide, rfl, _, rfl⟩, rfl, rfl⟩
  exact ⟨b, w, c, other, .of_reachable (callAB_step b outs hproc), hcloses⟩

/-- The call is not torn down when `A` leaves, nor when `A` is idle for too long. -/
theorem call_never_torn_down_disconnectA : ∃ b w other, PairInv b ∧
    (∃ b' outs, sProcess b disconnectA quietEnv = .ok (b', outs) ∧
      ¬ TornDown b b' w.lcn.toNat (senderKey disconnectA quietEnv) other) ∧
      ∃ b' outs, sDisconnectIdleChannel b (senderKey disconnectA quietEnv) w
          { now := 0, refresh := 0, refreshOther := 0, sock := {} } = .ok (b', outs) ∧
        ¬ TornDown b b' w.lcn.toNat (senderKey disconnectA quietEnv) other := by
  obtain ⟨b, w, c, other, hpair, ⟨c', outs, hleave⟩, c'', outs', hidle⟩ := disconnectA_closes
  obtain ⟨b', hproc, hnot⟩ := (call_never_torn_down b w c c' other outs).1 disconnectA quietEnv
    (by decide) hleave
  obtain ⟨b'', hsweep, hnot'⟩ := (call_never_torn_down b w c c'' other outs').2
    (senderKey disconnectA quietEnv) { now := 0, refresh := 0, refreshOther := 0, sock := {} } hidle
  exact ⟨b, w, other, hpair, ⟨b', outs, hproc, hnot⟩, b'', outs', hsweep, hnot'⟩

/-- The pairing of the tables before the call ends does not help. -/
theorem call_left : ¬ ∀ b msg env w c other c' outs b',
    Pairing (JozaPoll.seat b) b.channels.get? → prevalidateMessage msg = .unspecified →
      Closes b (senderKey msg env) w c other env.sock msg c' outs →
        sProcess b msg env = .ok (b', outs) →
          TornDown b b' w.lcn.toNat (senderKey msg env) other := by
  intro hclaim
  obtain ⟨b, w, c, other, hpair, ⟨c', outs, hcloses⟩, -⟩ := disconnectA_closes
  obtain ⟨b', hproc, hw⟩ := hcloses.message (by decide)
  have htorn := hclaim b disconnectA quietEnv w c other c' outs b' hpair.pairing (by decide)
    hcloses hproc
  exact not_freedWorker hw hcloses.call.role htorn.worker

end Broker
end Jozabad
