import Jozabad.Broker.Teardown

/-!
# A worker leaves

A worker that sends `DISCONNECT` is to be removed from the table, and its call, if it is on
one, is to be closed for it (`Departed`). The message takes one of two paths: that of a
worker on no call removes the worker, and that of a worker on a call goes to the state
machine of the call, which knows no workers table.

`Outcome.stays` says that no other message removes a worker, and none at all removes a
worker on a call. So a worker leaves exactly if it is on no call (`departed_iff`).
-/

namespace Jozabad
namespace Broker

open JozaMsg

variable {b b' : JozaPoll} {msg : JozaMsg} {env : Env} {outs : List JozaMsg} {w : Worker}
  {key k : ℕ}

/-- The worker that the broker takes for the other side of the call of `w`. -/
def IsPartner (b : JozaPoll) (key : ℕ) (w : Worker) (other : ℕ) : Prop :=
  w.role ≠ .ready ∧ ∃ w', workersTableLookupOther b.workers key w = some (other, w')

/-- The `CLEAR_REQUEST`s among the messages sent to a connection. -/
def clearsSentTo (outs : List JozaMsg) (zaddr : Frame) : List JozaMsg :=
  outs.filter fun m => m.id = .clearRequest ∧ m.address = zaddr

/-- **The worker `w` under `key` has left.** Its call, if it was on one, is closed, and its
partner is ready and told once. Nothing else changes. -/
structure Departed (b b' : JozaPoll) (key : ℕ) (w : Worker) (outs : List JozaMsg) : Prop where
  gone : b'.workers.get? key = none
  channel : w.role ≠ .ready → b'.channels.get? w.lcn.toNat = none
  partner : ∀ other, IsPartner b key w other → FreedWorker b b' other
  told : ∀ other w', IsPartner b key w other → b.workers.get? other = some w' →
    (clearsSentTo outs w'.zaddr).length = 1
  workers : ∀ k, k ≠ key → ¬ IsPartner b key w k → b'.workers.get? k = b.workers.get? k
  channels : ∀ l, (w.role ≠ .ready → l ≠ w.lcn.toNat) → b'.channels.get? l = b.channels.get? l

/-- The checks on received messages have nothing against a `DISCONNECT`. -/
theorem prevalidateMessage_disconnect (hid : msg.id = .disconnect) :
    prevalidateMessage msg = .unspecified := by
  simp [prevalidateMessage, objections, objectQ, objectPr, objectPs, objectData, objectCallData,
    objectCallingAddress, objectCall, objectCause, objectDirectionality, hid]

/-! ### Who stays -/

/-- A worker that a table holds is held under the same key after a rewrite. -/
theorem get?_modify_isSome {t : WorkersTable} {f : Worker → Worker}
    (h : (t.get? k).isSome) : ((t.modify key f).get? k).isSome := by
  rw [Table.get?_modify]
  split_ifs
  · rwa [Option.isSome_map]
  · exact h

/-- The sender of a message has the same role once its access time is refreshed. -/
theorem role_of_touch (hw : b.workers.get? key = some w) {w₁ : Worker}
    (hw₁ : (b.touch key env.now).workers.get? key = some w₁) : w₁.role = w.role := by
  have htouch : (b.touch key env.now).workers.get? key = some (workerUpdateAtime env.now w) :=
    Table.get?_modify_self hw
  rw [htouch, Option.some.injEq] at hw₁
  rw [← hw₁]
  rfl

/-- **Nobody else is removed.** A message removes no worker, unless it is the `DISCONNECT` of
a worker that is on no call. -/
theorem Outcome.stays (h : Outcome b msg env b' outs) (hw : b.workers.get? k = some w)
    (hstays : k = senderKey msg env → msg.id = .disconnect → w.role ≠ .ready) :
    (b'.workers.get? k).isSome := by
  have hold : (b.workers.get? k).isSome := by
    rw [hw]
    rfl
  have htouch : ((b.touch (senderKey msg env) env.now).workers.get? k).isSome :=
    get?_modify_isSome hold
  cases h with
  | malformed | connectRefused | unknown => exact hold
  | call | stray | callRefused | directory | ignored => exact htouch
  | closed => exact get?_modify_isSome htouch
  | callPlaced => exact get?_modify_isSome (get?_modify_isSome htouch)
  | left _ hw₁ hrole hid =>
    by_cases hk : k = senderKey msg env
    · subst hk
      rw [role_of_touch hw hw₁] at hrole
      exact absurd hrole (hstays rfl hid)
    · rw [Table.get?_remove_of_ne hk]
      exact htouch
  | connected _ hnone =>
    have hk : k ≠ senderKey msg env := by
      rintro rfl
      rw [hw] at hnone
      cases hnone
    rw [Table.get?_set_of_ne hk]
    exact hold

/-! ### Who leaves -/

/-- A worker on no call is removed, and nothing else happens. -/
theorem sProcess_disconnect_ready (hw : b.workers.get? (senderKey msg env) = some w)
    (hid : msg.id = .disconnect) (hrole : w.role = .ready) :
    sProcess b msg env =
      .ok ({ b.touch (senderKey msg env) env.now with
        workers := (b.touch (senderKey msg env) env.now).workers.remove (senderKey msg env) },
        []) := by
  rw [sProcess_of_ready (prevalidateMessage_disconnect hid) hw hrole,
    sProcessMsgFromUnconnectedWorker, if_neg (by simp [hid]), if_neg (by simp [hid]), if_pos hid]

/-- **Leaving the broker.** The `DISCONNECT` of a registered worker has its effect exactly if
the worker is on no call. -/
theorem departed_iff (hw : b.workers.get? (senderKey msg env) = some w)
    (hid : msg.id = .disconnect) :
    (∃ b' outs, sProcess b msg env = .ok (b', outs) ∧
      Departed b b' (senderKey msg env) w outs) ↔ w.role = .ready := by
  constructor
  · rintro ⟨b', outs, hproc, hdep⟩
    by_contra hrole
    have hstays := (sProcess_outcome hproc).stays hw fun _ _ => hrole
    rw [hdep.gone] at hstays
    cases hstays
  · intro hrole
    refine ⟨_, _, sProcess_disconnect_ready hw hid hrole, Table.get?_remove_self,
      fun h => absurd hrole h, fun _ h => absurd hrole h.1, fun _ _ h => absurd hrole h.1, ?_,
      fun _ _ => rfl⟩
    intro k hk _
    rw [Table.get?_remove_of_ne hk]
    exact Table.get?_modify_of_ne hk

/-- `A` leaves before it has placed a call. -/
theorem departed_bothReady : ∃ w b' outs,
    sProcess bothReady disconnectA quietEnv = .ok (b', outs) ∧
      Departed bothReady b' (senderKey disconnectA quietEnv) w outs := by
  obtain ⟨w, hw, hrole⟩ : ∃ w,
      bothReady.workers.get? (senderKey disconnectA quietEnv) = some w ∧ w.role = .ready :=
    ⟨_, rfl, rfl⟩
  exact ⟨w, (departed_iff hw rfl).2 hrole⟩

/-- **A caller does not leave.** `A` calls `B` and sends `DISCONNECT`: it stays registered. -/
theorem not_departed_callAB :
    ¬ ∀ b msg env w, brokerSystem.Reachable b → b.workers.get? (senderKey msg env) = some w →
      msg.id = .disconnect → ∃ b' outs, sProcess b msg env = .ok (b', outs) ∧
        Departed b b' (senderKey msg env) w outs := by
  intro hclaim
  obtain ⟨b, hb, w, hw, hrole⟩ : ∃ b, recvAll .start [connectA, connectB, callAB] = .ok b ∧
      ∃ w, b.workers.get? (senderKey disconnectA quietEnv) = some w ∧ w.role = .xCaller :=
    ⟨_, rfl, _, rfl, rfl⟩
  obtain ⟨b', outs, hproc, hdep⟩ :=
    hclaim b disconnectA quietEnv w (recvAll_reachable (.init rfl) rfl hb) hw rfl
  have hcall : w.role ≠ .ready := by
    rw [hrole]
    decide
  have hstays := (sProcess_outcome hproc).stays hw fun _ _ => hcall
  rw [hdep.gone] at hstays
  cases hstays

end Broker
end Jozabad
