import Jozabad.Broker.Call

/-!
# Errors change nothing

A message that is answered with a `DIAGNOSTIC` leaves the broker as it was, up to the
access time of its sender, and the `DIAGNOSTIC` is all that is sent
(`error_atomicity`). There are two exceptions, which the statement leaves out: a call
request of Y on a call that Y has not accepted yet moves the channel to its collision
state, and a worker that leaves is told so when the message to its peer cannot be
sent.
-/

namespace Jozabad
namespace Broker

open JozaMsg

/-! ### Forgetting the access times -/

/-- The entries of the table without their access times, in traversal order. -/
def withoutAtime (t : WorkersTable) : List (ℕ × Worker) :=
  t.entries.map fun e => (e.1, workerUpdateAtime 0 e.2)

/-- Two states of the broker that differ in access times alone. -/
structure SameButAtime (b b' : JozaPoll) : Prop where
  workers : withoutAtime b'.workers = withoutAtime b.workers
  channels : b'.channels = b.channels
  lcn : b'.lcn = b.lcn
  shutdownNow : b'.shutdownNow = b.shutdownNow
  exited : b'.exited = b.exited

variable {b b' : JozaPoll} {msg : JozaMsg} {env : Env} {outs : List JozaMsg} {w : Worker}
  {c c' : Channel} {other : ℕ} {o : JozaMsg}

theorem SameButAtime.refl (b : JozaPoll) : SameButAtime b b :=
  ⟨rfl, rfl, rfl, rfl, rfl⟩

theorem sameButAtime_touch {key : ℕ} {now : ℤ} : SameButAtime b (b.touch key now) := by
  refine ⟨?_, rfl, rfl, rfl, rfl⟩
  simp only [withoutAtime, JozaPoll.touch, Table.modify, List.map_map]
  refine List.map_congr_left fun e _ => ?_
  rw [Function.comp_apply, Prod.mk.injEq]
  refine ⟨rfl, ?_⟩
  split_ifs <;> rfl

/-! ### A dispatch that answers with a `DIAGNOSTIC` -/

/-- The message is a call request of Y on a call that Y has not accepted yet. -/
def AsksCollision (b : JozaPoll) (msg : JozaMsg) (env : Env) : Prop :=
  msg.id = .callRequest ∧ ∃ w c, b.workers.get? (senderKey msg env) = some w ∧
    w.role = .yCallee ∧ b.channels.get? w.lcn.toNat = some c ∧ c.state = .xCallRequest

/-- A dispatch with a `DIAGNOSTIC` among its answers leaves the channel alone and sends
nothing else, unless a collision is noted or the send fails. -/
theorem Effect.diagnostic_cases {sock : Sock} {isY : Bool} (h : Effect c sock msg isY c' outs)
    (hsend : sock.sendError = none) (ho : o ∈ outs) (hid : o.id = .diagnostic) :
    (c' = c ∧ outs = [o]) ∨
      (isY = true ∧ msg.id = .callRequest ∧ c.state = .xCallRequest) := by
  cases h with
  | refused C D hs =>
    refine .inl ⟨rfl, ?_⟩
    rw [List.mem_singleton.1 ho]
  -- The one step that reports an error and changes the state.
  | collision hy hid' hs => exact .inr ⟨hy, hid', hs⟩
  | disconnectFailed _ d hfail =>
    rw [hsend] at hfail
    cases hfail
  | discard => cases ho
  | reset | clear =>
    -- Both sides are told, but by other messages.
    rcases List.mem_pair.1 ho with rfl | rfl <;> cases hid
  | disconnect | accepted | clearRequested | clearConfirmed | data | rr | rnr
  | resetRequested | resetConfirmed =>
    obtain rfl := List.mem_singleton.1 ho
    cases hid

/-- The same, seen from the broker. -/
theorem OnCall.diagnostic_unchanged
    (hcall : OnCall (b.touch (senderKey msg env) env.now) (senderKey msg env) w c other)
    (hdisp : channelDispatch c env.sock msg w.isY = .ok (c', outs))
    (hsend : env.sock.sendError = none) (hcoll : ¬ AsksCollision b msg env) (ho : o ∈ outs)
    (hid : o.id = .diagnostic) : c' = c ∧ outs = [o] := by
  rcases (channelDispatch_effect hdisp).diagnostic_cases hsend ho hid with h | ⟨hy, hreq, hs⟩
  · exact h
  -- A collision is what the hypothesis excludes.
  · obtain ⟨w₀, rfl, hcall₀⟩ := hcall.of_touch
    refine absurd ⟨hreq, w₀, c, hcall₀.worker, ?_, hcall₀.channel, hs⟩ hcoll
    have hready := hcall₀.role
    cases hr : w₀.role with
    | yCallee => rfl
    | ready => exact absurd hr hready
    | xCaller => simp [Worker.isY, workerIsXCaller, workerUpdateAtime, hr] at hy

/-! ### Error atomicity -/

/-- **Error atomicity.** Where no stored channel is closed and sends succeed, a message
that is answered with a `DIAGNOSTIC` changes nothing but the access time of its sender,
and nothing else is sent. -/
theorem error_atomicity (hopen : ∀ l c, b.channels.get? l = some c → c.state ≠ .ready)
    (hsend : env.sock.sendError = none) (hcoll : ¬ AsksCollision b msg env)
    (h : sProcess b msg env = .ok (b', outs)) (ho : o ∈ outs) (hid : o.id = .diagnostic) :
    SameButAtime b b' ∧ outs = [o] := by
  cases sProcess_outcome h with
  | malformed | connectRefused =>
    rw [List.mem_singleton.1 ho]
    exact ⟨.refl b, rfl⟩
  | callRefused =>
    rw [List.mem_singleton.1 ho]
    exact ⟨sameButAtime_touch, rfl⟩
  | @call w c other c' _ _ hcall hdisp _ =>
    obtain ⟨rfl, rfl⟩ := hcall.diagnostic_unchanged hdisp hsend hcoll ho hid
    have hc : b.channels.get? w.lcn.toNat = some c' := hcall.channel
    -- The channel that is written back is the one that was there.
    rw [Table.modify_eq_self hc]
    exact ⟨sameButAtime_touch, rfl⟩
  | closed _ hcall hdisp hclosed =>
    -- The channel that was closed would be the one that was open before.
    obtain ⟨rfl, rfl⟩ := hcall.diagnostic_unchanged hdisp hsend hcoll ho hid
    exact absurd hclosed (hopen _ _ hcall.channel)
  | stray | left | ignored | unknown => cases ho
  | callPlaced | directory | connected =>
    -- What is sent here is no diagnostic.
    obtain rfl := List.mem_singleton.1 ho
    cases hid

/-- Two workers with a call in data transfer. -/
def pairOnCall : JozaPoll where
  workers := ((∅ : WorkersTable).set 1
    { workerCreate [0, 1, 0, 0, 0] (.ofBytes [65]) .empty .bidirectional 0 with
      lcn := 1, role := .xCaller }).set 2
    { workerCreate [0, 2, 0, 0, 0] (.ofBytes [66]) .empty .bidirectional 0 with
      lcn := 1, role := .yCallee }
  channels := (∅ : ChannelsTable).set 1 { newCall with state := .dataTransfer }
  lcn := 1
  shutdownNow := false
  exited := false

/-- A data packet out of order. -/
def strayData : JozaMsg :=
  { id := .data, address := [0, 1, 0, 0, 0], ps := 3, data := [1] }

/-- It is answered with a `DIAGNOSTIC`. -/
theorem error_atomicity_strayData :
    ∃ b' outs o, sProcess pairOnCall strayData quietEnv = .ok (b', outs) ∧ o ∈ outs ∧
      o.id = .diagnostic ∧ SameButAtime pairOnCall b' ∧ outs = [o] := by
  have hrun : sProcess pairOnCall strayData quietEnv = .ok (pairOnCall.touch 1 0,
      [diagnostic [0, 1, 0, 0, 0] .localProcedureError .psOutOfOrder]) := rfl
  refine ⟨_, _, _, hrun, List.mem_singleton.2 rfl, rfl, ?_⟩
  refine error_atomicity ?_ rfl ?_ hrun (List.mem_singleton.2 rfl) rfl
  · intro l c hc
    rw [pairOnCall, Table.get?_set] at hc
    split_ifs at hc
    · cases hc
      decide
    · cases hc
  · rintro ⟨hid, -⟩
    cases hid

end Broker
end Jozabad
