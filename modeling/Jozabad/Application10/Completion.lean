import Jozabad.Application10.Delivery

/-!
# When a handler is completed

The application stops where it follows a pointer to a channel that has been freed, and where it
names a client in the log whose directionality has no name. Here the operations of which the
handlers are built are characterized by their results: each is completed exactly if the clients
that it sends to are `Named` and the peers that it looks at are there (`Server.Linked`), and
then its result is known.

* `dump_eq_ok_iff`: the line about a channel in the log.
* `sendMsg_eq_ok_iff`: a message to a client.
* `processServerMessage_eq_ok_iff`: a message from the server to a channel.
-/

namespace Jozabad
namespace Application10

/-- Every channel has a client. -/
def Server.Homed (σ : Server) : Prop :=
  ∀ x X, σ.heap.get? x = some X → ∃ C, σ.clients[X.parent]? = some C

/-- The peer of the channel is there, if the channel has one. -/
def Server.Linked (σ : Server) (X : JzChannel) : Prop :=
  ∀ y, X.peer = some y → ∃ Y, σ.heap.get? y = some Y

section

variable {σ σ' : Server} {now x y z i : ℕ} {X X' Y N Z : JzChannel} {msg : JzMsg}

theorem Server.Registered.homed (hσ : σ.Registered) : σ.Homed := by
  intro x X hX
  obtain ⟨C, hC, -⟩ := hσ.listed_of_get hX
  exact ⟨C, hC⟩

/-- A write to a channel does not take it away. -/
theorem exists_get_setChannel :
    (∃ Z, (σ.setChannel x N).heap.get? z = some Z) ↔ ∃ Z, σ.heap.get? z = some Z := by
  simp only [← Option.isSome_iff_exists, Server.setChannel, Table.get?_modify]
  split
  · rw [Option.isSome_map]
  · rfl

@[simp] theorem linked_setChannel : (σ.setChannel x N).Linked Z ↔ σ.Linked Z := by
  simp only [Server.Linked, exists_get_setChannel]

theorem linked_of_none (hpeer : X.peer = none) : σ.Linked X := by
  intro y hy
  rw [hpeer] at hy
  cases hy

/-- A channel that keeps or loses its peer. -/
theorem Server.Linked.keeps (h : σ.Linked X) (hkeeps : X.Keeps X') : σ.Linked X' := by
  obtain hpeer | hnone := hkeeps.peer
  · rw [Server.Linked, hpeer]
    exact h
  · exact linked_of_none hnone

/-- A write that leaves the owner. -/
theorem Server.Homed.setChannel (hσ : σ.Homed) (hX : σ.heap.get? x = some X)
    (hparent : N.parent = X.parent) : (σ.setChannel x N).Homed := by
  intro z Z hZ
  by_cases hz : z = x
  · subst hz
    obtain rfl := Option.some.inj ((get_setChannel_self hX).symm.trans hZ)
    rw [hparent]
    exact hσ z X hX
  · exact hσ z Z ((get_setChannel_of_ne hz).symm.trans hZ)

/-! ### The operations -/

/-- **The line about a channel in the log** looks at the peer. -/
theorem dump_eq_ok_iff (hσ : σ.Homed) (hX : σ.heap.get? x = some X) :
    jzChannelDump x σ = .ok () ↔ σ.Linked X := by
  obtain ⟨C, hC⟩ := hσ x X hX
  constructor
  · intro h y hpeer
    obtain ⟨_, -, h⟩ := bind_eq_ok (channel_bind_eq_ok hX h)
    simp only [hpeer] at h
    obtain ⟨Y, hY, -⟩ := bind_eq_ok h
    exact ⟨Y, channel_eq_ok hY⟩
  · intro hlinked
    refine bind_of_eq_ok (channel_of_get hX) (bind_of_eq_ok (client_of_get hC) ?_)
    cases hpeer : X.peer with
    | none => rfl
    | some y =>
      obtain ⟨Y, hY⟩ := hlinked y hpeer
      obtain ⟨D, hD⟩ := hσ y Y hY
      exact bind_of_eq_ok (channel_of_get hY) (bind_of_eq_ok (client_of_get hD) rfl)

/-- Only `DATA`, `RR` and `RNR` can fail an assertion, and only in data transfer. -/
theorem exists_inState (h : Y.state = .d1FlowControlReady →
    msg.id ≠ .data ∧ msg.id ≠ .rr ∧ msg.id ≠ .rnr) :
    ∃ Y' out, jzChannelProcessServerMessageInState now Y msg = .ok (Y', out) := by
  unfold jzChannelProcessServerMessageInState
  split
  case h_9 hs hid => exact absurd hid (h hs).1
  case h_10 hs hid => exact absurd hid (h hs).2.1
  case h_11 hs hid => exact absurd hid (h hs).2.2
  all_goals exact ⟨_, _, rfl⟩

/-- **A message to a client** is logged with the name of its directionality. -/
theorem sendMsg_eq_ok_iff {o : Option ℕ} {M : JzMsg} : jzClientSendMsg i o M σ = .ok σ' ↔
    σ.Named i ∧ σ' = { σ with sent := σ.sent ++ [⟨i, o, M⟩] } := by
  constructor
  · exact fun h => ⟨named_of_sendMsg h, sendMsg_eq_ok h⟩
  · rintro ⟨hname, rfl⟩
    exact sendMsg_of_named hname

/-- **A message from the server to a channel.** -/
theorem processServerMessage_eq_ok_iff (hσ : σ.Homed) (hY : σ.heap.get? y = some Y) :
    jzChannelProcessServerMessage now y msg σ = .ok σ' ↔
      ∃ Y' out, jzChannelProcessServerMessageInState now Y msg = .ok (Y', out) ∧
        (out.isSome → σ.Named Y.parent) ∧ σ.Linked Y' ∧
        σ' = { σ.setChannel y Y' with sent := σ.sent ++ post Y y out } := by
  -- The line in the log is about the channel as it is afterwards.
  have hdump {Y' : JzChannel} {out : Option JzMsg} {sent : List Sent}
      (hstate : jzChannelProcessServerMessageInState now Y msg = .ok (Y', out)) :
      jzChannelDump y { σ.setChannel y Y' with sent := sent } = .ok () ↔ σ.Linked Y' := by
    have hparent : Y'.parent = Y.parent := congrArg Prod.fst (inState_effect hstate).keeps.owner
    have hhomed : ({ σ.setChannel y Y' with sent := sent } : Server).Homed :=
      hσ.setChannel hY hparent
    exact (dump_eq_ok_iff hhomed (get_setChannel_self hY)).trans linked_setChannel
  constructor
  · intro h
    obtain ⟨⟨Y', out⟩, hstate, h⟩ := bind_eq_ok (channel_bind_eq_ok hY h)
    cases out with
    | none =>
      obtain ⟨σ₁, hnone, h⟩ := bind_eq_ok h
      cases hnone
      obtain ⟨_, hdumped, h⟩ := bind_eq_ok h
      cases h
      refine ⟨Y', none, hstate, fun h => (by cases h), (hdump hstate).1 hdumped, ?_⟩
      rw [post, Option.toList_none, List.map_nil, List.append_nil]
      rfl
    | some msg2 =>
      obtain ⟨σ₁, hsend, h⟩ := bind_eq_ok h
      obtain ⟨hname, rfl⟩ := sendMsg_eq_ok_iff.1 hsend
      obtain ⟨_, hdumped, h⟩ := bind_eq_ok h
      cases h
      exact ⟨Y', some msg2, hstate, fun _ => hname, (hdump hstate).1 hdumped, rfl⟩
  · rintro ⟨Y', out, hstate, hname, hlinked, rfl⟩
    refine bind_of_eq_ok (channel_of_get hY) (bind_of_eq_ok hstate ?_)
    have hdumped : jzChannelDump y { σ.setChannel y Y' with sent := σ.sent ++ post Y y out } =
        .ok () := (hdump hstate).2 hlinked
    cases out with
    | none =>
      rw [post, Option.toList_none, List.map_nil, List.append_nil] at hdumped ⊢
      exact bind_of_eq_ok (a := σ.setChannel y Y') rfl (bind_of_eq_ok hdumped rfl)
    | some msg2 =>
      have hnamed : (σ.setChannel y Y').Named Y.parent := hname rfl
      exact bind_of_eq_ok (sendMsg_of_named hnamed) (bind_of_eq_ok hdumped rfl)

/-- The same where it is known what the channel does. -/
theorem processServerMessage_iff_of_inState {out : Option JzMsg} (hσ : σ.Homed)
    (hY : σ.heap.get? y = some Y)
    (hstate : jzChannelProcessServerMessageInState now Y msg = .ok (X', out)) :
    jzChannelProcessServerMessage now y msg σ = .ok σ' ↔ (out.isSome → σ.Named Y.parent) ∧
      σ.Linked X' ∧ σ' = { σ.setChannel y X' with sent := σ.sent ++ post Y y out } := by
  rw [processServerMessage_eq_ok_iff hσ hY]
  constructor
  · rintro ⟨Y', out', hstate', hname, hlinked, rfl⟩
    rw [hstate] at hstate'
    cases hstate'
    exact ⟨hname, hlinked, rfl⟩
  · rintro ⟨hname, hlinked, rfl⟩
    exact ⟨X', out, hstate, hname, hlinked, rfl⟩

/-- What a channel passes on to its peer. -/
theorem toPeer_eq_ok_iff {f : JzChannel → JzMsg} : X.toPeer now f σ = .ok σ' ↔
    (X.peer = none ∧ σ' = σ) ∨ ∃ y Y, X.peer = some y ∧ σ.heap.get? y = some Y ∧
      jzChannelProcessServerMessage now y (f Y) σ = .ok σ' := by
  unfold JzChannel.toPeer
  cases X.peer with
  | none => simp [eq_comm]
  | some y =>
    constructor
    · intro h
      obtain ⟨Y, hY, h⟩ := bind_eq_ok h
      exact .inr ⟨y, Y, rfl, channel_eq_ok hY, h⟩
    · rintro (⟨hnone, -⟩ | ⟨z, Y, hz, hY, h⟩)
      · cases hnone
      · cases hz
        exact bind_of_eq_ok (channel_of_get hY) h

end

end Application10
end Jozabad
