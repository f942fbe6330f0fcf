import Jozabad.Application10.Server
import Jozabad.Application10.ServerEffect
import Mathlib.Data.Set.Insert

/-!
# What one handler can reach

Every handler of a channel reaches at most this channel and its peer. It changes no other
channel, no channel changes hands, no client changes, and only the channels that it
reaches send. `Touches zs σ σ'` says this for the channels `zs`.

The handlers are built from three operations: a write to a channel, a message from the
server to a channel, and a message to a client on behalf of a channel. Each of them has
one lemma that says what it did.
-/

namespace Jozabad
namespace Application10

/-! ### What is touched -/

/-- From `σ` to `σ'` nothing changes but the channels `zs`, these keep their owners, and
no other channels send. -/
structure Touches (zs : Set ℕ) (σ σ' : Server) : Prop where
  clients : σ'.clients = σ.clients
  next : σ'.next = σ.next
  owner : ∀ z, (σ'.heap.get? z).map JzChannel.owner = (σ.heap.get? z).map JzChannel.owner
  frame : ∀ z, z ∉ zs → σ'.heap.get? z = σ.heap.get? z
  sends : ∃ new, σ'.sent = σ.sent ++ new ∧ ∀ s ∈ new, ∃ z ∈ zs, s.channel = some z

theorem Touches.refl (zs : Set ℕ) (σ : Server) : Touches zs σ σ where
  clients := rfl
  next := rfl
  owner _ := rfl
  frame _ _ := rfl
  sends := ⟨[], (List.append_nil _).symm, fun _ h => absurd h List.not_mem_nil⟩

theorem Touches.trans {zs : Set ℕ} {σ σ' σ'' : Server} (h : Touches zs σ σ')
    (h' : Touches zs σ' σ'') : Touches zs σ σ'' where
  clients := h'.clients.trans h.clients
  next := h'.next.trans h.next
  owner z := (h'.owner z).trans (h.owner z)
  frame z hz := (h'.frame z hz).trans (h.frame z hz)
  sends := by
    obtain ⟨new, hnew, hin⟩ := h.sends
    obtain ⟨new', hnew', hin'⟩ := h'.sends
    refine ⟨new ++ new', by rw [hnew', hnew, List.append_assoc], fun s hs => ?_⟩
    obtain hs | hs := List.mem_append.1 hs
    · exact hin s hs
    · exact hin' s hs

theorem Touches.mono {zs zs' : Set ℕ} {σ σ' : Server} (h : Touches zs σ σ') (hsub : zs ⊆ zs') :
    Touches zs' σ σ' where
  clients := h.clients
  next := h.next
  owner := h.owner
  frame z hz := h.frame z fun hin => hz (hsub hin)
  sends := by
    obtain ⟨new, hnew, hin⟩ := h.sends
    refine ⟨new, hnew, fun s hs => ?_⟩
    obtain ⟨z, hz, hs'⟩ := hin s hs
    exact ⟨z, hsub hz, hs'⟩

/-- A channel that is there stays there. -/
theorem Touches.exists_get {zs : Set ℕ} {σ σ' : Server} (h : Touches zs σ σ') {z : ℕ}
    {Z : JzChannel} (hz : σ.heap.get? z = some Z) :
    ∃ Z', σ'.heap.get? z = some Z' ∧ Z'.owner = Z.owner := by
  have hown := h.owner z
  rw [hz] at hown
  exact Option.map_eq_some_iff.1 hown

/-! ### Writes -/

section

variable {σ σ' : Server} {now x y i : ℕ} {X : JzChannel}

theorem channel_eq_ok (h : σ.channel x = .ok X) : σ.heap.get? x = some X := by
  unfold Server.channel at h
  split at h
  · rename_i X' hX'
    rw [hX', Except.ok.inj h]
  · cases h

theorem client_eq_ok {C : JzClient} (h : σ.client i = .ok C) : σ.clients[i]? = some C := by
  unfold Server.client at h
  split at h
  · rename_i C' hC'
    rw [hC', Except.ok.inj h]
  · cases h

theorem get_setChannel_self {N : JzChannel} (h : σ.heap.get? x = some X) :
    (σ.setChannel x N).heap.get? x = some N :=
  Table.get?_modify_self h

theorem get_setChannel_of_ne {N : JzChannel} {z : ℕ} (h : z ≠ x) :
    (σ.setChannel x N).heap.get? z = σ.heap.get? z :=
  Table.get?_modify_of_ne h

/-- **A write to a channel.** -/
theorem update_eq_ok {f : JzChannel → JzChannel} (h : σ.update x f = .ok σ') :
    ∃ X, σ.heap.get? x = some X ∧ σ' = σ.setChannel x (f X) := by
  obtain ⟨X, hX, h⟩ := bind_eq_ok h
  cases h
  exact ⟨X, channel_eq_ok hX, rfl⟩

/-! ### Messages -/

/-- **A message to a client.** -/
theorem sendMsg_eq_ok {o : Option ℕ} {M : JzMsg} (h : jzClientSendMsg i o M σ = .ok σ') :
    σ' = { σ with sent := σ.sent ++ [⟨i, o, M⟩] } := by
  obtain ⟨C, -, h⟩ := bind_eq_ok h
  obtain ⟨_, -, h⟩ := bind_eq_ok h
  cases h
  rfl

/-- The message that the channel `Z` at `z` sends to its client, if it sends one. -/
def post (Z : JzChannel) (z : ℕ) (out : Option JzMsg) : List Sent :=
  out.toList.map fun msg => ⟨Z.parent, some z, msg⟩

/-- **A message from the server to a channel** changes this channel as
`jzChannelProcessServerMessageInState` says. -/
theorem processServerMessage_eq_ok {msg : JzMsg}
    (h : jzChannelProcessServerMessage now y msg σ = .ok σ') :
    ∃ Y Y' out, σ.heap.get? y = some Y ∧
      jzChannelProcessServerMessageInState now Y msg = .ok (Y', out) ∧
      σ' = { σ.setChannel y Y' with sent := σ.sent ++ post Y y out } := by
  obtain ⟨Y, hY, h⟩ := bind_eq_ok h
  obtain ⟨⟨Y', out⟩, hstate, h⟩ := bind_eq_ok h
  refine ⟨Y, Y', out, channel_eq_ok hY, hstate, ?_⟩
  cases out with
  | none =>
    obtain ⟨σ₁, hnone, h⟩ := bind_eq_ok h
    cases hnone
    obtain ⟨_, -, h⟩ := bind_eq_ok h
    cases h
    rw [post, Option.toList_none, List.map_nil, List.append_nil]
    rfl
  | some msg2 =>
    obtain ⟨σ₁, hsend, h⟩ := bind_eq_ok h
    obtain ⟨_, -, h⟩ := bind_eq_ok h
    cases h
    exact sendMsg_eq_ok hsend

end

end Application10
end Jozabad
