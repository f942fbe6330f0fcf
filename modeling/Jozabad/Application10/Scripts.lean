import Jozabad.Application10.Peers
import Jozabad.Lib.Lts
import Jozabad.Lib.Partners

/-!
# The handlers of a channel as scripts

What a handler of a channel `x` does is a short list of acts on `x` and on the peer that it
had at the start. `MessageScript` lists the scripts of a client's message, `ExpiryScript`
those of a timer, and `restartActs` is the script of a restart. The one handler that is not
in the lists is a call request that finds a free channel, `jzChannelConnect`.

A script is carried out on the server (`actSystem`) or on the two channels alone (`Duo`,
`duoSystem`). `run_shows` says that this is the same: the server after a script shows the
two channels that the script makes of the two it found, and is otherwise unchanged. So
what a handler does is a question about two channels.
-/

namespace Jozabad
namespace Application10

/-! ### Acts on the server -/

/-- What a handler of a channel does, one thing at a time. -/
inductive Act where
  /-- Write to the channel. -/
  | own (f : JzChannel → JzChannel)
  /-- Write to its peer. -/
  | other (f : JzChannel → JzChannel)
  /-- Give the channel a message from the server. -/
  | self (msg : JzMsg)
  /-- Give its peer a message from the server. -/
  | tell (msg : JzChannel → JzMsg)
  /-- Send its client a message. -/
  | notify (msg : JzMsg)

/-- An act of a handler that has found `X` at `x`. -/
def Act.run (now x : ℕ) (X : JzChannel) (σ : Server) : Act → Except Fault Server
  | .own f => σ.update x f
  | .other f => X.updatePeer f σ
  | .self msg => jzChannelProcessServerMessage now x msg σ
  | .tell msg => X.toPeer now msg σ
  | .notify msg => jzClientSendMsg X.parent (some x) msg σ

/-- The server under the acts of a handler. -/
def actSystem (now x : ℕ) (X : JzChannel) : Lts Server Act where
  Init _ := True
  Step σ a σ' := a.run now x X σ = .ok σ'

/-- Only the peer and the client of the channel that was found matter. -/
theorem actSystem_congr {now x : ℕ} {X X₁ : JzChannel} (hpeer : X₁.peer = X.peer)
    (hparent : X₁.parent = X.parent) : actSystem now x X₁ = actSystem now x X := by
  have hrun (σ : Server) (a : Act) : a.run now x X₁ σ = a.run now x X σ := by
    cases a with
    | own f => rfl
    | self msg => rfl
    | other f => rw [Act.run, JzChannel.updatePeer, hpeer, Act.run, JzChannel.updatePeer]
    | tell msg => rw [Act.run, JzChannel.toPeer, hpeer, Act.run, JzChannel.toPeer]
    | notify msg => rw [Act.run, hparent, Act.run]
  simp only [actSystem, hrun]

/-- No act changes the clients. -/
theorem run_clients {now x : ℕ} {X : JzChannel} {as : List Act} {σ σ' : Server}
    (hrun : (actSystem now x X).Run σ as σ') : σ'.clients = σ.clients := by
  have hserver {y : ℕ} {msg : JzMsg} {σ σ' : Server}
      (h : jzChannelProcessServerMessage now y msg σ = .ok σ') : σ'.clients = σ.clients := by
    obtain ⟨Y, Y', out, -, -, rfl⟩ := processServerMessage_eq_ok h
    rfl
  -- No act writes to the clients.
  refine hrun.preserves (fun σ' => σ'.clients = σ.clients) rfl fun σ₁ a σ₂ h hstep => ?_
  refine Eq.trans ?_ h
  cases a with
  | own f =>
    obtain ⟨X₁, -, rfl⟩ := update_eq_ok hstep
    rfl
  | other f =>
    simp only [actSystem, Act.run, JzChannel.updatePeer] at hstep
    split at hstep
    · obtain ⟨Y, -, rfl⟩ := update_eq_ok hstep
      rfl
    · cases hstep
      rfl
  | self msg => exact hserver hstep
  | tell msg =>
    simp only [actSystem, Act.run, JzChannel.toPeer] at hstep
    split at hstep
    · obtain ⟨Y, -, hstep⟩ := bind_eq_ok hstep
      exact hserver hstep
    · cases hstep
      rfl
  | notify msg =>
    obtain rfl := sendMsg_eq_ok hstep
    rfl

/-! ### Acts on two channels -/

/-- A channel, its peer if it has one, and what the two have sent. -/
structure Duo where
  own : JzChannel
  other : Option JzChannel
  sent : List Sent := []

/-- An act on the two channels. -/
def Act.eval (now x : ℕ) (X : JzChannel) (d : Duo) : Act → Except Fault Duo
  | .own f => .ok { d with own := f d.own }
  | .other f => .ok { d with other := d.other.map f }
  | .self msg => do
    let (X', out) ← jzChannelProcessServerMessageInState now d.own msg
    return { d with own := X', sent := d.sent ++ post d.own x out }
  | .tell msg =>
    match X.peer, d.other with
    | some y, some Y => do
      let (Y', out) ← jzChannelProcessServerMessageInState now Y (msg Y)
      return { d with other := some Y', sent := d.sent ++ post Y y out }
    | _, _ => .ok d
  | .notify msg => .ok { d with sent := d.sent ++ [⟨X.parent, some x, msg⟩] }

/-- The two channels under the acts of a handler. -/
def duoSystem (now x : ℕ) (X : JzChannel) : Lts Duo Act where
  Init _ := True
  Step d a d' := a.eval now x X d = .ok d'

/-! ### Single acts on two channels -/

section

variable {now x y : ℕ} {X Y : JzChannel} {d d' : Duo} {msg : JzMsg}

@[simp] theorem step_own {f : JzChannel → JzChannel} :
    (duoSystem now x X).Step d (.own f) d' ↔ d' = { d with own := f d.own } :=
  ⟨fun h => (Except.ok.inj h).symm, fun h => h ▸ rfl⟩

@[simp] theorem step_other {f : JzChannel → JzChannel} :
    (duoSystem now x X).Step d (.other f) d' ↔ d' = { d with other := d.other.map f } :=
  ⟨fun h => (Except.ok.inj h).symm, fun h => h ▸ rfl⟩

@[simp] theorem step_notify : (duoSystem now x X).Step d (.notify msg) d' ↔
    d' = { d with sent := d.sent ++ [⟨X.parent, some x, msg⟩] } :=
  ⟨fun h => (Except.ok.inj h).symm, fun h => h ▸ rfl⟩

theorem step_self (h : (duoSystem now x X).Step d (.self msg) d') :
    ∃ X' out, ServerEffect now d.own msg X' out ∧
      d' = { d with own := X', sent := d.sent ++ post d.own x out } := by
  obtain ⟨⟨X', out⟩, hstate, h⟩ := bind_eq_ok h
  cases h
  exact ⟨X', out, inState_effect hstate, rfl⟩

theorem step_tell {f : JzChannel → JzMsg} (hpeer : X.peer = some y) (hother : d.other = some Y)
    (h : (duoSystem now x X).Step d (.tell f) d') :
    ∃ Y' out, ServerEffect now Y (f Y) Y' out ∧
      d' = { d with other := some Y', sent := d.sent ++ post Y y out } := by
  simp only [duoSystem, Act.eval, hpeer, hother] at h
  obtain ⟨⟨Y', out⟩, hstate, h⟩ := bind_eq_ok h
  cases h
  exact ⟨Y', out, inState_effect hstate, rfl⟩

/-- Whether there is a peer or not. -/
theorem step_tell_cases {f : JzChannel → JzMsg} (h : (duoSystem now x X).Step d (.tell f) d') :
    d' = d ∨ ∃ y Y Y' out, X.peer = some y ∧ d.other = some Y ∧ ServerEffect now Y (f Y) Y' out ∧
      d' = { d with other := some Y', sent := d.sent ++ post Y y out } := by
  cases hpeer : X.peer with
  | none =>
    simp only [duoSystem, Act.eval, hpeer] at h
    exact .inl (Except.ok.inj h).symm
  | some y =>
    cases hother : d.other with
    | none =>
      simp only [duoSystem, Act.eval, hpeer, hother] at h
      exact .inl (Except.ok.inj h).symm
    | some Y =>
      obtain ⟨Y', out, heff, hd'⟩ := step_tell hpeer hother h
      exact .inr ⟨y, Y, Y', out, rfl, rfl, heff, hd'⟩

end

section

variable {σ σ₀ σ' : Server} {now x y : ℕ} {X X' Y : JzChannel} {d d' : Duo} {a : Act}
  {as : List Act}

/-- The server `σ` is `σ₀`, but for the channel at `x` and the peer of `X`, which are those
of `d`. -/
structure Shows (σ₀ : Server) (x : ℕ) (X : JzChannel) (d : Duo) (σ : Server) : Prop where
  clients : σ.clients = σ₀.clients
  next : σ.next = σ₀.next
  own : σ.heap.get? x = some d.own
  other : ∀ y, X.peer = some y → σ.heap.get? y = d.other
  frame : ∀ z, z ≠ x → X.peer ≠ some z → σ.heap.get? z = σ₀.heap.get? z
  sent : σ.sent = σ₀.sent ++ d.sent

/-- What a handler finds. -/
def Server.duo (σ : Server) (X : JzChannel) : Duo where
  own := X
  other := X.peer.bind σ.heap.get?

theorem Shows.start (hX : σ.heap.get? x = some X) : Shows σ x X (σ.duo X) σ where
  clients := rfl
  next := rfl
  own := hX
  other y hy := by rw [Server.duo, hy, Option.bind_some]
  frame _ _ _ := rfl
  sent := (List.append_nil _).symm

namespace Shows

theorem ne_peer (hne : X.peer ≠ some x) (hy : X.peer = some y) : y ≠ x := by
  rintro rfl
  exact hne hy

/-- A write to the channel. -/
theorem setOwn (h : Shows σ₀ x X d σ) (hne : X.peer ≠ some x) :
    Shows σ₀ x X { d with own := X' } (σ.setChannel x X') where
  clients := h.clients
  next := h.next
  own := get_setChannel_self h.own
  other y hy := by
    rw [get_setChannel_of_ne (ne_peer hne hy), h.other y hy]
  frame z hzx hz := by rw [get_setChannel_of_ne hzx, h.frame z hzx hz]
  sent := h.sent

/-- A write to the peer. -/
theorem setOther (h : Shows σ₀ x X d σ) (hne : X.peer ≠ some x) (hy : X.peer = some y)
    (hY : σ.heap.get? y = some Y) :
    Shows σ₀ x X { d with other := some X' } (σ.setChannel y X') where
  clients := h.clients
  next := h.next
  own := by
    rw [get_setChannel_of_ne (ne_peer hne hy).symm, h.own]
  other z hz := by
    obtain rfl : y = z := Option.some.inj (hy.symm.trans hz)
    exact get_setChannel_self hY
  frame z hzx hz := by
    have hzy : z ≠ y := by
      rintro rfl
      exact hz hy
    rw [get_setChannel_of_ne hzy, h.frame z hzx hz]
  sent := h.sent

/-- More is sent. -/
theorem send (h : Shows σ₀ x X d σ) (new : List Sent) :
    Shows σ₀ x X { d with sent := d.sent ++ new } { σ with sent := σ.sent ++ new } where
  clients := h.clients
  next := h.next
  own := h.own
  other := h.other
  frame := h.frame
  sent := by rw [h.sent, List.append_assoc]

/-- **One act** does the same to the server and to the two channels. -/
theorem act (hne : X.peer ≠ some x) (h : Shows σ₀ x X d σ)
    (hrun : (actSystem now x X).Step σ a σ') :
    ∃ d', (duoSystem now x X).Step d a d' ∧ Shows σ₀ x X d' σ' := by
  cases a with
  | own f =>
    obtain ⟨X₁, hX₁, rfl⟩ := update_eq_ok hrun
    -- What is on the heap at `x` is what the pair has as its own channel.
    obtain rfl : d.own = X₁ := Option.some.inj (h.own.symm.trans hX₁)
    exact ⟨_, rfl, h.setOwn hne⟩
  | other f =>
    cases hpeer : X.peer with
    | none =>
      simp only [actSystem, Act.run, JzChannel.updatePeer, hpeer] at hrun
      cases hrun
      exact ⟨_, rfl, ⟨h.clients, h.next, h.own, fun y hy => by simp [hpeer] at hy, h.frame, h.sent⟩⟩
    | some y =>
      simp only [actSystem, Act.run, JzChannel.updatePeer, hpeer] at hrun
      obtain ⟨Y, hY, rfl⟩ := update_eq_ok hrun
      have hother : d.other = some Y := (h.other y hpeer).symm.trans hY
      refine ⟨_, rfl, ?_⟩
      rw [hother]
      exact h.setOther hne hpeer hY
  | self msg =>
    obtain ⟨X₁, X₂, out, hX₁, hstate, rfl⟩ := processServerMessage_eq_ok hrun
    obtain rfl : d.own = X₁ := Option.some.inj (h.own.symm.trans hX₁)
    refine ⟨{ d with own := X₂, sent := d.sent ++ post d.own x out }, ?_,
      (h.setOwn hne).send _⟩
    simp only [duoSystem, Act.eval, hstate]
    rfl
  | tell msg =>
    cases hpeer : X.peer with
    | none =>
      simp only [actSystem, Act.run, JzChannel.toPeer, hpeer] at hrun
      cases hrun
      exact ⟨d, by simp only [duoSystem, Act.eval, hpeer], h⟩
    | some y =>
      simp only [actSystem, Act.run, JzChannel.toPeer, hpeer] at hrun
      obtain ⟨Y, hY, hrun⟩ := bind_eq_ok hrun
      obtain ⟨Y₁, Y₂, out, hY₁, hstate, rfl⟩ := processServerMessage_eq_ok hrun
      obtain rfl : Y₁ = Y := Option.some.inj (hY₁.symm.trans (channel_eq_ok hY))
      have hother : d.other = some Y₁ := (h.other y hpeer).symm.trans hY₁
      refine ⟨{ d with other := some Y₂, sent := d.sent ++ post Y₁ y out }, ?_,
        (h.setOther hne hpeer hY₁).send _⟩
      simp only [duoSystem, Act.eval, hpeer, hother, hstate]
      rfl
  | notify msg =>
    obtain rfl := sendMsg_eq_ok hrun
    exact ⟨_, rfl, h.send _⟩

end Shows

/-- **A script** does the same to the server and to the two channels. -/
theorem run_shows (hX : σ.heap.get? x = some X) (hne : X.peer ≠ some x)
    (hrun : (actSystem now x X).Run σ as σ') :
    ∃ d, (duoSystem now x X).Run (σ.duo X) as d ∧ Shows σ x X d σ' := by
  obtain ⟨d, hd, h⟩ := hrun.simulate (fun σ' d => Shows σ x X d σ')
    (fun _ _ _ _ h hstep => Shows.act hne h hstep) (Shows.start hX)
  exact ⟨d, hd, h⟩

/-! ### What a script can reach -/

/-- An act that leaves the owners as they are, and takes peers away at most. -/
def Act.Tame : Act → Prop
  | .own f | .other f => ∀ X : JzChannel, X.Keeps (f X)
  | _ => True

/-- The channel at `x` and its peer. -/
def reach (x : ℕ) (X : JzChannel) : Set ℕ :=
  {z | z = x ∨ X.peer = some z}

/-- The two channels keep their owners, get no peers, and only they send. -/
structure Duo.Keeps (x : ℕ) (X : JzChannel) (d d' : Duo) : Prop where
  own : d.own.Keeps d'.own
  other : Option.Rel JzChannel.Keeps d.other d'.other
  sends : ∃ new, d'.sent = d.sent ++ new ∧ ∀ s ∈ new, ∃ z ∈ reach x X, s.channel = some z

theorem otherKeeps_refl (o : Option JzChannel) : Option.Rel JzChannel.Keeps o o := by
  cases o with
  | none => exact .none
  | some Y => exact .some (.refl Y)

theorem otherKeeps_trans {o o' o'' : Option JzChannel} (h : Option.Rel JzChannel.Keeps o o')
    (h' : Option.Rel JzChannel.Keeps o' o'') : Option.Rel JzChannel.Keeps o o'' := by
  cases h with
  | none => exact h'
  | some hk =>
    cases h' with
    | some hk' => exact .some (hk.trans hk')

theorem mem_post {Z : JzChannel} {z : ℕ} {out : Option JzMsg} {s : Sent} (hs : s ∈ post Z z out) :
    s.client = Z.parent ∧ s.channel = some z ∧ out = some s.msg := by
  simp only [post, List.mem_map, Option.mem_toList] at hs
  obtain ⟨msg, hmsg, rfl⟩ := hs
  exact ⟨rfl, rfl, hmsg⟩

namespace Duo.Keeps

theorem refl (d : Duo) : d.Keeps x X d where
  own := .refl d.own
  other := otherKeeps_refl d.other
  sends := ⟨[], (List.append_nil _).symm, fun _ h => absurd h List.not_mem_nil⟩

theorem trans {d'' : Duo} (h : d.Keeps x X d') (h' : d'.Keeps x X d'') : d.Keeps x X d'' where
  own := h.own.trans h'.own
  other := otherKeeps_trans h.other h'.other
  sends := by
    obtain ⟨new, hnew, hin⟩ := h.sends
    obtain ⟨new', hnew', hin'⟩ := h'.sends
    refine ⟨new ++ new', by rw [hnew', hnew, List.append_assoc], fun s hs => ?_⟩
    obtain hs | hs := List.mem_append.1 hs
    · exact hin s hs
    · exact hin' s hs

theorem act (htame : a.Tame) (h : (duoSystem now x X).Step d a d') : d.Keeps x X d' := by
  cases a with
  | own f =>
    cases h
    exact ⟨htame d.own, otherKeeps_refl _, (refl d).sends⟩
  | other f =>
    cases h
    refine ⟨.refl _, ?_, (refl d).sends⟩
    cases d.other with
    | none => exact .none
    | some Y => exact .some (htame Y)
  | self msg =>
    obtain ⟨X', out, heff, rfl⟩ := step_self h
    refine ⟨heff.keeps, otherKeeps_refl _, _, rfl, fun s hs => ?_⟩
    exact ⟨x, .inl rfl, (mem_post hs).2.1⟩
  | tell msg =>
    obtain rfl | ⟨y, Y, Y', out, hpeer, hother, heff, rfl⟩ := step_tell_cases h
    · exact refl d'
    · refine ⟨.refl _, ?_, _, rfl, fun s hs => ?_⟩
      · rw [hother]
        exact .some heff.keeps
      · exact ⟨y, .inr hpeer, (mem_post hs).2.1⟩
  | notify msg =>
    cases h
    refine ⟨.refl _, otherKeeps_refl _, _, rfl, fun s hs => ?_⟩
    rw [List.mem_singleton] at hs
    exact ⟨x, .inl rfl, by rw [hs]⟩

theorem run (htame : ∀ a ∈ as, a.Tame) (h : (duoSystem now x X).Run d as d') :
    d.Keeps x X d' := by
  induction h with
  | nil => exact refl _
  | cons hstep _ ih =>
    rw [List.forall_mem_cons] at htame
    exact (act htame.1 hstep).trans (ih htame.2)

end Duo.Keeps

/-- **What a script can reach**: the channel and its peer, from which it can only take
their peers. -/
theorem run_reach (hX : σ.heap.get? x = some X) (hne : X.peer ≠ some x)
    (htame : ∀ a ∈ as, a.Tame) (hrun : (actSystem now x X).Run σ as σ') :
    Touches (reach x X) σ σ' ∧
      Partners.Shrinks JzChannel.peer σ.heap.get? σ'.heap.get? := by
  obtain ⟨d, hd, h⟩ := run_shows hX hne hrun
  obtain ⟨hown, hother, new, hnew, hsends⟩ := Duo.Keeps.run htame hd
  -- What has become of each channel.
  have hkeeps (z : ℕ) : Option.Rel JzChannel.Keeps (σ.heap.get? z) (σ'.heap.get? z) := by
    by_cases hzx : z = x
    · rw [hzx, hX, h.own]
      exact .some hown
    by_cases hz : X.peer = some z
    · rw [h.other z hz, (Shows.start hX).other z hz]
      exact hother
    · rw [h.frame z hzx hz]
      exact otherKeeps_refl _
  -- Owners stay, and a peer is only ever lost.
  refine ⟨⟨h.clients, h.next, fun z => ?_, fun z hz => ?_, new, ?_, hsends⟩, ?_⟩
  · have hz := hkeeps z
    generalize σ.heap.get? z = o at hz
    generalize σ'.heap.get? z = o' at hz
    cases hz with
    | none => rfl
    | some hk => rw [Option.map_some, Option.map_some, hk.owner]
  · exact h.frame z (fun hzx => hz (.inl hzx)) fun hpeer => hz (.inr hpeer)
  · rw [h.sent, hnew]
    rfl
  · rintro a b ⟨A', hA', hpeer⟩
    have ha := hkeeps a
    rw [hA'] at ha
    generalize hA : σ.heap.get? a = o at ha
    cases ha with
    | some hk =>
      obtain hp | hp := hk.peer
      · exact .intro hA (hp.symm.trans hpeer)
      · rw [hp] at hpeer
        cases hpeer

end

end Application10
end Jozabad
