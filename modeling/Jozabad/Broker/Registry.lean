import Jozabad.Broker.Process
import Mathlib.Data.List.GetD

/-!
# The registry of workers

The workers table is the registry of the broker: who is connected, under which name, and
through which connection. `Registry` says what holds of it. It depends on the identities of
the workers alone (`Worker.identity`), and the broker has three kinds of moves on them: a
worker is registered, a worker leaves, or some other field of a worker changes.
`KeptByMoves` collects the last two, and `sProcess_registers` says that a message that does
anything else registers a worker.

The key of a worker is read from the identity frame of its connection. A frame of fewer than
five bytes has none, and the key then depends on what lies behind the frame. So the runs
are those of `identifiedSystem`, in which every frame is long enough.
-/

namespace Jozabad
namespace Broker

open JozaMsg

variable {b b' : JozaPoll} {msg : JozaMsg} {env : Env} {outs : List JozaMsg} {w : Worker}
  {t : WorkersTable} {key k : ℕ}

/-! ### Identities -/

/-- What of a worker concerns its registration. -/
structure Identity where
  address : CString
  zaddr : Frame

/-- The identity of a worker. -/
def Worker.identity (w : Worker) : Identity :=
  { address := w.address, zaddr := w.zaddr }

/-- A frame of at least five bytes has all bytes of its key. -/
theorem msgAddr2key_beyond {z beyond : Frame} (hz : 5 ≤ z.length) :
    msgAddr2key z beyond = msgAddr2key z [] := by
  have hbyte : ∀ i, i < 5 → (z ++ beyond).getD i 0 = (z ++ []).getD i 0 := by
    intro i hi
    rw [List.append_nil, List.getD_append _ _ _ _ (by omega)]
  simp only [msgAddr2key, hbyte 1 (by omega), hbyte 2 (by omega), hbyte 3 (by omega),
    hbyte 4 (by omega)]

/-- **The names.** No two workers have the same name, the names are such as the checks let
through, and there are not too many workers. -/
structure Names (t : WorkersTable) : Prop where
  address_unique : ∀ k w k' w', t.get? k = some w → t.get? k' = some w' →
    w.address = w'.address → k = k'
  address_length : ∀ k w, t.get? k = some w →
    1 ≤ w.address.length ∧ w.address.length ≤ NAME_LEN
  address_safe : ∀ k w, t.get? k = some w → safeascii w.address.memory NAME_LEN = true
  room : t.size ≤ WORKER_COUNT

/-- Each worker is stored under the key of its own connection. -/
def Keyed (t : WorkersTable) : Prop :=
  ∀ k w, t.get? k = some w → 5 ≤ w.zaddr.length ∧ msgAddr2key w.zaddr [] = k

/-- **The registry.** The workers have names of their own, and the keys of their own
connections. -/
structure Registry (t : WorkersTable) : Prop extends Names t where
  key : Keyed t

/-- An entry of a table to which a worker is added is the new one, or an old one. -/
theorem get?_set_cases {w' : Worker} (h : (t.set key w).get? k = some w') :
    (k = key ∧ w' = w) ∨ t.get? k = some w' := by
  rw [Table.get?_set] at h
  split_ifs at h with hk
  · cases h
    exact .inl ⟨hk, rfl⟩
  · exact .inr h

namespace Names

theorem empty : Names ∅ where
  address_unique k w k' w' h := by cases h
  address_length k w h := by cases h
  address_safe k w h := by cases h
  room := Nat.zero_le _

/-- Tables without other names, and without more workers. -/
theorem mono {t' : WorkersTable} (h : Names t) (hsize : t'.size ≤ t.size)
    (hold : ∀ k w', t'.get? k = some w' → ∃ w, t.get? k = some w ∧ w'.address = w.address) :
    Names t' := by
  refine ⟨?_, ?_, ?_, hsize.trans h.room⟩
  · intro k w₁ k' w₁' hw₁ hw₁' haddr
    obtain ⟨w, hw, ha⟩ := hold k w₁ hw₁
    obtain ⟨w', hw', ha'⟩ := hold k' w₁' hw₁'
    exact h.address_unique k w k' w' hw hw' (by rw [← ha, ← ha', haddr])
  · intro k w' hw'
    obtain ⟨w, hw, ha⟩ := hold k w' hw'
    rw [ha]
    exact h.address_length k w hw
  · intro k w' hw'
    obtain ⟨w, hw, ha⟩ := hold k w' hw'
    rw [ha]
    exact h.address_safe k w hw

/-- A worker with a new name is added. -/
theorem set (h : Names t) (hfree : ∀ k w', t.get? k = some w' → w'.address ≠ w.address)
    (hlength : 1 ≤ w.address.length ∧ w.address.length ≤ NAME_LEN)
    (hsafe : safeascii w.address.memory NAME_LEN = true) (hroom : t.size < WORKER_COUNT) :
    Names (t.set key w) := by
  refine ⟨?_, ?_, ?_, Table.size_set_le.trans hroom⟩
  · intro k w₁ k' w₂ hw₁ hw₂ haddr
    obtain ⟨rfl, rfl⟩ | hold₁ := get?_set_cases hw₁
    · obtain ⟨rfl, -⟩ | hold₂ := get?_set_cases hw₂
      · rfl
      · exact absurd haddr.symm (hfree k' w₂ hold₂)
    · obtain ⟨rfl, rfl⟩ | hold₂ := get?_set_cases hw₂
      · exact absurd haddr (hfree k w₁ hold₁)
      · exact h.address_unique k w₁ k' w₂ hold₁ hold₂ haddr
  · intro k w' hw'
    obtain ⟨-, rfl⟩ | hw' := get?_set_cases hw'
    · exact hlength
    · exact h.address_length k w' hw'
  · intro k w' hw'
    obtain ⟨-, rfl⟩ | hw' := get?_set_cases hw'
    · exact hsafe
    · exact h.address_safe k w' hw'

end Names

/-! ### The moves of the broker -/

/-- The moves that register nobody keep a property of the workers: a worker leaves, or a
field that does not belong to its identity changes. -/
structure KeptByMoves (P : WorkersTable → Prop) : Prop where
  remove : ∀ {t k}, P t → P (t.remove k)
  modify : ∀ {t k f}, (∀ w, (f w).identity = w.identity) → P t → P (t.modify k f)

namespace KeptByMoves

variable {P : WorkersTable → Prop} (hP : KeptByMoves P)
include hP

theorem placeCall {other : ℕ} {c : Channel} (h : P b.workers) :
    P (b.placeCall key other c).workers :=
  hP.modify (fun _ => rfl) (hP.modify (fun _ => rfl) h)

theorem touch {now : ℤ} (h : P b.workers) : P (b.touch key now).workers :=
  hP.modify (fun _ => rfl) h

theorem sRemoveChannel {l : ℕ} {c : Channel} {other : ℕ} (h : P b.workers) :
    P (Broker.sRemoveChannel b l c other).workers :=
  hP.modify (fun _ => rfl) h

theorem sDisconnectIdleChannel {v : Visit} (hb : P b.workers)
    (h : Broker.sDisconnectIdleChannel b key w v = .ok (b', outs)) : P b'.workers := by
  unfold Broker.sDisconnectIdleChannel at h
  cases hc : b.channels.get? w.lcn.toNat with
  | none =>
    rw [hc] at h
    cases h
  | some c =>
    rw [hc] at h
    obtain ⟨⟨c', outs'⟩, -, h⟩ := bind_eq_ok h
    simp only at h
    split_ifs at h
    · cases hother : workersTableLookupOther b.workers key w with
      | none =>
        rw [hother] at h
        cases h
      | some e =>
        rw [hother] at h
        cases h
        exact hP.modify (fun _ => rfl) (hP.modify (fun _ => rfl) (hP.modify (fun _ => rfl) hb))
    · cases h
      exact hb

theorem sPingWorkers {visit : ℕ → Visit} {keys : List ℕ} (hb : P b.workers)
    (h : Broker.sPingWorkers visit keys b = .ok (b', outs)) : P b'.workers := by
  induction keys generalizing b outs with
  | nil =>
    cases h
    exact hb
  | cons key keys ih =>
    rw [Broker.sPingWorkers] at h
    cases hw : b.workers.get? key with
    | none =>
      rw [hw] at h
      exact ih hb h
    | some w =>
      rw [hw] at h
      obtain ⟨⟨b₁, outs₁, delete⟩, hworker, h⟩ := bind_eq_ok h
      obtain ⟨⟨b₂, outs₂⟩, hrest, h⟩ := bind_eq_ok h
      cases h
      have hb₁ : P b₁.workers := by
        rcases sPingWorker_eq_ok hworker with ⟨-, -, rfl, -⟩ | ⟨-, -, -, hdisc⟩ | ⟨-, rfl, -⟩
        · exact hb
        · exact hP.sDisconnectIdleChannel hb hdisc
        · exact hb
      refine ih ?_ hrest
      split_ifs
      · exact hP.remove hb₁
      · exact hb₁

/-- **A tick** registers nobody. -/
theorem sPing {visit : ℕ → Visit} (hb : P b.workers)
    (h : Broker.sPing b visit = .ok (b', outs)) : P b'.workers := by
  obtain ⟨⟨b₁, outs₁⟩, hworkers, h⟩ := bind_eq_ok h
  have hb₁ := hP.sPingWorkers hb hworkers
  simp only at h
  split_ifs at h <;> cases h <;> exact hb₁

end KeptByMoves

/-- The message registers a worker: it is a `CONNECT` that passes the checks, and there is
room for the worker and nobody of its name. -/
structure Registers (t : WorkersTable) (msg : JozaMsg) : Prop where
  connect : msg.id = .connect
  prevalidated : prevalidateMessage msg = .unspecified
  room : t.size < WORKER_COUNT
  free : ∀ k w, t.get? k = some w → w.address ≠ msg.callingAddress

/-- The worker that a message registers. -/
structure IsRegistered (msg : JozaMsg) (w : Worker) : Prop where
  address : w.address = msg.callingAddress
  zaddr : w.zaddr = msg.address
  ready : w.role = .ready
  lcn : w.lcn = 0

/-- A search by name that finds nobody. -/
theorem lookupByAddress_eq_none {address : CString} :
    workersTableLookupByAddress t address = none ↔
      ∀ k w, t.get? k = some w → w.address ≠ address := by
  rw [workersTableLookupByAddress, Table.find_eq_none]
  simp

/-- **A message** keeps what the moves keep, or registers a worker. -/
theorem sProcess_registers {P : WorkersTable → Prop} (hP : KeptByMoves P) (hb : P b.workers)
    (h : sProcess b msg env = .ok (b', outs)) :
    P b'.workers ∨ (Registers b.workers msg ∧ b.workers.get? (senderKey msg env) = none ∧
      ∃ w, IsRegistered msg w ∧ b'.workers = b.workers.set (senderKey msg env) w) := by
  cases sProcess_outcome h with
  | malformed | connectRefused | unknown => exact .inl hb
  | call | stray | callRefused | directory | ignored => exact .inl (hP.touch hb)
  | closed => exact .inl (hP.modify (fun _ => rfl) (hP.touch hb))
  | callPlaced => exact .inl (hP.placeCall (hP.touch hb))
  | left => exact .inl (hP.remove (hP.touch hb))
  | connected hpre hw hid hroom hfree hio =>
    exact .inr ⟨⟨hid, hpre, hroom, lookupByAddress_eq_none.1 hfree⟩, hw, _,
      ⟨rfl, rfl, rfl, rfl⟩, rfl⟩

/-- **A message on a connection that is not registered** is answered, and it changes the
broker only when it registers its sender. -/
theorem sProcess_unknown (hw : b.workers.get? (senderKey msg env) = none) :
    ∃ b' outs, sProcess b msg env = .ok (b', outs) ∧ b'.channels = b.channels ∧
      (Registers b.workers msg →
        ∃ w, IsRegistered msg w ∧ b'.workers = b.workers.set (senderKey msg env) w) ∧
      (¬ Registers b.workers msg → b'.workers = b.workers) := by
  by_cases hreg : Registers b.workers msg
  · have hvalid := (prevalidated_of_unspecified hreg.prevalidated).directionality_ok hreg.connect
    obtain ⟨iodir, hio⟩ := Option.isSome_iff_exists.1 hvalid
    have hroom : workersTableIsFull b.workers = false := by
      have := hreg.room
      simpa [workersTableIsFull]
    have hfree := lookupByAddress_eq_none.2 hreg.free
    set w := workerCreate msg.address msg.callingAddress msg.hostName iodir env.now with hwdef
    refine ⟨{ b with workers := b.workers.set (senderKey msg env) w },
      [sendAddrConnectIndication msg.address], ?_, rfl,
      fun _ => ⟨w, ⟨rfl, rfl, rfl, rfl⟩, rfl⟩, fun h => absurd hreg h⟩
    rw [sProcess_of_unknown hreg.prevalidated hw, sProcessMsgFromUnknownWorker,
      if_pos hreg.connect, hroom, hfree, hio]
    rfl
  · -- Each of the other branches leaves the broker as it is.
    suffices hsame : ∃ outs, sProcess b msg env = .ok (b, outs) by
      obtain ⟨outs, h⟩ := hsame
      exact ⟨b, outs, h, rfl, fun h => absurd h hreg, fun _ => rfl⟩
    by_cases hpre : prevalidateMessage msg = .unspecified
    · rw [sProcess_of_unknown hpre hw, sProcessMsgFromUnknownWorker]
      split_ifs with hid hfull hused
      · exact ⟨_, rfl⟩
      · exact ⟨_, rfl⟩
      · refine absurd ⟨hid, hpre, ?_, ?_⟩ hreg
        · simpa [workersTableIsFull] using hfull
        · exact lookupByAddress_eq_none.1 (by simpa using hused)
      · exact ⟨_, rfl⟩
    · exact ⟨_, sProcess_of_malformed hpre⟩

/-! ### Runs -/

/-- A table that is read off another one is so after the moves. -/
theorem keptByMoves_of_mono {P : WorkersTable → Prop}
    (hmono : ∀ t t' : WorkersTable, t'.size ≤ t.size →
      (∀ k w', t'.get? k = some w' → ∃ w, t.get? k = some w ∧ w'.identity = w.identity) →
        P t → P t') : KeptByMoves P where
  remove {t k} h := by
    refine hmono t _ Table.size_remove_le (fun k' w' hw' => ⟨w', ?_, rfl⟩) h
    rw [Table.get?_remove] at hw'
    split_ifs at hw'
    exact hw'
  modify {t k f} hf h := by
    refine hmono t _ Table.size_modify.le (fun k' w' hw' => ?_) h
    rw [Table.get?_modify] at hw'
    split_ifs at hw'
    · obtain ⟨w, hw, rfl⟩ := Option.map_eq_some_iff.1 hw'
      exact ⟨w, hw, hf w⟩
    · exact ⟨w', hw', rfl⟩

namespace Names

theorem keptByMoves : KeptByMoves Names :=
  keptByMoves_of_mono fun _ _ hsize hold h => h.mono hsize fun k w' hw' => by
    obtain ⟨w, hw, hid⟩ := hold k w' hw'
    exact ⟨w, hw, congrArg Identity.address hid⟩

/-- **The step lemma.** -/
theorem step {e : Event} (h : Names b.workers) (hstep : b.Step e b') : Names b'.workers := by
  cases e with
  | recv msg env outs =>
    obtain hkept | ⟨hreg, -, w, hw, hworkers⟩ := sProcess_registers keptByMoves h hstep.2
    · exact hkept
    · obtain ⟨hlength, hsafe⟩ := callingAddress_checked hreg.prevalidated hreg.connect
      rw [← hw.address] at hlength hsafe
      rw [hworkers]
      refine h.set ?_ hlength hsafe hreg.room
      rw [hw.address]
      exact hreg.free
  | ping visit outs => exact keptByMoves.sPing h hstep.2
  | signal =>
    obtain rfl := hstep
    exact h
  | rehash =>
    obtain ⟨workers, hsame, rfl⟩ := hstep
    exact h.mono hsame.size.ge fun k w hw => ⟨w, hsame.get?.trans hw, rfl⟩

theorem of_reachable (h : brokerSystem.Reachable b) : Names b.workers := by
  refine h.invariant (fun b => Names b.workers) ?_ ?_
  · rintro _ rfl
    exact .empty
  · rintro b e b' - hnames hstep
    exact hnames.step hstep

end Names

/-- The identity frame of a received message has all bytes of a key. -/
def Event.Identified : Event → Prop
  | .recv msg _ _ => 5 ≤ msg.address.length
  | .ping _ _ | .signal | .rehash => True

/-- The broker on connections with identity frames of at least five bytes. -/
def identifiedSystem : Lts JozaPoll Event :=
  brokerSystem.restrict fun _ e => e.Identified

namespace Keyed

theorem keptByMoves : KeptByMoves Keyed :=
  keptByMoves_of_mono fun _ _ _ hold h k w' hw' => by
    obtain ⟨w, hw, hid⟩ := hold k w' hw'
    rw [show w'.zaddr = w.zaddr from congrArg Identity.zaddr hid]
    exact h k w hw

/-- **The step lemma.** -/
theorem step {e : Event} (h : Keyed b.workers) (hid : e.Identified) (hstep : b.Step e b') :
    Keyed b'.workers := by
  cases e with
  | recv msg env outs =>
    obtain hkept | ⟨-, -, w, hw, hworkers⟩ := sProcess_registers keptByMoves h hstep.2
    · exact hkept
    · rw [hworkers]
      intro k w' hw'
      obtain ⟨rfl, rfl⟩ | hw' := get?_set_cases hw'
      · rw [hw.zaddr]
        exact ⟨hid, (msgAddr2key_beyond hid).symm⟩
      · exact h k w' hw'
  | ping visit outs => exact keptByMoves.sPing h hstep.2
  | signal =>
    obtain rfl := hstep
    exact h
  | rehash =>
    obtain ⟨workers, hsame, rfl⟩ := hstep
    exact fun k w hw => h k w (hsame.get?.trans hw)

end Keyed

theorem Registry.of_reachable (h : identifiedSystem.Reachable b) : Registry b.workers := by
  refine ⟨.of_reachable h.of_restrict, ?_⟩
  refine h.invariant (fun b => Keyed b.workers) ?_ ?_
  · rintro _ rfl k w hw
    cases hw
  · rintro b e b' - hkeyed ⟨hid, hstep⟩
    exact hkeyed.step hid hstep

/-- **The registry invariant.** In every state that is reached, no two workers have the same
name, and a message on a connection that is not registered changes nothing unless it
registers its sender, who is then on no call. -/
theorem registry_invariant (h : identifiedSystem.Reachable b) :
    Registry b.workers ∧
      ∀ msg env, b.workers.get? (senderKey msg env) = none →
        ∃ b' outs, sProcess b msg env = .ok (b', outs) ∧ b'.channels = b.channels ∧
          (Registers b.workers msg →
            ∃ w, IsRegistered msg w ∧ b'.workers = b.workers.set (senderKey msg env) w) ∧
          (¬ Registers b.workers msg → b'.workers = b.workers) :=
  ⟨.of_reachable h, fun _ _ hw => sProcess_unknown hw⟩

/-- After `A` has connected there is one worker, and nobody else can take its name. -/
theorem registry_invariant_onlyA : ∃ b, (identifiedSystem.Reachable b ∧ b.workers.size = 1) ∧
    Registry b.workers := by
  obtain ⟨b, outs, hproc, hsize⟩ : ∃ b outs,
      sProcess .start connectA quietEnv = .ok (b, outs) ∧ b.workers.size = 1 :=
    ⟨_, _, rfl, rfl⟩
  have hstep : identifiedSystem.Step .start (.recv connectA quietEnv outs) b :=
    ⟨show 5 ≤ connectA.address.length by decide, rfl, hproc⟩
  have hreach : identifiedSystem.Reachable b := .step (.init rfl) hstep
  exact ⟨b, ⟨hreach, hsize⟩, (registry_invariant hreach).1⟩

end Broker
end Jozabad
