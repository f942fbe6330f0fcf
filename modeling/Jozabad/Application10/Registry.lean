import Jozabad.Application10.Client
import Jozabad.Application10.Handlers

/-!
# The channel tables

The table of a client lists its channels by their numbers. In every state of the server
the tables list exactly the channels on the heap, each under its owner, the places of the
heap from `next` on are free, and no channel is its own peer (`Server.Registered`).

This is kept by whatever touches channels and takes away peers at most
(`Registered.touches`), by a call (`Registered.calls`), when a channel is opened
(`Registered.opens`), and when one is taken out of its table and freed
(`Registered.removes`).
-/

namespace Jozabad
namespace Application10

open Partners

/-- The client `i` has the channel at `x` under the number `lcn`. -/
def Server.Listed (σ : Server) (i : ℕ) (lcn : UInt16) (x : ℕ) : Prop :=
  ∃ C, σ.clients[i]? = some C ∧ C.channels.get? lcn = some x

/-- **The tables list the channels on the heap.** -/
structure Server.Registered (σ : Server) : Prop where
  listed : ∀ i lcn x,
    σ.Listed i lcn x ↔ (σ.heap.get? x).map JzChannel.owner = some (i, lcn)
  fresh : ∀ x X, σ.heap.get? x = some X → x < σ.next
  apart : Apart JzChannel.peer σ.heap.get?

section

variable {σ σ₁ σ' : Server} {now x y z i j : ℕ} {lcn lcn' : UInt16} {X : JzChannel} {msg : JzMsg}
  {C : JzClient}

theorem Listed.congr (h : σ'.clients = σ.clients) : σ'.Listed i lcn x ↔ σ.Listed i lcn x := by
  rw [Server.Listed, h, Server.Listed]

namespace Server.Registered

theorem get_of_listed (h : σ.Registered) (hx : σ.Listed i lcn x) :
    ∃ X, σ.heap.get? x = some X ∧ X.owner = (i, lcn) :=
  Option.map_eq_some_iff.1 ((h.listed i lcn x).1 hx)

theorem listed_of_get (h : σ.Registered) (hX : σ.heap.get? x = some X) :
    σ.Listed X.parent X.lcn x := by
  rw [h.listed, hX]
  rfl

/-- Channels of one owner are at one place. -/
theorem eq_of_owner {Y : JzChannel} (hσ : σ.Registered) (hX : σ.heap.get? x = some X)
    (hY : σ.heap.get? y = some Y) (howner : X.owner = Y.owner) : x = y := by
  obtain ⟨C, hC, hget⟩ := hσ.listed_of_get hX
  obtain ⟨C', hC', hget'⟩ := hσ.listed_of_get hY
  obtain ⟨hparent, hlcn⟩ := Prod.mk.injEq _ _ _ _ ▸ howner
  rw [hparent, hC', Option.some.injEq] at hC
  rw [hlcn, ← hC, hget'] at hget
  exact (Option.some.inj hget).symm

theorem next_eq_none (h : σ.Registered) : σ.heap.get? σ.next = none := by
  cases hX : σ.heap.get? σ.next with
  | none => rfl
  | some X => exact absurd (h.fresh _ _ hX) (Nat.lt_irrefl _)

theorem ne_next (h : σ.Registered) (hX : σ.heap.get? x = some X) : x ≠ σ.next :=
  (h.fresh x X hX).ne

theorem peer_ne (h : σ.Registered) (hX : σ.heap.get? x = some X) : X.peer ≠ some x :=
  fun hp => h.apart x (.intro hX hp)

theorem ne_of_peer (h : σ.Registered) (hX : σ.heap.get? x = some X) (hpeer : X.peer = some y) :
    x ≠ y := by
  rintro rfl
  exact h.peer_ne hX hpeer

theorem start : Registered {} where
  listed i lcn x := by
    constructor
    · rintro ⟨C, hC, -⟩
      cases hC
    · intro h
      cases h
  fresh _ _ h := by cases h
  apart := by
    rintro x ⟨X, hX, -⟩
    cases hX

theorem touches {zs : Set ℕ} (h : σ.Registered) (ht : Touches zs σ σ')
    (hs : Shrinks JzChannel.peer σ.heap.get? σ'.heap.get?) : σ'.Registered where
  listed i lcn x := by rw [Listed.congr ht.clients, ht.owner, h.listed]
  fresh x X' hX' := by
    have howner := ht.owner x
    rw [hX', Option.map_some] at howner
    obtain ⟨X, hX, -⟩ := Option.map_eq_some_iff.1 howner.symm
    rw [ht.next]
    exact h.fresh x X hX
  apart := hs.apart h.apart

/-- The heap stays, and the tables keep their entries. -/
theorem clients (h : σ.Registered) (hheap : σ'.heap = σ.heap) (hnext : σ'.next = σ.next)
    (hlisted : ∀ i lcn x, σ'.Listed i lcn x ↔ σ.Listed i lcn x) : σ'.Registered where
  listed i lcn x := by rw [hlisted, hheap, h.listed]
  fresh := by
    rw [hheap, hnext]
    exact h.fresh
  apart := by
    rw [hheap]
    exact h.apart

end Server.Registered

/-! ### A channel is opened -/

/-- A new channel of the client `i` has the number `lcn`, and its place is new. -/
structure Opens (i : ℕ) (lcn : UInt16) (σ σ' : Server) : Prop where
  clients : ∃ C, σ.clients[i]? = some C ∧ C.channels.get? lcn = none ∧
    σ'.clients = σ.clients.set i { C with channels := C.channels.set lcn σ.next }
  heap : σ'.heap = σ.heap.set σ.next (jzChannelNew i lcn)
  next : σ'.next = σ.next + 1
  sent : σ'.sent = σ.sent

theorem openChannel_opens (hC : σ.clients[i]? = some C) (hlcn : C.channels.get? lcn = none)
    (h : openChannel i lcn σ = .ok σ') : Opens i lcn σ σ' := by
  have h := client_bind_eq_ok hC h
  cases h
  exact ⟨⟨C, hC, hlcn, rfl⟩, rfl, rfl, rfl⟩

theorem Opens.get_new (h : Opens i lcn σ σ') :
    σ'.heap.get? σ.next = some (jzChannelNew i lcn) := by
  rw [h.heap, Table.get?_set_self]

theorem Opens.get_of_ne (h : Opens i lcn σ σ') (hz : z ≠ σ.next) :
    σ'.heap.get? z = σ.heap.get? z := by
  rw [h.heap, Table.get?_set_of_ne hz]

/-- The entry of a client in the list after a write. -/
theorem getElem?_set_client {Cs : List JzClient} {C' : JzClient} (hC : Cs[i]? = some C) :
    (Cs.set i C')[j]? = if j = i then some C' else Cs[j]? := by
  rw [List.getElem?_set]
  obtain ⟨hlt, -⟩ := List.getElem?_eq_some_iff.1 hC
  by_cases hij : i = j
  · subst hij
    rw [if_pos rfl, if_pos rfl, if_pos hlt]
  · rw [if_neg hij, if_neg (Ne.symm hij)]

/-- The tables list one channel more. -/
theorem Opens.listed (h : Opens i lcn σ σ') :
    σ'.Listed j lcn' x ↔ (j = i ∧ lcn' = lcn ∧ x = σ.next) ∨ σ.Listed j lcn' x := by
  obtain ⟨C, hC, hnone, hclients⟩ := h.clients
  rw [Server.Listed, Server.Listed, hclients]
  simp only [getElem?_set_client hC]
  by_cases hj : j = i
  · subst hj
    simp only [if_pos, Option.some.injEq, exists_eq_left', Table.get?_set, hC, true_and]
    by_cases hl : lcn' = lcn
    · subst hl
      simp only [if_pos, Option.some.injEq, true_and, hnone, reduceCtorEq, or_false]
      exact eq_comm
    · simp only [hl, if_false, false_and, false_or]
  · simp only [hj, if_false, false_and, false_or]

theorem Opens.alone (h : Opens i lcn σ σ') (hσ : σ.Registered) :
    Alone JzChannel.peer σ.next σ.heap.get? σ'.heap.get? := by
  refine ⟨fun y => not_points_of_none hσ.next_eq_none, fun y hy => ?_, fun z hz => h.get_of_ne hz⟩
  rw [points_iff h.get_new] at hy
  cases hy

theorem Server.Registered.opens (hσ : σ.Registered) (h : Opens i lcn σ σ') : σ'.Registered where
  listed j lcn' x := by
    -- The table has one entry more, and so has the heap.
    rw [h.listed, hσ.listed]
    by_cases hx : x = σ.next
    · subst hx
      rw [hσ.next_eq_none, h.get_new, Option.map_none, Option.map_some, Option.some.injEq]
      simp only [reduceCtorEq, or_false, and_true]
      exact ⟨fun ⟨hj, hl⟩ => by rw [hj, hl]; rfl, fun h => ⟨(congrArg Prod.fst h).symm,
        (congrArg Prod.snd h).symm⟩⟩
    · rw [h.get_of_ne hx]
      simp only [hx, and_false, false_or]
  fresh x X hX := by
    rw [h.next]
    by_cases hx : x = σ.next
    · subst hx
      exact Nat.lt_succ_self _
    · rw [h.get_of_ne hx] at hX
      exact Nat.lt_succ_of_lt (hσ.fresh x X hX)
  apart := (h.alone hσ).shrinks.apart hσ.apart

/-! ### A call -/

/-- `m` is the first number from `lcn` on that is not in the table, or the largest one. -/
structure FirstAbsent (channels : Table UInt16 ℕ) (lcn m : UInt16) : Prop where
  ge : lcn.toNat ≤ m.toNat
  le : m.toNat ≤ JZ_MSG_MAX_LCN
  taken : ∀ l : UInt16, lcn.toNat ≤ l.toNat → l.toNat < m.toNat → (channels.get? l).isSome
  absent : m.toNat < JZ_MSG_MAX_LCN → channels.get? m = none

/-- **The search for a number** ends at the first one that is free, or at the largest. -/
theorem lowLcn_firstAbsent {channels : Table UInt16 ℕ} {fuel : ℕ} {lcn : UInt16}
    (hle : lcn.toNat ≤ JZ_MSG_MAX_LCN) (hfuel : JZ_MSG_MAX_LCN ≤ lcn.toNat + fuel) :
    FirstAbsent channels lcn (lowLcn channels fuel lcn) := by
  induction fuel generalizing lcn with
  | zero =>
    rw [lowLcn]
    exact ⟨le_rfl, hle, fun l hl hlt => by omega, fun hlt => by omega⟩
  | succ fuel ih =>
    rw [lowLcn]
    split
    · rename_i htaken
      have hnext : (lcn + 1).toNat = lcn.toNat + 1 := by
        have hmax := htaken.2
        simp only [JZ_MSG_MAX_LCN] at hmax
        rw [UInt16.toNat_add, UInt16.toNat_one]
        omega
      have h : FirstAbsent channels (lcn + 1) (lowLcn channels fuel (lcn + 1)) :=
        ih (by rw [hnext]; exact htaken.2) (by rw [hnext]; omega)
      have hge := h.ge
      rw [hnext] at hge
      refine ⟨(Nat.le_succ _).trans hge, h.le, fun l hl hlt => ?_, h.absent⟩
      obtain heq | hgt := Nat.eq_or_lt_of_le hl
      · rw [← UInt16.toNat_inj.1 heq]
        exact htaken.1
      · exact h.taken l (by rw [hnext]; exact hgt) hlt
    · rename_i hfree
      refine ⟨le_rfl, hle, fun l hl hlt => absurd hlt (not_lt.2 hl), fun hlt => ?_⟩
      have hnot : ¬ (channels.get? lcn).isSome = true := fun h => hfree ⟨h, hlt⟩
      exact Option.not_isSome_iff_eq_none.1 hnot

/-- The search of `jz_client_reserve_low_channel` has enough fuel. -/
theorem lowLcn_first (channels : Table UInt16 ℕ) :
    FirstAbsent channels 1 (lowLcn channels JZ_MSG_MAX_LCN 1) :=
  lowLcn_firstAbsent (by decide) (by decide)

theorem reserveLowChannel_eq_ok (h : jzClientReserveLowChannel i σ = .ok (some y, σ')) :
    y = σ.next ∧ ∃ C, σ.clients[i]? = some C ∧
      Opens i (lowLcn C.channels JZ_MSG_MAX_LCN 1) σ σ' := by
  obtain ⟨C, hC, h⟩ := bind_eq_ok h
  simp only at h
  split at h
  · obtain ⟨σ₁, hopen, h⟩ := bind_eq_ok h
    obtain ⟨_, -, h⟩ := bind_eq_ok h
    obtain ⟨_, hnew, h⟩ := bind_eq_ok h
    cases h
    exact ⟨rfl, C, client_eq_ok hC, openChannel_opens (client_eq_ok hC)
      (Option.isNone_iff_eq_none.1 (eq_true_of_assertThat hnew)) hopen⟩
  · cases h

/-- The channel `X` after its call has gone out to the channel at `y`. -/
def JzChannel.calling (y : ℕ) (msg : JzMsg) (X : JzChannel) : JzChannel :=
  { ({ X with peer := some y }).storeFacilities msg with state := .p2ClientWaiting }

/-- A new channel that gets the call of the channel at `x`. -/
def calledChannel (now x i : ℕ) (lcn : UInt16) (msg : JzMsg) : JzChannel :=
  (({ jzChannelNew i lcn with peer := some x, state := .p3ServerWaiting }).storeFacilities
    msg).startTimer now .incomingCall TIMER_INCOMING_CALL_DURATION_IN_SECONDS

/-- **What a call does**: it opens a channel of the called client, and joins it to `x`. The
called client gets the message as it came in. -/
structure Calls (now x : ℕ) (msg : JzMsg) (i : ℕ) (lcn : UInt16) (σ σ' : Server) : Prop where
  opens : ∃ σ₁, Opens i lcn σ σ₁ ∧ σ'.clients = σ₁.clients ∧ σ'.next = σ₁.next
  lowest : ∃ C, σ.clients[i]? = some C ∧ lcn = lowLcn C.channels JZ_MSG_MAX_LCN 1
  own : ∀ X, σ.heap.get? x = some X → σ'.heap.get? x = some (X.calling σ.next msg)
  other : σ'.heap.get? σ.next = some (calledChannel now x i lcn msg)
  frame : ∀ z, z ≠ x → z ≠ σ.next → σ'.heap.get? z = σ.heap.get? z
  sent : σ'.sent = σ.sent ++ [⟨i, some σ.next, jzMsgNewCallRequest msg.lcn msg.callingAddress
    msg.calledAddress msg.packet msg.window msg.throughput msg.data⟩]

theorem connects_calls (hσ : σ.Registered) (hX : σ.heap.get? x = some X)
    (hid : msg.id = .callRequest) (h : Connects now x X msg i lcn σ σ') :
    Calls now x msg i lcn σ σ' := by
  obtain ⟨⟨-, -, P, hP, -, hlcn, -⟩, y, σ₁, hreserve, h⟩ := h
  obtain ⟨rfl, C, hC, hopen⟩ := reserveLowChannel_eq_ok hreserve
  obtain rfl : P = C := Option.some.inj (hP.symm.trans hC)
  rw [← hlcn] at hopen
  have hne : x ≠ σ.next := hσ.ne_next hX
  -- The five writes, one after the other.
  obtain ⟨σ₂, h₂, h⟩ := bind_eq_ok h
  obtain ⟨σ₃, h₃, h⟩ := bind_eq_ok h
  obtain ⟨σ₄, h₄, h⟩ := bind_eq_ok h
  obtain ⟨σ₅, h₅, h⟩ := bind_eq_ok h
  obtain ⟨X₁, hX₁, rfl⟩ := update_eq_ok h₂
  obtain ⟨Y₂, hY₂, rfl⟩ := update_eq_ok h₃
  obtain ⟨X₃, hX₃, rfl⟩ := update_eq_ok h₄
  obtain ⟨Y₄, Y₅, out, hY₄, hstate, rfl⟩ := processServerMessage_eq_ok h₅
  obtain ⟨X₅, hX₅, rfl⟩ := update_eq_ok h
  -- What is found at the two places on the way.
  rw [hopen.get_of_ne hne, hX, Option.some.injEq] at hX₁
  subst hX₁
  rw [get_setChannel_of_ne hne.symm, hopen.get_new, Option.some.injEq] at hY₂
  subst hY₂
  have hX₃' := hX₃
  rw [get_setChannel_of_ne hne,
    get_setChannel_self ((hopen.get_of_ne hne).trans hX), Option.some.injEq] at hX₃
  subst hX₃
  have hY₃ : (σ₁.setChannel x { X with peer := some σ.next }).heap.get? σ.next =
      some (jzChannelNew i lcn) := by
    rw [get_setChannel_of_ne hne.symm, hopen.get_new]
  have hY₄' := hY₄
  rw [get_setChannel_of_ne hne.symm, get_setChannel_self hY₃, Option.some.injEq] at hY₄
  subst hY₄
  -- A ready channel takes the call.
  unfold jzChannelProcessServerMessageInState at hstate
  rw [hid] at hstate
  cases hstate
  have hX₄ := get_setChannel_self
    (N := ({ X with peer := some σ.next }).storeFacilities msg) hX₃'
  change ((((σ₁.setChannel x _).setChannel σ.next _).setChannel x _).setChannel
    σ.next _).heap.get? x = some X₅ at hX₅
  rw [get_setChannel_of_ne hne, hX₄, Option.some.injEq] at hX₅
  subst hX₅
  -- What the two channels are in the end, and that no other one is touched.
  refine ⟨⟨σ₁, hopen, rfl, rfl⟩, ⟨P, hC, hlcn⟩, fun X₀ hX₀ => ?_, ?_, fun z hzx hzy => ?_, ?_⟩
  · obtain rfl : X = X₀ := Option.some.inj (hX.symm.trans hX₀)
    exact get_setChannel_self ((get_setChannel_of_ne hne).trans hX₄)
  · exact (get_setChannel_of_ne hne.symm).trans (get_setChannel_self hY₄')
  · refine (get_setChannel_of_ne hzx).trans ((get_setChannel_of_ne hzy).trans ?_)
    rw [get_setChannel_of_ne hzx, get_setChannel_of_ne hzy, get_setChannel_of_ne hzx,
      hopen.get_of_ne hzy]
  · rw [← hopen.sent]
    rfl

theorem Calls.joins (hcall : Calls now x msg i lcn σ σ') (hX : σ.heap.get? x = some X) :
    Joins JzChannel.peer x σ.next σ.heap.get? σ'.heap.get? :=
  ⟨⟨.intro (hcall.own X hX) rfl, .intro hcall.other rfl⟩, hcall.frame⟩

theorem Server.Registered.calls (hσ : σ.Registered) (hcall : Calls now x msg i lcn σ σ')
    (hX : σ.heap.get? x = some X) : σ'.Registered := by
  have hne : x ≠ σ.next := hσ.ne_next hX
  obtain ⟨σ₁, hopen, hclients, hnext⟩ := hcall.opens
  have hσ₁ : σ₁.Registered := hσ.opens hopen
  -- The owners are those of the tables with the new channel.
  have howner (z : ℕ) : (σ'.heap.get? z).map JzChannel.owner =
      (σ₁.heap.get? z).map JzChannel.owner := by
    by_cases hzx : z = x
    · rw [hzx, hcall.own X hX, hopen.get_of_ne hne, hX]
      rfl
    by_cases hz : z = σ.next
    · rw [hz, hcall.other, hopen.get_new]
      rfl
    · rw [hcall.frame z hzx hz, hopen.get_of_ne hz]
  -- Given the owners, the rest does not look at what the call has written.
  refine ⟨fun j l z => ?_, fun z Z hZ => ?_, (hcall.joins hX).apart hne hσ.apart⟩
  · rw [Listed.congr hclients, hσ₁.listed, howner]
  · have hz := howner z
    rw [hZ, Option.map_some] at hz
    obtain ⟨Z₁, hZ₁, -⟩ := Option.map_eq_some_iff.1 hz.symm
    rw [hnext]
    exact hσ₁.fresh z Z₁ hZ₁

/-! ### A channel is removed -/

/-- The channel at `x` is taken out of the table of the client `i` and freed. -/
structure Removes (i : ℕ) (lcn : UInt16) (x : ℕ) (σ σ' : Server) : Prop where
  clients : ∃ C, σ.clients[i]? = some C ∧
    σ'.clients = σ.clients.set i { C with channels := C.channels.remove lcn }
  heap : σ'.heap = σ.heap.remove x
  next : σ'.next = σ.next
  sent : σ'.sent = σ.sent

theorem Removes.listed (h : Removes i lcn x σ σ') :
    σ'.Listed j lcn' z ↔ σ.Listed j lcn' z ∧ ¬ (j = i ∧ lcn' = lcn) := by
  obtain ⟨C, hC, hclients⟩ := h.clients
  rw [Server.Listed, Server.Listed, hclients]
  simp only [getElem?_set_client hC]
  by_cases hj : j = i
  · subst hj
    simp only [if_pos, Option.some.injEq, exists_eq_left', Table.get?_remove, hC, true_and]
    by_cases hl : lcn' = lcn
    · simp [hl]
    · simp [hl]
  · simp only [hj, if_false, false_and, not_false_eq_true, and_true]

theorem Removes.get_of_ne (h : Removes i lcn x σ σ') (hz : z ≠ x) :
    σ'.heap.get? z = σ.heap.get? z := by
  rw [h.heap, Table.get?_remove_of_ne hz]

theorem Removes.alone (h : Removes i lcn x σ σ') (hX : σ.heap.get? x = some X)
    (hpeer : X.peer = none) : Alone JzChannel.peer x σ.heap.get? σ'.heap.get? := by
  refine ⟨fun y hy => ?_, fun y => not_points_of_none ?_, fun z hz => h.get_of_ne hz⟩
  · rw [points_iff hX, hpeer] at hy
    cases hy
  · rw [h.heap, Table.get?_remove_self]

theorem Server.Registered.removes (hσ : σ.Registered) (h : Removes i lcn x σ σ')
    (hX : σ.heap.get? x = some X) (howner : X.owner = (i, lcn)) (hpeer : X.peer = none) :
    σ'.Registered where
  listed j l z := by
    rw [h.listed, hσ.listed]
    by_cases hz : z = x
    · subst hz
      rw [h.heap, Table.get?_remove_self, hX, Option.map_some, Option.map_none, howner,
        Option.some.injEq, Prod.mk.injEq]
      simp only [reduceCtorEq, iff_false]
      exact fun hjl => hjl.2 ⟨hjl.1.1.symm, hjl.1.2.symm⟩
    · rw [h.get_of_ne hz, and_iff_left_iff_imp]
      -- Another channel of the same client has another number.
      rintro hz' ⟨rfl, rfl⟩
      have hx : σ.Listed j l x := by rw [hσ.listed, hX, Option.map_some, howner]
      obtain ⟨C, hC, hget⟩ := hx
      obtain ⟨C', hC', hget'⟩ := (hσ.listed j l z).2 hz'
      rw [hC, Option.some.injEq] at hC'
      rw [hC', hget'] at hget
      exact hz (Option.some.inj hget)
  fresh z Z hZ := by
    have hz : z ≠ x := by
      rintro rfl
      rw [h.heap, Table.get?_remove_self] at hZ
      cases hZ
    rw [h.get_of_ne hz] at hZ
    rw [h.next]
    exact hσ.fresh z Z hZ
  apart := (h.alone hX hpeer).shrinks.apart hσ.apart

theorem updateClient_eq_ok {f : JzClient → JzClient} (h : σ.updateClient i f = .ok σ') :
    ∃ C, σ.clients[i]? = some C ∧ σ' = σ.setClient i (f C) := by
  obtain ⟨C, hC, h⟩ := bind_eq_ok h
  cases h
  exact ⟨C, client_eq_ok hC, rfl⟩

/-- A channel that has no peer is freed. -/
theorem free_removes (hX : σ.heap.get? x = some X) (hpeer : X.peer = none)
    (h₁ : (σ.updateClient i fun C => { C with channels := C.channels.remove lcn }) = .ok σ₁)
    (h : jzChannelFree x σ₁ = .ok σ') : Removes i lcn x σ σ' := by
  obtain ⟨C, hC, rfl⟩ := updateClient_eq_ok h₁
  have hX₁ : (σ.setClient i { C with channels := C.channels.remove lcn }).heap.get? x = some X := hX
  obtain ⟨σ₂, h₂, h⟩ := bind_eq_ok (channel_bind_eq_ok hX₁ h)
  rw [JzChannel.updatePeer, hpeer] at h₂
  cases h₂
  cases h
  exact ⟨⟨C, hC, rfl⟩, rfl, rfl, rfl⟩

end

end Application10
end Jozabad
