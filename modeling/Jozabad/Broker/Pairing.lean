import Jozabad.Broker.Call
import Mathlib.Logic.Function.Basic

/-!
# Callers and callees in pairs

The broker keeps the two ends of a call in its workers table and the call itself in its
channels table. `Pairing` says that the two agree: the workers that are not ready come
in pairs, a caller and a callee with one logical channel number, and the channels are
those of the pairs. It is stated on what of the tables it depends on, the seat of each
worker and the channel of each number, and kept by four moves: a free seat changes
(`Pairing.update_free`), a channel goes on (`Pairing.update_channel`), and a call is
placed between two free seats on a free number (`Pairing.place`).

The broker's own moves are of this kind except in three cases, which
`KeepsPairing` excludes.

* A channel closes. `s_remove_channel` is given the channel in place of one of its
  workers, so that the channel stays in the table and one worker keeps its role.
* A call is placed to a worker that is not ready, or to the caller itself: the
  availability that is checked is the caller's.
* A call is placed while another one is up. `channels_table_find_free_lcn` looks up the
  address of its argument, so that every call is given the same number.

`pairing_kept` is the result for the runs without such steps, and `pairing_broken` has
a run with one.
-/

namespace Jozabad
namespace Broker

open JozaMsg

/-! ### Seats -/

/-- What of a worker concerns its call. -/
structure Seat where
  address : CString
  role : Role
  lcn : Lcn

/-- The seat of a worker. -/
def Worker.seat (w : Worker) : Seat :=
  { address := w.address, role := w.role, lcn := w.lcn }

/-- The seats of the registered workers. -/
def JozaPoll.seat (b : JozaPoll) (key : ℕ) : Option Seat :=
  (b.workers.get? key).map Worker.seat

/-- The other side of a call. -/
def Role.opposite : Role → Role
  | .ready => .ready
  | .xCaller => .yCallee
  | .yCallee => .xCaller

/-! ### The pairing -/

section Pairing

variable {κ : Type} (seats : κ → Option Seat) (channels : ℕ → Option Channel)

/-- The worker in seat `s` under `k` is on the call of channel `c`, and the one under
`k'` is its only partner. -/
structure Joined (k : κ) (s : Seat) (c : Channel) (k' : κ) : Prop where
  channel : channels s.lcn.toNat = some c
  lcn_eq : c.lcn = s.lcn
  not_ready : c.state ≠ .ready
  xname : s.role = .xCaller → c.xname = s.address
  yname : s.role = .yCallee → c.yname.text = some s.address
  ne : k' ≠ k
  partner : ∃ s', seats k' = some s' ∧ s'.lcn = s.lcn ∧ s'.role = s.role.opposite
  only : ∀ k'' s'', seats k'' = some s'' → s''.lcn = s.lcn → k'' = k ∨ k'' = k'

/-- **The pairing of the two tables.** A worker is ready iff it has no number; every
worker that is not ready is joined to a single other one by an open channel that bears
its number and its name; and every channel is the channel of such a pair. -/
structure Pairing : Prop where
  ready_iff : ∀ k s, seats k = some s → (s.role = .ready ↔ s.lcn = 0)
  on_call : ∀ k s, seats k = some s → s.role ≠ .ready → ∃ c k', Joined seats channels k s c k'
  owned : ∀ l c, channels l = some c → ∃ k s k', seats k = some s ∧ s.role ≠ .ready ∧
    s.lcn.toNat = l ∧ Joined seats channels k s c k'

variable {seats channels} {k k' : κ} {s : Seat} {c c' : Channel}

/-- The empty tables. -/
theorem Pairing.empty : Pairing (fun _ : κ => none) fun _ => none := by
  refine ⟨?_, ?_, ?_⟩
  · intro k s hs
    cases hs
  · intro k s hs
    cases hs
  · intro l c hc
    cases hc

theorem Role.opposite_ne_ready {r : Role} (h : r ≠ .ready) : r.opposite ≠ .ready := by
  cases r with
  | ready => exact absurd rfl h
  | xCaller | yCallee => simp [Role.opposite]

/-- A call is placed between two seats: `k` gets the seat `x`, `k'` the seat `y`, and nobody else
gets another one. -/
structure Places (seats seats' : κ → Option Seat) (k k' : κ) (x y : Seat) : Prop where
  caller : seats' k = some x
  callee : seats' k' = some y
  ne : k' ≠ k
  others : ∀ k₁, k₁ ≠ k → k₁ ≠ k' → seats' k₁ = seats k₁

namespace Places

variable {seats' : κ → Option Seat} {channels' : ℕ → Option Channel} {x y : Seat} {lcn : Lcn}

/-- A seat is one of the two, or an old one. -/
theorem cases (h : Places seats seats' k k' x y) {k₁ : κ} {s₁ : Seat} (hs : seats' k₁ = some s₁) :
    (k = k₁ ∧ x = s₁) ∨ (k' = k₁ ∧ y = s₁) ∨ (k₁ ≠ k ∧ k₁ ≠ k' ∧ seats k₁ = some s₁) := by
  by_cases h₁ : k₁ = k
  · rw [h₁, h.caller, Option.some.injEq] at hs
    exact .inl ⟨h₁.symm, hs⟩
  · by_cases h₂ : k₁ = k'
    · rw [h₂, h.callee, Option.some.injEq] at hs
      exact .inr (.inl ⟨h₂.symm, hs⟩)
    · rw [h.others k₁ h₁ h₂] at hs
      exact .inr (.inr ⟨h₁, h₂, hs⟩)

/-- A number that nobody had is the number of the two only. -/
theorem only (h : Places seats seats' k k' x y)
    (hunused : ∀ k₁ s₁, seats k₁ = some s₁ → s₁.lcn ≠ lcn) :
    ∀ k₁ s₁, seats' k₁ = some s₁ → s₁.lcn = lcn → k₁ = k ∨ k₁ = k' := by
  intro k₁ s₁ hs₁ hlcn
  obtain ⟨rfl, -⟩ | ⟨rfl, -⟩ | ⟨-, -, hs₁⟩ := h.cases hs₁
  · exact .inl rfl
  · exact .inr rfl
  · exact absurd hlcn (hunused k₁ s₁ hs₁)

/-- A call between other seats, under another number, goes on. -/
theorem joined {k₁ k₂ : κ} {s₁ : Seat} {c₁ : Channel} (h : Places seats seats' k k' x y)
    (hothers : ∀ k₂ s₂, seats k₂ = some s₂ → s₂.role ≠ .ready → k₂ ≠ k ∧ k₂ ≠ k')
    (hx : x.lcn = lcn) (hy : y.lcn = lcn) (hlcn : s₁.lcn ≠ lcn) (hrole : s₁.role ≠ .ready)
    (hj : Joined seats channels k₁ s₁ c₁ k₂)
    (hchannel : channels' s₁.lcn.toNat = channels s₁.lcn.toNat) :
    Joined seats' channels' k₁ s₁ c₁ k₂ := by
  refine { hj with channel := hchannel.trans hj.channel, partner := ?_, only := ?_ }
  · obtain ⟨s₂, hs₂, hlcn₂, hrole₂⟩ := hj.partner
    have hr₂ : s₂.role ≠ .ready := hrole₂ ▸ Role.opposite_ne_ready hrole
    obtain ⟨h₁, h₂⟩ := hothers k₂ s₂ hs₂ hr₂
    exact ⟨s₂, (h.others k₂ h₁ h₂).trans hs₂, hlcn₂, hrole₂⟩
  · intro k₃ s₃ hs₃ hlcn₃
    -- The two new seats have the new number.
    obtain ⟨-, rfl⟩ | ⟨-, rfl⟩ | ⟨-, -, hs₃⟩ := h.cases hs₃
    · exact absurd (hlcn₃.symm.trans hx) hlcn
    · exact absurd (hlcn₃.symm.trans hy) hlcn
    · exact hj.only k₃ s₃ hs₃ hlcn₃

end Places

namespace Pairing

/-- The workers on a call have a number. -/
theorem lcn_ne_zero (h : Pairing seats channels) (hs : seats k = some s) (hrole : s.role ≠ .ready) :
    s.lcn ≠ 0 :=
  fun hzero => hrole ((h.ready_iff k s hs).2 hzero)

variable [DecidableEq κ]

/-- **A free seat changes.** A worker on no call is registered, or leaves. -/
theorem update_free (h : Pairing seats channels) (o : Option Seat)
    (hold : ∀ s, seats k = some s → s.role = .ready)
    (hnew : ∀ s, o = some s → s.role = .ready ∧ s.lcn = 0) :
    Pairing (Function.update seats k o) channels := by
  -- A seat with a number is neither the old one nor the new one.
  have hother : ∀ k₁ s₁, s₁.lcn ≠ 0 →
      (Function.update seats k o k₁ = some s₁ ↔ seats k₁ = some s₁) := by
    intro k₁ s₁ hlcn
    by_cases hk : k₁ = k
    · subst hk
      rw [Function.update_self]
      constructor
      · intro hs
        exact absurd (hnew s₁ hs).2 hlcn
      · intro hs
        exact absurd ((h.ready_iff k₁ s₁ hs).1 (hold s₁ hs)) hlcn
    · rw [Function.update_of_ne hk]
  have hjoined : ∀ {k₁ s₁ c k₂}, s₁.lcn ≠ 0 → Joined seats channels k₁ s₁ c k₂ →
      Joined (Function.update seats k o) channels k₁ s₁ c k₂ := by
    intro k₁ s₁ c k₂ hlcn hj
    refine { hj with partner := ?_, only := ?_ }
    · obtain ⟨s₂, hs₂, hlcn₂, hrole₂⟩ := hj.partner
      exact ⟨s₂, (hother k₂ s₂ (hlcn₂ ▸ hlcn)).2 hs₂, hlcn₂, hrole₂⟩
    · intro k₃ s₃ hs₃ hlcn₃
      exact hj.only k₃ s₃ ((hother k₃ s₃ (hlcn₃ ▸ hlcn)).1 hs₃) hlcn₃
  have hready : ∀ k₁ s₁, Function.update seats k o k₁ = some s₁ →
      (s₁.role = .ready ↔ s₁.lcn = 0) := by
    intro k₁ s₁ hs₁
    by_cases hk : k₁ = k
    · subst hk
      rw [Function.update_self] at hs₁
      obtain ⟨hrole, hlcn⟩ := hnew s₁ hs₁
      exact iff_of_true hrole hlcn
    · rw [Function.update_of_ne hk] at hs₁
      exact h.ready_iff k₁ s₁ hs₁
  refine ⟨hready, ?_, ?_⟩
  · intro k₁ s₁ hs₁ hrole
    have hlcn : s₁.lcn ≠ 0 := fun hzero => hrole ((hready k₁ s₁ hs₁).2 hzero)
    obtain ⟨c, k₂, hj⟩ := h.on_call k₁ s₁ ((hother k₁ s₁ hlcn).1 hs₁) hrole
    exact ⟨c, k₂, hjoined hlcn hj⟩
  · intro l c hc
    obtain ⟨k₁, s₁, k₂, hs₁, hrole, hl, hj⟩ := h.owned l c hc
    have hlcn := h.lcn_ne_zero hs₁ hrole
    exact ⟨k₁, s₁, k₂, (hother k₁ s₁ hlcn).2 hs₁, hrole, hl, hjoined hlcn hj⟩

omit [DecidableEq κ] in
/-- **A channel goes on.** Its number and its names stay, and it is not closed. -/
theorem update_channel {l : ℕ} (h : Pairing seats channels) (hc : channels l = some c)
    (hsame : SameCall c c') (hopen : c'.state ≠ .ready) :
    Pairing seats (Function.update channels l (some c')) := by
  have hjoined : ∀ {k₁ s₁ c₁ k₂}, Joined seats channels k₁ s₁ c₁ k₂ →
      ∃ c₂, Joined seats (Function.update channels l (some c')) k₁ s₁ c₂ k₂ ∧
        Function.update channels l (some c') s₁.lcn.toNat = some c₂ := by
    intro k₁ s₁ c₁ k₂ hj
    -- The call of this channel goes on with it, other calls with theirs.
    by_cases hl : s₁.lcn.toNat = l
    · obtain rfl : c₁ = c := by
        have hchannel := hj.channel
        rw [hl, hc, Option.some.injEq] at hchannel
        exact hchannel.symm
      have hget : Function.update channels l (some c') s₁.lcn.toNat = some c' := by
        rw [hl, Function.update_self]
      refine ⟨c', { hj with
        channel := hget, lcn_eq := hsame.lcn.trans hj.lcn_eq, not_ready := hopen,
        xname := ?_, yname := ?_ }, hget⟩
      · intro hrole
        rw [hsame.xname]
        exact hj.xname hrole
      · intro hrole
        rw [hsame.yname]
        exact hj.yname hrole
    · have hget : Function.update channels l (some c') s₁.lcn.toNat = some c₁ := by
        rw [Function.update_of_ne hl]
        exact hj.channel
      exact ⟨c₁, { hj with channel := hget }, hget⟩
  refine ⟨h.ready_iff, ?_, ?_⟩
  · intro k₁ s₁ hs₁ hrole
    obtain ⟨c₁, k₂, hj⟩ := h.on_call k₁ s₁ hs₁ hrole
    obtain ⟨c₂, hj₂, -⟩ := hjoined hj
    exact ⟨c₂, k₂, hj₂⟩
  · intro l₁ c₂ hc₂
    -- The number had a channel before.
    obtain ⟨c₁, hc₁⟩ : ∃ c₁, channels l₁ = some c₁ := by
      by_cases hl : l₁ = l
      · exact ⟨c, hl ▸ hc⟩
      · rw [Function.update_of_ne hl] at hc₂
        exact ⟨c₂, hc₂⟩
    obtain ⟨k₁, s₁, k₂, hs₁, hrole, rfl, hj⟩ := h.owned l₁ c₁ hc₁
    obtain ⟨c₃, hj₃, hc₃⟩ := hjoined hj
    rw [hc₂, Option.some.injEq] at hc₃
    subst hc₃
    exact ⟨k₁, s₁, k₂, hs₁, hrole, rfl, hj₃⟩

/-! ### Placing a call -/

omit [DecidableEq κ] in
/-- Nobody has a number whose channel is free: a worker with a number is on its call. -/
theorem lcn_ne_of_free {lcn : Lcn} (h : Pairing seats channels)
    (hfree : channels lcn.toNat = none) (hlcn : lcn ≠ 0) (hs : seats k = some s) :
    s.lcn ≠ lcn := by
  rintro rfl
  have hrole : s.role ≠ .ready := fun hr => hlcn ((h.ready_iff k s hs).1 hr)
  obtain ⟨c, k', hj⟩ := h.on_call k s hs hrole
  rw [hj.channel] at hfree
  cases hfree

/-- **A call is placed** between two free seats, on a free number. -/
theorem place {s' : Seat} (h : Pairing seats channels) (hs : seats k = some s)
    (hs' : seats k' = some s') (hrole : s.role = .ready) (hrole' : s'.role = .ready)
    (hne : k' ≠ k) (hfree : channels c.lcn.toNat = none) (hlcn : c.lcn ≠ 0)
    (hopen : c.state ≠ .ready) (hx : c.xname = s.address) (hy : c.yname.text = some s'.address) :
    Pairing
      (Function.update
        (Function.update seats k (some { address := s.address, role := .xCaller, lcn := c.lcn }))
        k' (some { address := s'.address, role := .yCallee, lcn := c.lcn }))
      (Function.update channels c.lcn.toNat (some c)) := by
  set x : Seat := { address := s.address, role := .xCaller, lcn := c.lcn } with hxdef
  set y : Seat := { address := s'.address, role := .yCallee, lcn := c.lcn } with hydef
  set seats' := Function.update (Function.update seats k (some x)) k' (some y) with hseats'
  have hunused : ∀ k₁ s₁, seats k₁ = some s₁ → s₁.lcn ≠ c.lcn :=
    fun _ _ => h.lcn_ne_of_free hfree hlcn
  have hplaces : Places seats seats' k k' x y := by
    refine ⟨?_, ?_, hne, ?_⟩
    · rw [hseats', Function.update_of_ne hne.symm, Function.update_self]
    · rw [hseats', Function.update_self]
    · intro k₁ h₁ h₂
      rw [hseats', Function.update_of_ne h₂, Function.update_of_ne h₁]
  have hchannel : Function.update channels c.lcn.toNat (some c) c.lcn.toNat = some c :=
    Function.update_self _ _ _
  have hjx : Joined seats' (Function.update channels c.lcn.toNat (some c)) k x c k' :=
    { channel := hchannel, lcn_eq := rfl, not_ready := hopen
      xname := fun _ => hx
      yname := fun hr => by cases hr
      ne := hne
      partner := ⟨y, hplaces.callee, rfl, rfl⟩
      only := hplaces.only hunused }
  have hjy : Joined seats' (Function.update channels c.lcn.toNat (some c)) k' y c k :=
    { channel := hchannel, lcn_eq := rfl, not_ready := hopen
      xname := fun hr => by cases hr
      yname := fun _ => hy
      ne := hne.symm
      partner := ⟨x, hplaces.caller, rfl, rfl⟩
      only := fun k₁ s₁ hs₁ hlcn₁ => (hplaces.only hunused k₁ s₁ hs₁ hlcn₁).symm }
  -- Calls between other seats go on.
  have hnotfree : ∀ {k₁ s₁}, seats k₁ = some s₁ → s₁.role ≠ .ready → k₁ ≠ k ∧ k₁ ≠ k' := by
    intro k₁ s₁ hs₁ hr
    constructor
    · rintro rfl
      rw [hs, Option.some.injEq] at hs₁
      exact hr (hs₁ ▸ hrole)
    · rintro rfl
      rw [hs', Option.some.injEq] at hs₁
      exact hr (hs₁ ▸ hrole')
  have hjoined : ∀ {k₁ s₁ c₁ k₂}, seats k₁ = some s₁ → s₁.role ≠ .ready →
      Joined seats channels k₁ s₁ c₁ k₂ →
        Joined seats' (Function.update channels c.lcn.toNat (some c)) k₁ s₁ c₁ k₂ := by
    intro k₁ s₁ c₁ k₂ hs₁ hr hj
    refine hplaces.joined (fun _ _ => hnotfree) rfl rfl (hunused k₁ s₁ hs₁) hr hj ?_
    rw [Function.update_of_ne fun hl => hunused k₁ s₁ hs₁ (UInt16.toNat_inj.1 hl)]
  refine ⟨?_, ?_, ?_⟩
  · -- The two new seats are not ready and have a number.
    intro k₁ s₁ hs₁
    obtain ⟨rfl, rfl⟩ | ⟨rfl, rfl⟩ | ⟨-, -, hs₁⟩ := hplaces.cases hs₁
    · exact iff_of_false (by simp [hxdef]) hlcn
    · exact iff_of_false (by simp [hydef]) hlcn
    · exact h.ready_iff k₁ s₁ hs₁
  · intro k₁ s₁ hs₁ hr
    obtain ⟨rfl, rfl⟩ | ⟨rfl, rfl⟩ | ⟨-, -, hs₁⟩ := hplaces.cases hs₁
    · exact ⟨c, k', hjx⟩
    · exact ⟨c, k, hjy⟩
    · obtain ⟨c₁, k₂, hj⟩ := h.on_call k₁ s₁ hs₁ hr
      exact ⟨c₁, k₂, hjoined hs₁ hr hj⟩
  · intro l c₁ hc₁
    -- The new channel is that of the new pair.
    by_cases hl : l = c.lcn.toNat
    · subst hl
      rw [Function.update_self, Option.some.injEq] at hc₁
      exact ⟨k, x, k', hplaces.caller, by simp [hxdef], rfl, hc₁ ▸ hjx⟩
    · rw [Function.update_of_ne hl] at hc₁
      obtain ⟨k₁, s₁, k₂, hs₁, hr, hl₁, hj⟩ := h.owned l c₁ hc₁
      obtain ⟨h₁, h₂⟩ := hnotfree hs₁ hr
      exact ⟨k₁, s₁, k₂, (hplaces.others k₁ h₁ h₂).trans hs₁, hr, hl₁, hjoined hs₁ hr hj⟩

end Pairing

end Pairing

variable {b b' : JozaPoll} {msg : JozaMsg} {env : Env} {outs : List JozaMsg} {w w' : Worker}
  {c c' : Channel} {key other : ℕ}

/-! ### The seats of the broker -/

theorem JozaPoll.seat_touch {now : ℤ} : (b.touch key now).seat = b.seat := by
  funext k
  simp only [JozaPoll.seat, JozaPoll.touch, Table.get?_modify]
  split_ifs with hk
  · rw [hk, Option.map_map]
    rfl
  · rfl

theorem JozaPoll.seat_set :
    { b with workers := b.workers.set key w }.seat = Function.update b.seat key (some w.seat) := by
  funext k
  simp only [JozaPoll.seat, Table.get?_set, Function.update_apply]
  split_ifs <;> rfl

theorem JozaPoll.seat_remove :
    { b with workers := b.workers.remove key }.seat = Function.update b.seat key none := by
  funext k
  simp only [JozaPoll.seat, Table.get?_remove, Function.update_apply]
  split_ifs <;> rfl

theorem JozaPoll.seat_placeCall (hw : b.workers.get? key = some w)
    (hw' : b.workers.get? other = some w') (hne : other ≠ key) :
    (b.placeCall key other c).seat =
      Function.update
        (Function.update b.seat key
          (some { address := w.address, role := .xCaller, lcn := b.lcn }))
        other (some { address := w'.address, role := .yCallee, lcn := b.lcn }) := by
  have hother : (b.workers.modify key (workerSetRoleToXCaller b.lcn)).get? other = some w' := by
    rw [Table.get?_modify_of_ne hne, hw']
  funext k
  simp only [JozaPoll.seat, JozaPoll.placeCall, Table.get?_modify_eq_update hother,
    Table.get?_modify_eq_update hw, Function.update_apply]
  split_ifs <;> rfl

theorem JozaPoll.seat_of_get? (hw : b.workers.get? key = some w) : b.seat key = some w.seat := by
  rw [JozaPoll.seat, hw]
  rfl

/-- The channel that the broker stores for a new call. -/
theorem channelCreate_eq_ok {ynameHi lcn : Lcn} {xzaddr yzaddr : Frame} {xname yname : CString}
    {pkt window tput : ℕ}
    (h : channelCreate ynameHi lcn xzaddr xname yzaddr yname pkt window tput = .ok c) :
    c.lcn = lcn ∧ c.xname = xname ∧ c.yname.text = some yname := by
  unfold channelCreate at h
  obtain ⟨_, -, h⟩ := bind_eq_ok h
  obtain ⟨_, -, h⟩ := bind_eq_ok h
  cases h
  exact ⟨rfl, rfl, rfl⟩

/-! ### The steps that break the pairing -/

/-- The message closes the call of its sender. -/
def ClosesCall (b : JozaPoll) (msg : JozaMsg) (env : Env) : Prop :=
  ∃ w c other, OnCall b (senderKey msg env) w c other ∧
    (actionTable c.state msg.id.code w.isY).closes = true

/-- The message is a call request that the broker grants, to the caller itself, to a
worker that is on another call, or on a number that is taken. -/
def Misplaces (b : JozaPoll) (msg : JozaMsg) (env : Env) : Prop :=
  ∃ w other w', Placeable b (senderKey msg env) w msg other w' ∧
    (other = senderKey msg env ∨ w'.role ≠ .ready ∨ b.channels.get? b.lcn.toNat ≠ none)

/-- A worker on a call is swept. -/
def SweepsCall (b : JozaPoll) (visit : ℕ → Visit) : Prop :=
  ∃ key w, b.workers.get? key = some w ∧ w.role ≠ .ready ∧ b.Sweeps w (visit key)

/-- The steps that break the pairing. -/
def BreaksPairing (b : JozaPoll) : Event → Prop
  | .recv msg env _ =>
    prevalidateMessage msg = .unspecified ∧ (ClosesCall b msg env ∨ Misplaces b msg env)
  | .ping visit _ => SweepsCall b visit
  | .signal | .rehash => False

/-- The pairing, and the number that the next call is given. -/
structure PairInv (b : JozaPoll) : Prop where
  pairing : Pairing b.seat b.channels.get?
  lcn_ne_zero : b.lcn ≠ 0

namespace PairInv

theorem start : PairInv .start :=
  ⟨Pairing.empty, by decide⟩

theorem touch {now : ℤ} (h : PairInv b) : PairInv (b.touch key now) := by
  refine ⟨?_, h.lcn_ne_zero⟩
  rw [JozaPoll.seat_touch]
  exact h.pairing

/-- A worker on no call leaves. -/
theorem remove (h : PairInv b) (hw : b.workers.get? key = some w) (hrole : w.role = .ready) :
    PairInv { b with workers := b.workers.remove key } := by
  refine ⟨?_, h.lcn_ne_zero⟩
  rw [JozaPoll.seat_remove]
  refine h.pairing.update_free none ?_ ?_
  · intro s hs
    rw [JozaPoll.seat_of_get? hw, Option.some.injEq] at hs
    rw [← hs]
    exact hrole
  · intro s hs
    cases hs

/-- A worker is registered. -/
theorem set (h : PairInv b) (hw : b.workers.get? key = none) (hrole : w.role = .ready)
    (hlcn : w.lcn = 0) : PairInv { b with workers := b.workers.set key w } := by
  refine ⟨?_, h.lcn_ne_zero⟩
  rw [JozaPoll.seat_set]
  refine h.pairing.update_free _ ?_ ?_
  · intro s hs
    rw [JozaPoll.seat, hw] at hs
    cases hs
  · intro s hs
    rw [Option.some.injEq] at hs
    rw [← hs]
    exact ⟨hrole, hlcn⟩

/-- A call goes on. -/
theorem modify {l : ℕ} (h : PairInv b) (hc : b.channels.get? l = some c) (hsame : SameCall c c')
    (hopen : c'.state ≠ .ready) :
    PairInv { b with channels := b.channels.modify l fun _ => c' } := by
  refine ⟨?_, h.lcn_ne_zero⟩
  rw [Table.get?_modify_eq_update hc]
  exact h.pairing.update_channel hc hsame hopen

/-- A call is placed. -/
theorem placeCall (h : PairInv b) (hplace : Placeable b key w msg other w') (hne : other ≠ key)
    (hready : w'.role = .ready) (hfree : b.channels.get? b.lcn.toNat = none)
    (hlcn : c.lcn = b.lcn) (hx : c.xname = w.address) (hy : c.yname.text = some w'.address) :
    PairInv (b.placeCall key other c) := by
  refine ⟨?_, h.lcn_ne_zero⟩
  have hw' : b.workers.get? other = some w' := (Table.find_eq_some hplace.other).1
  rw [JozaPoll.seat_placeCall hplace.worker hw' hne]
  have hplaced := Pairing.place (c := { c with state := .xCallRequest }) h.pairing
    (JozaPoll.seat_of_get? hplace.worker) (JozaPoll.seat_of_get? hw') hplace.ready hready hne
    (by rw [← hfree, ← hlcn]) (by rw [hlcn]; exact h.lcn_ne_zero) (by simp) hx hy
  rw [JozaPoll.placeCall, Table.get?_set_eq_update, ← hlcn]
  exact hplaced

/-- **A message** that neither closes a call nor misplaces one keeps the pairing. -/
theorem sProcess (h : PairInv b) (hkeep : ¬ BreaksPairing b (.recv msg env outs))
    (hproc : Broker.sProcess b msg env = .ok (b', outs)) : PairInv b' := by
  cases sProcess_outcome hproc with
  | malformed | connectRefused | unknown => exact h
  | stray | callRefused | directory | ignored => exact h.touch
  | call hpre hcall hdisp hopen =>
    exact h.touch.modify hcall.channel (channelDispatch_effect hdisp).sameCall hopen
  | closed hpre hcall hdisp hclosed =>
    obtain ⟨w₀, rfl, hcall₀⟩ := hcall.of_touch
    obtain ⟨c₀, k', hj⟩ := h.pairing.on_call _ _ (JozaPoll.seat_of_get? hcall₀.worker) hcall₀.role
    -- The pairing says that the channel was open, so the message closes it.
    have hopen := hj.not_ready
    have hc₀ := hj.channel
    rw [show w₀.seat.lcn = w₀.lcn from rfl, hcall₀.channel, Option.some.injEq] at hc₀
    rw [← hc₀] at hopen
    have hcloses := (channelDispatch_effect hdisp).closes hopen hclosed
    exact absurd ⟨hpre, .inl ⟨w₀, _, _, hcall₀, hcloses⟩⟩ hkeep
  | callPlaced hpre hplace hnew =>
    obtain ⟨w₀, w₀', rfl, rfl, hplace₀⟩ := hplace.of_touch
    -- Nothing that breaks the pairing happens, so the three conditions of `place` hold.
    have hfine : ¬ (_ = senderKey msg env ∨ w₀'.role ≠ .ready ∨
        b.channels.get? b.lcn.toNat ≠ none) :=
      fun hbad => hkeep ⟨hpre, .inr ⟨w₀, _, w₀', hplace₀, hbad⟩⟩
    rw [not_or, not_or, not_not, not_not] at hfine
    obtain ⟨hne, hready, hfree⟩ := hfine
    rw [if_neg hne] at hplace hnew
    obtain ⟨hlcn, hx, hy⟩ := channelCreate_eq_ok hnew
    exact h.touch.placeCall hplace hne hready hfree hlcn hx hy
  | left hpre hw hrole hid => exact (h.touch.remove hw hrole)
  | connected hpre hw hid hroom hfree hio => exact h.set hw rfl rfl

/-- The check of the workers, under any keys, if no worker on a call is swept. -/
theorem sPingWorkers {visit : ℕ → Visit} {keys : List ℕ} (h : PairInv b)
    (hkeep : ¬ SweepsCall b visit) (hping : Broker.sPingWorkers visit keys b = .ok (b', outs)) :
    PairInv b' := by
  induction keys generalizing b outs with
  | nil =>
    cases hping
    exact h
  | cons key keys ih =>
    rw [Broker.sPingWorkers] at hping
    cases hw : b.workers.get? key with
    | none =>
      rw [hw] at hping
      exact ih h hkeep hping
    | some w =>
      rw [hw] at hping
      obtain ⟨⟨b₁, outs₁, delete⟩, hworker, hping⟩ := bind_eq_ok hping
      obtain ⟨⟨b₂, outs₂⟩, hrest, hping⟩ := bind_eq_ok hping
      cases hping
      -- A ready worker that is swept leaves, and one on a call is not swept.
      rcases sPingWorker_eq_ok hworker with ⟨-, hrole, rfl, -, rfl⟩ | ⟨hsweep, hrole, -, -⟩ |
        ⟨-, rfl, rfl⟩
      · rw [if_pos rfl] at hrest
        refine ih (h.remove hw hrole) ?_ hrest
        -- The workers that are left were there before.
        rintro ⟨k, w₁, hw₁, hrole₁, hsweep₁⟩
        rw [Table.get?_remove] at hw₁
        split_ifs at hw₁ with hk
        exact hkeep ⟨k, w₁, hw₁, hrole₁, hsweep₁⟩
      · exact absurd ⟨key, w, hw, hrole, hsweep⟩ hkeep
      · exact ih h hkeep hrest

/-- **A tick** that sweeps no worker on a call keeps the pairing. -/
theorem sPing {visit : ℕ → Visit} (h : PairInv b) (hkeep : ¬ SweepsCall b visit)
    (hping : Broker.sPing b visit = .ok (b', outs)) : PairInv b' := by
  obtain ⟨⟨b₁, outs₁⟩, hworkers, hping⟩ := bind_eq_ok hping
  have h₁ := h.sPingWorkers hkeep hworkers
  simp only at hping
  split_ifs at hping <;> cases hping
  · exact ⟨h₁.pairing, h₁.lcn_ne_zero⟩
  · exact h₁

/-- The traversal order of the workers does not matter. -/
theorem rehash {workers : WorkersTable} (h : PairInv b) (hsame : b.workers.SameEntries workers) :
    PairInv { b with workers } := by
  refine ⟨?_, h.lcn_ne_zero⟩
  have hseat : { b with workers }.seat = b.seat := by
    funext k
    rw [JozaPoll.seat, JozaPoll.seat, hsame.get?]
  rw [hseat]
  exact h.pairing

/-- **The step lemma.** -/
theorem step {e : Event} (h : PairInv b) (hkeep : ¬ BreaksPairing b e) (hstep : b.Step e b') :
    PairInv b' := by
  cases e with
  | recv msg env outs => exact h.sProcess hkeep hstep.2
  | ping visit outs => exact h.sPing hkeep hstep.2
  | signal =>
    obtain rfl := hstep
    exact ⟨h.pairing, h.lcn_ne_zero⟩
  | rehash =>
    obtain ⟨workers, hsame, rfl⟩ := hstep
    exact h.rehash hsame

end PairInv

/-! ### Runs -/

/-- The broker without the steps that break the pairing. -/
def keepingSystem : Lts JozaPoll Event :=
  brokerSystem.restrict fun b e => ¬ BreaksPairing b e

theorem PairInv.of_reachable (h : keepingSystem.Reachable b) : PairInv b := by
  refine h.invariant PairInv ?_ ?_
  · rintro _ rfl
    exact .start
  · rintro b e b' - hinv ⟨hkeep, hstep⟩
    exact hinv.step hkeep hstep

/-- **The pairing invariant.** In a run without a step that breaks it, the pairing holds
in every state. -/
theorem pairing_kept (h : keepingSystem.Reachable b) : Pairing b.seat b.channels.get? :=
  (PairInv.of_reachable h).pairing

/-- When `A` leaves its call to `B`, it stays its caller, on a channel that is closed. -/
theorem pairing_broken :
    ∃ b, brokerSystem.Reachable b ∧ ¬ Pairing b.seat b.channels.get? := by
  obtain ⟨b, hb, ⟨s, hs, hrole, hlcn⟩, c, hc, hstate⟩ :
      ∃ b, recvAll .start [connectA, connectB, callAB, disconnectA] = .ok b ∧
        (∃ s, b.seat 1 = some s ∧ s.role = .xCaller ∧ s.lcn = 1) ∧
        ∃ c, b.channels.get? 1 = some c ∧ c.state = .ready :=
    ⟨_, rfl, ⟨_, rfl, rfl, rfl⟩, _, rfl, rfl⟩
  refine ⟨b, recvAll_reachable (.init rfl) rfl hb, fun hpair => ?_⟩
  obtain ⟨c', k', hj⟩ := hpair.on_call 1 s hs (by simp [hrole])
  have hchannel := hj.channel
  rw [hlcn, show (1 : Lcn).toNat = 1 from rfl, hc, Option.some.injEq] at hchannel
  exact hj.not_ready (hchannel ▸ hstate)

/-- A message on a connection that is not registered breaks nothing. -/
theorem not_breaksPairing_of_unknown (hw : b.workers.get? (senderKey msg env) = none) :
    ¬ BreaksPairing b (.recv msg env outs) := by
  rintro ⟨-, ⟨w, c, other, hcall, -⟩ | ⟨w, other, w', hplace, -⟩⟩
  · rw [hcall.worker] at hw
    cases hw
  · rw [hplace.worker] at hw
    cases hw

/-- The broker with `A` alone, and with `A` and `B`. -/
def onlyA : JozaPoll :=
  { JozaPoll.start with
    workers := JozaPoll.start.workers.set 1
      (workerCreate connectA.address connectA.callingAddress .empty .bidirectional 0) }

def bothReady : JozaPoll :=
  { onlyA with
    workers := onlyA.workers.set 2
      (workerCreate connectB.address connectB.callingAddress .empty .bidirectional 0) }

theorem bothReady_reachable : keepingSystem.Reachable bothReady := by
  have hA : keepingSystem.Step .start
      (.recv connectA quietEnv [sendAddrConnectIndication connectA.address]) onlyA :=
    ⟨not_breaksPairing_of_unknown rfl, rfl, rfl⟩
  have hB : keepingSystem.Step onlyA
      (.recv connectB quietEnv [sendAddrConnectIndication connectB.address]) bothReady :=
    ⟨not_breaksPairing_of_unknown rfl, rfl, rfl⟩
  exact .step (.step (.init rfl) hA) hB

/-- `A` calls `B`, and the pairing is kept. -/
theorem callAB_step (b : JozaPoll) (outs : List JozaMsg)
    (h : sProcess bothReady callAB quietEnv = .ok (b, outs)) : keepingSystem.Reachable b := by
  have hkeep : ¬ BreaksPairing bothReady (.recv callAB quietEnv outs) := by
    rintro ⟨-, ⟨w, c, other, hcall, -⟩ | ⟨w, other, w', hplace, hbad⟩⟩
    · -- `A` is on no call.
      have hw := hcall.worker
      cases (show some _ = some w from hw)
      exact hcall.role rfl
    · have hother := hplace.other
      cases (show some (2, _) = some (other, w') from hother)
      rcases hbad with hbad | hbad | hbad
      · exact absurd hbad (by decide)
      · exact hbad rfl
      · exact hbad rfl
  exact .step bothReady_reachable ⟨hkeep, rfl, h⟩

/-- The call that `A` places to `B` is that of a pair. -/
theorem pairing_kept_callAB :
    ∃ b c, b.channels.get? 1 = some c ∧ Pairing (JozaPoll.seat b) b.channels.get? := by
  obtain ⟨b, outs, hproc, c, hc⟩ : ∃ b outs, sProcess bothReady callAB quietEnv = .ok (b, outs) ∧
      ∃ c, b.channels.get? 1 = some c :=
    ⟨_, _, rfl, _, rfl⟩
  exact ⟨b, c, hc, pairing_kept (callAB_step b outs hproc)⟩

end Broker
end Jozabad
