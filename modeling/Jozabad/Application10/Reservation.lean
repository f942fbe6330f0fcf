import Jozabad.Application10.Steps

/-!
# The reservation of a number (`jz_client_reserve_low_channel`)

A channel for an incoming call is to be one that the called client does not use: the one
with the lowest number that is either not in its table or in the state `P1` (`Usable`).
Only when there is none, the call is to be refused (`Reserves`).

The search looks for a number that is not in the table, and it stops before the largest
one. A channel that has been cleared stays in the table, so that its number is not used
again. `reserves_iff` says when the search gives what it should.
-/

namespace Jozabad
namespace Application10

variable {σ σ' : Server} {i : ℕ} {C : JzClient} {lcn l : UInt16}

/-- The numbers that a channel can have. -/
def ValidLcn (lcn : UInt16) : Prop :=
  1 ≤ lcn.toNat ∧ lcn.toNat ≤ JZ_MSG_MAX_LCN

instance (lcn : UInt16) : Decidable (ValidLcn lcn) :=
  inferInstanceAs (Decidable (_ ∧ _))

/-- A client has no channel under the number, or one that is ready. -/
def Server.Usable (σ : Server) (C : JzClient) (lcn : UInt16) : Prop :=
  C.channels.get? lcn = none ∨
    ∃ x X, C.channels.get? lcn = some x ∧ σ.heap.get? x = some X ∧ X.state = .p1Ready

/-- `lcn` is the lowest number that can be used for a call to the client. -/
structure Server.LowestUsable (σ : Server) (C : JzClient) (lcn : UInt16) : Prop where
  valid : ValidLcn lcn
  usable : σ.Usable C lcn
  least : ∀ l, ValidLcn l → l.toNat < lcn.toNat → ¬ σ.Usable C l

/-- **The reservation gives a channel if there is one to give**, and it gives the lowest. -/
def Reserves (i : ℕ) (σ : Server) (C : JzClient) : Prop :=
  ∃ r σ', jzClientReserveLowChannel i σ = .ok (r, σ') ∧
    match r with
    | none => ∀ lcn, ValidLcn lcn → ¬ σ.Usable C lcn
    | some y => ∃ lcn, σ.LowestUsable C lcn ∧ σ'.Listed i lcn y

/-- `lcn` is the lowest number that the table does not have, and it is below the limit. -/
structure LowestFree (channels : Table UInt16 ℕ) (lcn : UInt16) : Prop where
  pos : 1 ≤ lcn.toNat
  lt : lcn.toNat < JZ_MSG_MAX_LCN
  absent : channels.get? lcn = none
  taken : ∀ l : UInt16, 1 ≤ l.toNat → l.toNat < lcn.toNat → (channels.get? l).isSome

/-! ### What the code does -/

/-- **The search** gives the lowest free number. -/
theorem lowestFree_iff : LowestFree channels lcn ↔
    lcn = lowLcn channels JZ_MSG_MAX_LCN 1 ∧ lcn.toNat < JZ_MSG_MAX_LCN := by
  have hfirst := lowLcn_first channels
  constructor
  · intro h
    refine ⟨UInt16.toNat_inj.1 (le_antisymm ?_ ?_), h.lt⟩
    · by_contra hgt
      have htaken := h.taken _ hfirst.ge (not_le.1 hgt)
      rw [hfirst.absent ((not_le.1 hgt).trans h.lt)] at htaken
      cases htaken
    · by_contra hgt
      have htaken := hfirst.taken lcn h.pos (not_le.1 hgt)
      rw [h.absent] at htaken
      cases htaken
  · rintro ⟨rfl, hlt⟩
    exact ⟨hfirst.ge, hlt, hfirst.absent hlt, hfirst.taken⟩

theorem reserveLowChannel_of_full (hC : σ.clients[i]? = some C)
    (hfull : ¬ (lowLcn C.channels JZ_MSG_MAX_LCN 1).toNat < JZ_MSG_MAX_LCN) :
    jzClientReserveLowChannel i σ = .ok (none, σ) := by
  rw [jzClientReserveLowChannel, Server.client, hC]
  exact if_neg hfull

theorem reserveLowChannel_of_room (hC : σ.clients[i]? = some C)
    (hroom : (lowLcn C.channels JZ_MSG_MAX_LCN 1).toNat < JZ_MSG_MAX_LCN)
    (hiodir : iodirValidate C.iodir.toNat = true) :
    ∃ σ', jzClientReserveLowChannel i σ = .ok (some σ.next, σ') := by
  have habsent := (lowLcn_first C.channels).absent hroom
  refine ⟨{ σ.setClient i
      { C with channels := C.channels.set (lowLcn C.channels JZ_MSG_MAX_LCN 1) σ.next } with
    heap := σ.heap.set σ.next (jzChannelNew i (lowLcn C.channels JZ_MSG_MAX_LCN 1))
    next := σ.next + 1 }, ?_⟩
  rw [jzClientReserveLowChannel, Server.client, hC]
  change (if (lowLcn C.channels JZ_MSG_MAX_LCN 1).toNat < JZ_MSG_MAX_LCN then _ else _) = _
  rw [if_pos hroom, openChannel, Server.client, hC, jzClientDiagnosticString, hiodir, habsent]
  rfl

/-- Nothing is reserved by a client whose directionality has no name. -/
theorem iodir_of_reserveLowChannel {y : ℕ} (hC : σ.clients[i]? = some C)
    (h : jzClientReserveLowChannel i σ = .ok (some y, σ')) :
    iodirValidate C.iodir.toNat = true := by
  have h := client_bind_eq_ok hC h
  simp only at h
  split at h
  · obtain ⟨σ₁, -, h⟩ := bind_eq_ok h
    obtain ⟨_, hnamed, -⟩ := bind_eq_ok h
    exact eq_true_of_assertThat hnamed
  · cases h

/-- The channel that is given has the number at which the search stopped. -/
theorem lcn_of_listed {y : ℕ} (hσ : σ.Registered)
    (h : jzClientReserveLowChannel i σ = .ok (some y, σ')) (hC : σ.clients[i]? = some C)
    (hlisted : σ'.Listed i lcn y) : lcn = lowLcn C.channels JZ_MSG_MAX_LCN 1 := by
  obtain ⟨rfl, C₀, hC₀, hopens⟩ := reserveLowChannel_eq_ok h
  obtain rfl : C = C₀ := Option.some.inj (hC.symm.trans hC₀)
  obtain ⟨-, hlcn, -⟩ | hold := hopens.listed.1 hlisted
  · exact hlcn
  · -- The place in the heap is new.
    obtain ⟨X, hX, -⟩ := hσ.get_of_listed hold
    exact absurd hX (by rw [hσ.next_eq_none]; nofun)

/-! ### When this is right -/

/-- **Reservation.** In a reachable state a channel is reserved as it should be if and only if
nothing can be used, or the lowest number that can be used is that of no channel at all, it
is not the largest one, and the client's directionality has a name. -/
theorem reserves_iff (hσ : serverSystem.Reachable σ) (hC : σ.clients[i]? = some C) :
    Reserves i σ C ↔ (∀ lcn, ValidLcn lcn → ¬ σ.Usable C lcn) ∨
      ∃ lcn, σ.LowestUsable C lcn ∧ C.channels.get? lcn = none ∧ lcn.toNat < JZ_MSG_MAX_LCN ∧
        iodirValidate C.iodir.toNat = true := by
  have hreg := registered_of_reachable hσ
  have hfirst := lowLcn_first C.channels
  constructor
  · rintro ⟨r, σ', hres, hr⟩
    cases r with
    | none => exact .inl hr
    | some y =>
      obtain ⟨lcn, hlowest, hlisted⟩ := hr
      have hroom := (reserveLowChannel_isSome hC hres).1 rfl
      obtain rfl := lcn_of_listed hreg hres hC hlisted
      exact .inr ⟨_, hlowest, hfirst.absent hroom, hroom, iodir_of_reserveLowChannel hC hres⟩
  · rintro (hnone | ⟨lcn, hlowest, habsent, hlt, hiodir⟩)
    · -- Were a number absent, it could be used.
      refine ⟨none, σ, reserveLowChannel_of_full hC fun hroom => ?_, hnone⟩
      exact hnone _ ⟨hfirst.ge, hfirst.le⟩ (.inl (hfirst.absent hroom))
    · -- The search stops at the lowest number that can be used.
      have hfree : LowestFree C.channels lcn := by
        refine ⟨hlowest.valid.1, hlt, habsent, fun l hpos hl => ?_⟩
        by_contra hnone
        exact hlowest.least l ⟨hpos, hl.le.trans hlowest.valid.2⟩ hl
          (.inl (Option.not_isSome_iff_eq_none.1 hnone))
      have heq := (lowestFree_iff.1 hfree).1.symm
      subst heq
      obtain ⟨σ', hres⟩ := reserveLowChannel_of_room hC hlt hiodir
      obtain ⟨-, C₀, hC₀, hopens⟩ := reserveLowChannel_eq_ok hres
      obtain rfl : C = C₀ := Option.some.inj (hC.symm.trans hC₀)
      exact ⟨_, σ', hres, _, hlowest, hopens.listed.2 (.inl ⟨rfl, rfl, rfl⟩)⟩

/-- `A` calls `B`, clears the call, and `B` confirms. -/
def completedEvents : List Event :=
  talkEvents ++ [.message 0 0 (jzMsgNewClearRequest 1 0 0),
    .message 0 1 (jzMsgNewClearConfirmation 1)]

/-- Before its first call, `B` has the number 1 to give. -/
theorem reserves_first : ∃ σ C, serverSystem.Reachable σ ∧ σ.clients[1]? = some C ∧
    (Reserves 1 σ C ↔ (∀ lcn, ValidLcn lcn → ¬ σ.Usable C lcn) ∨
      ∃ lcn, σ.LowestUsable C lcn ∧ C.channels.get? lcn = none ∧ lcn.toNat < JZ_MSG_MAX_LCN ∧
        iodirValidate C.iodir.toNat = true) := by
  have hplay : ({} : Server).play [.connect, .connect] = some _ := rfl
  exact ⟨_, _, reachable_of_play hplay, rfl, reserves_iff (reachable_of_play hplay) rfl⟩

/-- **A number lost.** After the first call of `B` is over, the channel 1 is ready, and the
reservation gives the channel 2. -/
theorem not_reserves_completed : ¬ ∀ σ i C, serverSystem.Reachable σ → σ.clients[i]? = some C →
    Reserves i σ C := by
  intro hclaim
  obtain ⟨σ, hplay, C, hC, hreserve, hready⟩ :
      ∃ σ, ({} : Server).play completedEvents = some σ ∧ ∃ C, σ.clients[1]? = some C ∧
        lowLcn C.channels JZ_MSG_MAX_LCN 1 = 2 ∧ σ.Usable C 1 :=
    ⟨_, rfl, _, rfl, rfl, .inr ⟨_, _, rfl, rfl, rfl⟩⟩
  have hreach := reachable_of_play hplay
  obtain ⟨r, σ', hres, hr⟩ := hclaim σ 1 C hreach hC
  cases r with
  | none => exact hr 1 (by decide) hready
  | some y =>
    obtain ⟨lcn, hlowest, hlisted⟩ := hr
    obtain rfl := (lcn_of_listed (registered_of_reachable hreach) hres hC hlisted).trans hreserve
    exact hlowest.least 1 (by decide) (by decide) hready

end Application10
end Jozabad
