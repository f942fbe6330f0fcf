import Jozabad.Application10.Completion
import Jozabad.Application10.Registration
import Jozabad.Application10.Reservation

/-!
# The set-up of a call

A call of a client `A` on a ready channel is to succeed exactly if `A` may place calls, the
facilities are in range, and the called address is that of an initialized client `B` that takes
calls and has a number to give (`Obtainable`). Then the caller waits, and one channel of `B` is
opened, joined to the caller's, and its client is told (`CallSucceeds`). Otherwise the call is
cleared, and `A` alone is told (`CallFails`).

The code differs in these points.

* It does not look at the state of `B`. A client that is being restarted or has hung up is still
  in the list under its address, and is called.
* It takes windows that are sequence numbers, and not only those that `windowRngchk` accepts.
* The message to `B` is the one that came in, with the number of the caller.
* A call that is refused clears the peer that the channel still remembers.

* `call_setup`: a call is set up as it should be in the cases of `CallAsMeant`, and in no others.
* `call_setup_mislabelled`: a call from the channel 5 is delivered with that number.
-/

namespace Jozabad
namespace Application10

/-! ### The rule -/

/-- The client may place calls. -/
def JzClient.PlacesCalls (C : JzClient) : Prop :=
  ∃ io, IoDir.ofCode C.iodir.toNat = some io ∧ iodirOutgoingCallsAllowed io = true

/-- The client takes calls. -/
def JzClient.TakesCalls (C : JzClient) : Prop :=
  ∃ io, IoDir.ofCode C.iodir.toNat = some io ∧ iodirIncomingCallsAllowed io = true

/-- The facilities that the call asks for are in range. -/
structure ValidFacilities (msg : JzMsg) : Prop where
  window : windowRngchk msg.window.toNat = 0
  throughput : tputRngchk msg.throughput.toNat = 0
  packet : packetRngchk msg.packet.toNat = 0

/-- **The client `i` can be called** under the number `lcn`. -/
structure Callee (σ : Server) (msg : JzMsg) (i : ℕ) (lcn : UInt16) (B : JzClient) : Prop where
  client : σ.clients[i]? = some B
  address : ∃ a, msg.calledAddress = some a ∧ B.address = some a
  initialized : B.state = .c4Initialized
  takes : B.TakesCalls
  number : LowestFree B.channels lcn

/-- **The call of the channel `X` is to succeed**: it is for the client `i`, which gives it the
number `lcn`. -/
structure Obtainable (σ : Server) (X : JzChannel) (msg : JzMsg) (i : ℕ) (lcn : UInt16) :
    Prop where
  caller : ∃ A, σ.clients[X.parent]? = some A ∧ A.PlacesCalls
  facilities : ValidFacilities msg
  callee : ∃ B, Callee σ msg i lcn B

/-- **The call has succeeded**: a channel has been opened at `y`, and nothing else has changed. -/
structure CallSucceeds (x : ℕ) (X : JzChannel) (msg : JzMsg) (i : ℕ) (lcn : UInt16) (y : ℕ)
    (σ σ' : Server) : Prop where
  new : σ.heap.get? y = none
  own : σ'.heap.get? x = some (X.calling y msg)
  other : ∃ Y, σ'.heap.get? y = some Y ∧ Y.owner = (i, lcn) ∧ Y.state = .p3ServerWaiting ∧
    Y.peer = some x ∧ Y.window = msg.window ∧ Y.throughput = msg.throughput ∧
    Y.packet = msg.packet
  frame : ∀ z, z ≠ x → z ≠ y → σ'.heap.get? z = σ.heap.get? z
  clients : ∃ B, σ.clients[i]? = some B ∧
    σ'.clients = σ.clients.set i { B with channels := B.channels.set lcn y }
  told : ∃ m : JzMsg, σ'.sent = σ.sent ++ [⟨i, some y, m⟩] ∧ m.id = .callRequest ∧ m.lcn = lcn

/-- **The call has failed**: the channel is cleared, and only its own client is told. -/
structure CallFails (x : ℕ) (X : JzChannel) (σ σ' : Server) : Prop where
  own : ∃ X', σ'.heap.get? x = some X' ∧ X'.state = .p7ServerClearIndication ∧ X'.peer = none
  nothingNew : ∀ z, σ.heap.get? z = none → σ'.heap.get? z = none
  others : ∀ z Z, σ.heap.get? z = some Z → Z.parent ≠ X.parent → σ'.heap.get? z = some Z
  clients : σ'.clients = σ.clients
  told : ∃ m : JzMsg, σ'.sent = σ.sent ++ [⟨X.parent, some x, m⟩] ∧ m.id = .clearRequest ∧
    m.lcn = X.lcn

/-- **The call is dealt with as it should be.** -/
def SetUp (now x : ℕ) (X : JzChannel) (msg : JzMsg) (σ : Server) : Prop :=
  ∃ σ', jzChannelDoClientCallRequest now x msg σ = .ok σ' ∧
    (∀ i lcn, Obtainable σ X msg i lcn → ∃ y, CallSucceeds x X msg i lcn y σ σ') ∧
    ((∀ i lcn, ¬ Obtainable σ X msg i lcn) → CallFails x X σ σ')

/-! ### When the code does so -/

/-- **The code refuses the call.** -/
inductive Refuses (σ : Server) (X : JzChannel) (msg : JzMsg) : Prop
  /-- The caller may not place calls, or asks for a facility that there is not. -/
  | caller (A : JzClient) (hA : σ.clients[X.parent]? = some A)
      (herr : callRequestError A.iodir msg ≠ none)
  /-- Nobody has the address. -/
  | unknown (a : CString) (ha : msg.calledAddress = some a)
      (hnot : ∀ (i : ℕ) (B : JzClient), σ.clients[i]? = some B → B.address ≠ some a)
  /-- The message has no address, and no client has one. -/
  | nameless (ha : msg.calledAddress = none)
      (hnone : ∀ (i : ℕ) (B : JzClient), σ.clients[i]? = some B → B.address = none)
  /-- The called client takes no calls, or has no number to give. -/
  | callee (i : ℕ) (B : JzClient) (a : CString) (hB : σ.clients[i]? = some B)
      (ha : msg.calledAddress = some a) (hBa : B.address = some a)
      (hbarred : (B.iodir = 1 ∨ B.iodir = 3) ∨ ∀ lcn, ¬ LowestFree B.channels lcn)

/-- The peer that the channel remembers has been cleared before, and does not point back, so
that the clear does not change it. A peer of the same client may do so. -/
def Server.Deaf (σ : Server) (X : JzChannel) (y : ℕ) : Prop :=
  ∃ Y, σ.heap.get? y = some Y ∧ Y.state = .p7ServerClearIndication ∧
    (Y.parent = X.parent ∨ Y.peer = none)

/-- **When a call is set up as it should be.** -/
inductive CallAsMeant (σ : Server) (X : JzChannel) (msg : JzMsg) : Prop
  /-- The call succeeds, and both sides happen to have the same number. -/
  | connected (i : ℕ) (lcn : UInt16) (hobtain : Obtainable σ X msg i lcn) (hlcn : msg.lcn = lcn)
  /-- The code refuses the call too, and nothing is left of an old peer. -/
  | refused (hrefuses : Refuses σ X msg) (hname : σ.Named X.parent)
      (hpeer : ∀ y, X.peer = some y → σ.Deaf X y)

/-- No two clients have the same address. -/
def Server.Addressed (σ : Server) : Prop :=
  ∀ (i j : ℕ) (s t : Standing) (a : CString), σ.standing i = some s → σ.standing j = some t →
    s.address = some a → t.address = some a → i = j

section

variable {σ σ₁ σ' : Server} {now x y i j : ℕ} {lcn : UInt16} {X Y Y' : JzChannel} {msg : JzMsg}
  {A B : JzClient} {a : CString} {channels : Table UInt16 ℕ}

/-! ### Addresses -/

/-- The addresses are kept. -/
theorem Server.Addressed.of_sub (h : σ.Addressed)
    (hsub : ∀ (j : ℕ) (t : Standing) (a : CString), σ'.standing j = some t → t.address = some a →
      ∃ s, σ.standing j = some s ∧ s.address = some a) : σ'.Addressed := by
  intro j k t u a ht hu hta hua
  obtain ⟨s, hs, hsa⟩ := hsub j t a ht hta
  obtain ⟨r, hr, hra⟩ := hsub k u a hu hua
  exact h j k s r a hs hr hsa hra

/-- A change of a standing that leaves the address. -/
theorem Server.Addressed.restands {f : Standing → Standing} (h : σ.Addressed)
    (hset : Restands i f σ σ') (hf : ∀ s, (f s).address = s.address) : σ'.Addressed := by
  refine h.of_sub fun j t a ht hta => ?_
  rw [hset j] at ht
  split_ifs at ht
  · obtain ⟨s, hs, rfl⟩ := Option.map_eq_some_iff.1 ht
    exact ⟨s, hs, hf s ▸ hta⟩
  · exact ⟨t, ht, hta⟩

/-- A client is accepted under an address that nobody has. -/
theorem Server.Addressed.accepted (h : σ.Addressed) (hacc : σ.Accepts i msg)
    (hset : Restands i (.accepted msg) σ σ') : σ'.Addressed := by
  intro j k t u a ht hu hta hua
  -- The address of the client itself is not that of another one.
  have hown {k : ℕ} {u : Standing} (hk : k ≠ i) (hu : σ'.standing k = some u)
      (hua : u.address = some a) : msg.callingAddress ≠ some a := by
    intro hmsg
    rw [hset.other hk] at hu
    exact findClient_eq_none (hmsg ▸ hacc.free) hu hua
  have hself {t : Standing} (ht : σ'.standing i = some t) : t.address = msg.callingAddress := by
    rw [hset i, if_pos rfl] at ht
    obtain ⟨s, -, rfl⟩ := Option.map_eq_some_iff.1 ht
    rfl
  by_cases hj : j = i
  · by_cases hk : k = i
    · rw [hj, hk]
    · subst hj
      exact absurd ((hself ht).symm.trans hta) (hown hk hu hua)
  · by_cases hk : k = i
    · subst hk
      exact absurd ((hself hu).symm.trans hua) (hown hj ht hta)
    · rw [hset.other hj] at ht
      rw [hset.other hk] at hu
      exact h j k t u a ht hu hta hua

theorem Server.Addressed.step {e : Event} (h : σ.Addressed) (hstep : StandingStep σ σ' e) :
    σ'.Addressed := by
  cases hstep with
  | joined hjoined =>
    refine h.of_sub fun j t a ht hta => ?_
    rw [hjoined] at ht
    split_ifs at ht
    · cases ht
      cases hta
    · exact ⟨t, ht, hta⟩
  | accepted hacc hset => exact h.accepted hacc hset
  | restarted _ _ _ hrestart =>
    obtain hset | hset := hrestart
    · exact h.restands hset fun _ => rfl
    · exact h.restands hset fun _ => rfl
  | corrupt hset => exact h.restands hset fun _ => rfl
  | hungUp hset => exact h.restands hset fun _ => rfl
  | same _ hsame => exact h.of_sub fun j t a ht hta => ⟨t, hsame j ▸ ht, hta⟩

/-- **In every reachable state** the addresses are those of different clients. -/
theorem addressed_of_reachable (h : serverSystem.Reachable σ) : σ.Addressed := by
  refine h.invariant Server.Addressed ?_ ?_
  · rintro σ rfl i j s t a hs
    cases hs
  · intro σ e σ' hreach haddr hstep
    have hσ := registered_of_reachable hreach
    exact haddr.step (handle_standing hσ.cleared hstep.1 hstep.2).of_cleared

/-- It stays so when a channel is opened for a message. -/
theorem Opens.addressed (h : Opens i lcn σ σ') (haddr : σ.Addressed) : σ'.Addressed :=
  haddr.of_sub fun j t _ ht hta => ⟨t, opens_same h j ▸ ht, hta⟩

/-- The client with an address is found under it. -/
theorem findClient_of_address (haddr : σ.Addressed) (hB : σ.clients[i]? = some B)
    (ha : B.address = some a) : jzClientListFindClient (some a) σ = .ok (some i) := by
  have hs := standing_of_client hB
  obtain ⟨j, hj⟩ := exists_findClient hs ha
  obtain ⟨t, ht, hta⟩ := findClient_eq_some hj
  obtain rfl := haddr i j _ t a hs ht ha hta
  exact hj

/-- A call without an address finds nobody, or it stops the server. -/
theorem findClient_null : jzClientListFindClient none σ = .ok none ↔
    ∀ (i : ℕ) (B : JzClient), σ.clients[i]? = some B → B.address = none := by
  unfold jzClientListFindClient
  split_ifs with hany
  · refine iff_of_false nofun fun hnone => ?_
    obtain ⟨B, hB, hsome⟩ := List.any_eq_true.1 hany
    obtain ⟨i, hi⟩ := List.getElem?_of_mem hB
    rw [hnone i B hi] at hsome
    cases hsome
  · refine iff_of_true rfl fun i B hB => ?_
    by_contra hsome
    exact hany (List.any_eq_true.2 ⟨B, List.mem_of_getElem? hB, Option.isSome_iff_ne_none.2 hsome⟩)

theorem findClient_null_ne : jzClientListFindClient none σ ≠ .ok (some i) := by
  unfold jzClientListFindClient
  split_ifs <;> nofun

/-! ### Directionalities and numbers -/

theorem ofCode_eq_some {n : ℕ} {io : IoDir} (h : IoDir.ofCode n = some io) : n = io.code := by
  unfold IoDir.ofCode at h
  split at h <;> cases h <;> rfl

theorem placesCalls_iff : A.PlacesCalls ↔ A.iodir = 0 ∨ A.iodir = 1 := by
  constructor
  · rintro ⟨io, hcode, hallowed⟩
    have hcode := ofCode_eq_some hcode
    cases io with
    | bidirectional => exact .inl (UInt8.toNat_inj.1 hcode)
    | incomingCallsBarred => exact .inr (UInt8.toNat_inj.1 hcode)
    | outgoingCallsBarred | callsBarred => cases hallowed
  · rintro (hcode | hcode)
    · exact ⟨.bidirectional, by rw [hcode]; rfl, rfl⟩
    · exact ⟨.incomingCallsBarred, by rw [hcode]; rfl, rfl⟩

theorem takesCalls_iff : B.TakesCalls ↔ B.iodir = 0 ∨ B.iodir = 2 := by
  constructor
  · rintro ⟨io, hcode, hallowed⟩
    have hcode := ofCode_eq_some hcode
    cases io with
    | bidirectional => exact .inl (UInt8.toNat_inj.1 hcode)
    | outgoingCallsBarred => exact .inr (UInt8.toNat_inj.1 hcode)
    | incomingCallsBarred | callsBarred => cases hallowed
  · rintro (hcode | hcode)
    · exact ⟨.bidirectional, by rw [hcode]; rfl, rfl⟩
    · exact ⟨.outgoingCallsBarred, by rw [hcode]; rfl, rfl⟩

/-- A client that takes calls has a directionality with a name. -/
theorem named_of_takesCalls (hB : σ.clients[i]? = some B) (h : B.TakesCalls) : σ.Named i := by
  obtain ⟨io, hcode, -⟩ := h
  exact ⟨B, hB, by rw [iodirValidate, hcode]; rfl⟩

/-- What the code asks of the caller. -/
theorem callRequestError_eq_none {iodir : UInt8} : callRequestError iodir msg = none ↔
    ¬ (iodir = 2 ∨ iodir = 3) ∧ seqRngchk msg.window.toNat = 0 ∧
      tputRngchk msg.throughput.toNat = 0 ∧ packetRngchk msg.packet.toNat = 0 := by
  unfold callRequestError
  split_ifs with hbarred hwindow htput hpacket
  · simp [hbarred]
  · simp [hwindow]
  · simp [htput]
  · simp [hpacket]
  · simp only [ne_eq, not_not] at hwindow htput hpacket
    simp [hbarred, hwindow, htput, hpacket]

/-- A window is a sequence number. -/
theorem seqRngchk_of_window {w : ℕ} (h : windowRngchk w = 0) : seqRngchk w = 0 := by
  obtain ⟨-, hmax⟩ := windowRngchk_eq_zero.1 h
  have hle : ¬ w > SEQ_MAX := by
    simp only [WINDOW_MAX, SEQ_MAX] at *
    omega
  rw [seqRngchk, if_neg hle]

/-! ### What the code grants and what it refuses -/

/-- A call that is to succeed is granted. -/
theorem Obtainable.grants (h : Obtainable σ X msg i lcn) (haddr : σ.Addressed) :
    Grants σ X msg i lcn ∧ σ.Named i := by
  obtain ⟨⟨A, hA, hplaces⟩, hfacilities, B, hB⟩ := h
  obtain ⟨a, ha, hBa⟩ := hB.address
  obtain ⟨hlcn, hlt⟩ := lowestFree_iff.1 hB.number
  refine ⟨⟨⟨A, hA, callRequestError_eq_none.2 ⟨?_, seqRngchk_of_window hfacilities.window,
    hfacilities.throughput, hfacilities.packet⟩⟩, ?_, B, hB.client, ?_, hlcn, hlt⟩,
    named_of_takesCalls hB.client hB.takes⟩
  · obtain hcode | hcode := placesCalls_iff.1 hplaces <;> rw [hcode] <;> decide
  · rw [ha]
    exact findClient_of_address haddr hB.client hBa
  · obtain hcode | hcode := takesCalls_iff.1 hB.takes <;> rw [hcode] <;> decide

/-- A call is granted by one client, under one number. -/
theorem Grants.unique {k : ℕ} {l : UInt16} (h : Grants σ X msg i lcn) (h' : Grants σ X msg k l) :
    i = k ∧ lcn = l := by
  obtain ⟨-, hfound, B, hB, -, hlcn, -⟩ := h
  obtain ⟨-, hfound', B', hB', -, hlcn', -⟩ := h'
  obtain rfl : i = k := Option.some.inj (Except.ok.inj (hfound.symm.trans hfound'))
  obtain rfl : B = B' := Option.some.inj (hB.symm.trans hB')
  exact ⟨rfl, hlcn.trans hlcn'.symm⟩

/-- What is refused is not granted. -/
theorem Refuses.not_grants (h : Refuses σ X msg) (haddr : σ.Addressed) :
    ¬ Grants σ X msg i lcn := by
  rintro ⟨⟨A, hA, hnone⟩, hfound, P, hP, hopen, hlcn, hlt⟩
  cases h with
  | caller A' hA' herr =>
    obtain rfl : A = A' := Option.some.inj (hA.symm.trans hA')
    exact herr hnone
  | unknown a ha hnot =>
    rw [ha] at hfound
    obtain ⟨s, hs, hsa⟩ := findClient_eq_some hfound
    obtain ⟨B, hB, rfl⟩ := Option.map_eq_some_iff.1 hs
    exact hnot i B hB hsa
  | nameless ha =>
    rw [ha] at hfound
    exact findClient_null_ne hfound
  | callee k B a hB ha hBa hbarred =>
    rw [ha, findClient_of_address haddr hB hBa] at hfound
    obtain rfl : k = i := Option.some.inj (Except.ok.inj hfound)
    obtain rfl : B = P := Option.some.inj (hB.symm.trans hP)
    obtain hbarred | hfull := hbarred
    · exact hopen hbarred
    · exact hfull lcn (lowestFree_iff.2 ⟨hlcn, hlt⟩)

/-- **A call that has been dealt with** was refused or granted. -/
theorem refuses_or_grants (hX : σ.heap.get? x = some X)
    (h : jzChannelDoClientCallRequest now x msg σ = .ok σ') :
    Refuses σ X msg ∨ ∃ i lcn, Grants σ X msg i lcn := by
  obtain ⟨A, hA, h⟩ := bind_eq_ok (channel_bind_eq_ok hX h)
  have hA := client_eq_ok hA
  cases herr : callRequestError A.iodir msg with
  | some diagnostic => exact .inl (.caller A hA (by rw [herr]; nofun))
  | none =>
    simp only [herr] at h
    obtain ⟨found, hfound, h⟩ := bind_eq_ok h
    cases haddress : msg.calledAddress with
    | none =>
      rw [haddress] at hfound
      cases found with
      | none => exact .inl (.nameless haddress (findClient_null.1 hfound))
      | some i => exact absurd hfound findClient_null_ne
    | some a =>
      cases found with
      | none =>
        rw [haddress] at hfound
        exact .inl (.unknown a haddress fun i B hB =>
          findClient_eq_none hfound (standing_of_client hB))
      | some i =>
        obtain ⟨s, hs, hsa⟩ := findClient_eq_some (haddress ▸ hfound)
        obtain ⟨P, hP, rfl⟩ := Option.map_eq_some_iff.1 hs
        by_cases hbarred : P.iodir = 1 ∨ P.iodir = 3
        · exact .inl (.callee i P a hP haddress hsa (.inl hbarred))
        · by_cases hfree : ∃ lcn, LowestFree P.channels lcn
          · obtain ⟨lcn, hfree⟩ := hfree
            obtain ⟨hlcn, hlt⟩ := lowestFree_iff.1 hfree
            exact .inr ⟨i, lcn, ⟨A, hA, herr⟩, hfound, P, hP, hbarred, hlcn, hlt⟩
          · exact .inl (.callee i P a hP haddress hsa (.inr (not_exists.1 hfree)))

/-! ### A call that is refused -/

theorem findClient_of_nobody (hnot : ∀ (i : ℕ) (B : JzClient), σ.clients[i]? = some B →
    B.address ≠ some a) : jzClientListFindClient (some a) σ = .ok none := by
  cases hfound : σ.clients.findIdx? fun C => C.address = some a with
  | none => exact congrArg Except.ok hfound
  | some i =>
    obtain ⟨s, hs, hsa⟩ := findClient_eq_some (congrArg Except.ok hfound)
    obtain ⟨B, hB, rfl⟩ := Option.map_eq_some_iff.1 hs
    exact absurd hsa (hnot i B hB)

/-- **A refused call** is punished. -/
theorem Refuses.punished (h : Refuses σ X msg) (haddr : σ.Addressed) (hσ : σ.Homed)
    (hX : σ.heap.get? x = some X) :
    ∃ cause diagnostic, jzChannelDoClientCallRequest now x msg σ =
      jzChannelDoPunishmentClearRequest now x cause diagnostic σ := by
  obtain ⟨A, hA⟩ := hσ x X hX
  -- The caller is found, and the rest depends on what is wrong.
  have hstart {r : Except Fault Server} (hr : _ = r) :
      jzChannelDoClientCallRequest now x msg σ = r :=
    bind_of_eq_ok (channel_of_get hX) (bind_of_eq_ok (client_of_get hA) hr)
  cases herr : callRequestError A.iodir msg with
  | some diagnostic =>
    refine ⟨.localProcedureError, diagnostic, hstart ?_⟩
    rw [herr]
  | none =>
    simp only [herr] at hstart
    cases h with
    | caller A' hA' herr' =>
      obtain rfl : A = A' := Option.some.inj (hA.symm.trans hA')
      exact absurd herr herr'
    | unknown a ha hnot =>
      rw [ha] at hstart
      exact ⟨.notObtainable, .invalidCalledAddress,
        hstart (bind_of_eq_ok (findClient_of_nobody hnot) rfl)⟩
    | nameless ha hnone =>
      rw [ha] at hstart
      exact ⟨.notObtainable, .invalidCalledAddress,
        hstart (bind_of_eq_ok (findClient_null.2 hnone) rfl)⟩
    | callee i B a hB ha hBa hbarred =>
      rw [ha] at hstart
      have hfound := findClient_of_address haddr hB hBa
      by_cases hopen : B.iodir = 1 ∨ B.iodir = 3
      · exact ⟨.accessBarred, .inputBarred,
          hstart (bind_of_eq_ok hfound (bind_of_eq_ok (client_of_get hB) (if_pos hopen)))⟩
      · have hfull : ¬ (lowLcn B.channels JZ_MSG_MAX_LCN 1).toNat < JZ_MSG_MAX_LCN := fun hlt =>
          hbarred.resolve_left hopen _ (lowestFree_iff.2 ⟨rfl, hlt⟩)
        refine ⟨.numberBusy, .noLogicalChannelAvailable,
          hstart (bind_of_eq_ok hfound (bind_of_eq_ok (client_of_get hB) ?_))⟩
        rw [if_neg hopen]
        exact bind_of_eq_ok (reserveLowChannel_of_full hB hfull) rfl

/-- The server after the channel `X` at `x` has been cleared, and its client has been told. -/
def Server.clearedAt (σ : Server) (now x : ℕ) (X : JzChannel) (m : JzMsg) : Server :=
  { σ.setChannel x (X.cleared now) with sent := σ.sent ++ [⟨X.parent, some x, m⟩] }

theorem get_clearedAt_self {m : JzMsg} (hX : σ.heap.get? x = some X) :
    (σ.clearedAt now x X m).heap.get? x = some (X.cleared now) :=
  get_setChannel_self hX

theorem get_clearedAt_of_ne {z : ℕ} {m : JzMsg} (hz : z ≠ x) :
    (σ.clearedAt now x X m).heap.get? z = σ.heap.get? z :=
  get_setChannel_of_ne (N := X.cleared now) hz

theorem Server.Homed.clearedAt {m : JzMsg} (hσ : σ.Homed) (hX : σ.heap.get? x = some X) :
    (σ.clearedAt now x X m).Homed :=
  hσ.setChannel (N := X.cleared now) hX rfl

/-- **A clear by the server** of a ready channel. -/
theorem tellClear_iff {cause diagnostic : UInt8} (hσ : σ.Homed) (hX : σ.heap.get? x = some X)
    (hs : X.state = .p1Ready) :
    jzChannelProcessServerMessage now x (jzMsgNewClearRequest lcn cause diagnostic) σ = .ok σ' ↔
      σ.Named X.parent ∧ σ' = σ.clearedAt now x X (jzMsgNewClearRequest lcn cause diagnostic) := by
  have hstate : jzChannelProcessServerMessageInState now X
      (jzMsgNewClearRequest lcn cause diagnostic) =
      .ok (X.cleared now, some (jzMsgNewClearRequest lcn cause diagnostic)) := by
    unfold jzChannelProcessServerMessageInState
    rw [hs]
    rfl
  rw [processServerMessage_iff_of_inState hσ hX hstate]
  constructor
  · rintro ⟨hname, -, hdone⟩
    exact ⟨hname rfl, hdone⟩
  · rintro ⟨hname, hdone⟩
    exact ⟨fun _ => hname, linked_of_none rfl, hdone⟩

/-- A channel that sends nothing on a clear is being cleared by the server, and stays so. -/
theorem ServerEffect.silent (h : ServerEffect now Y msg Y' none) (hid : msg.id = .clearRequest) :
    Y.state = .p7ServerClearIndication ∧ Y' = Y := by
  cases h with
  | collision hid' =>
    rw [hid] at hid'
    cases hid'
  | ignored hs =>
    rw [hid] at hs
    cases hstate : Y.state <;> simp_all [heeds]

/-- Such a channel does nothing more. -/
theorem tellClear_of_deaf {cause diagnostic : UInt8} (hσ : σ.Homed)
    (hY : σ.heap.get? y = some Y) (hs : Y.state = .p7ServerClearIndication)
    (hlinked : σ.Linked Y) :
    ∃ σ', jzChannelProcessServerMessage now y (jzMsgNewClearRequest lcn cause diagnostic) σ =
      .ok σ' ∧ σ'.heap.get? y = some Y ∧ (∀ z, z ≠ y → σ'.heap.get? z = σ.heap.get? z) ∧
      σ'.clients = σ.clients ∧ σ'.sent = σ.sent := by
  have hstate : jzChannelProcessServerMessageInState now Y
      (jzMsgNewClearRequest lcn cause diagnostic) = .ok (Y, none) := by
    unfold jzChannelProcessServerMessageInState
    rw [hs]
    rfl
  exact ⟨_, (processServerMessage_iff_of_inState hσ hY hstate).2
    ⟨fun h => (by cases h), hlinked, rfl⟩, get_setChannel_self hY,
    fun z hz => get_setChannel_of_ne hz, rfl, List.append_nil _⟩

/-- The channel has lost its peer. -/
def JzChannel.single (Y : JzChannel) : JzChannel :=
  { Y with peer := none }

/-- **The punishment** clears the channel, takes itself away from its peer, and tells the peer. -/
theorem punishClear_iff {cause : ClearCause} {diagnostic : Diag} (hσ : σ.Registered)
    (hX : σ.heap.get? x = some X) (hs : X.state = .p1Ready)
    (hσ₁ : σ₁ = σ.clearedAt now x X (jzMsgNewClearRequest X.lcn cause.code diagnostic.code)) :
    jzChannelDoPunishmentClearRequest now x cause diagnostic σ = .ok σ' ↔
      σ.Named X.parent ∧ ((X.peer = none ∧ σ' = σ₁) ∨
        ∃ y Y, X.peer = some y ∧ σ.heap.get? y = some Y ∧
          jzChannelProcessServerMessage now y (jzMsgNewClearRequest Y.lcn
            (if cause = .localProcedureError then ClearCause.remoteProcedureError
              else cause).code diagnostic.code) (σ₁.setChannel y Y.single) = .ok σ') := by
  have hget {z : ℕ} (hz : z ≠ x) : σ₁.heap.get? z = σ.heap.get? z :=
    hσ₁ ▸ get_clearedAt_of_ne hz
  have hne {y : ℕ} (hy : X.peer = some y) : y ≠ x := (hσ.ne_of_peer hX hy).symm
  constructor
  · intro h
    obtain ⟨_, -, h⟩ := bind_eq_ok h
    obtain ⟨_, hown, h⟩ := bind_eq_ok (channel_bind_eq_ok hX h)
    obtain ⟨hname, rfl⟩ := (tellClear_iff hσ.homed hX hs).1 hown
    rw [← hσ₁] at h
    obtain ⟨σ₂, h₂, h⟩ := bind_eq_ok h
    obtain ⟨hnone, rfl⟩ | ⟨y, Y₂, hy, hY₂, h⟩ := toPeer_eq_ok_iff.1 h
    · rw [JzChannel.updatePeer, hnone] at h₂
      cases h₂
      exact ⟨hname, .inl ⟨hnone, rfl⟩⟩
    · simp only [JzChannel.updatePeer, hy] at h₂
      obtain ⟨Y, hY, rfl⟩ := update_eq_ok h₂
      obtain rfl : Y.single = Y₂ := Option.some.inj ((get_setChannel_self hY).symm.trans hY₂)
      exact ⟨hname, .inr ⟨y, Y, hy, (hget (hne hy)).symm.trans hY, h⟩⟩
  · rintro ⟨hname, hrest⟩
    have hlinked : σ.Linked X := by
      obtain ⟨hnone, -⟩ | ⟨y, Y, hy, hY, -⟩ := hrest
      · exact linked_of_none hnone
      · intro z hz
        obtain rfl : y = z := Option.some.inj (hy.symm.trans hz)
        exact ⟨Y, hY⟩
    refine bind_of_eq_ok ((dump_eq_ok_iff hσ.homed hX).2 hlinked)
      (bind_of_eq_ok (channel_of_get hX)
        (bind_of_eq_ok ((tellClear_iff hσ.homed hX hs).2 ⟨hname, hσ₁⟩) ?_))
    obtain ⟨hnone, rfl⟩ | ⟨y, Y, hy, hY, h⟩ := hrest
    · simp only [JzChannel.updatePeer, JzChannel.toPeer, hnone]
      rfl
    · have hY₁ := (hget (hne hy)).trans hY
      simp only [JzChannel.updatePeer, JzChannel.toPeer, hy]
      exact bind_of_eq_ok (update_of_get hY₁)
        (bind_of_eq_ok (channel_of_get (get_setChannel_self hY₁)) h)

/-- The call fails as it should where the peer, if there is one, is not changed. -/
theorem CallFails.of_cleared {m : JzMsg} (hX : σ.heap.get? x = some X)
    (hself : σ'.heap.get? x = some (X.cleared now))
    (hframe : ∀ z Z, z ≠ x → σ.heap.get? z = some Z → Z.parent ≠ X.parent →
      σ'.heap.get? z = some Z)
    (hnone : ∀ z, z ≠ x → σ.heap.get? z = none → σ'.heap.get? z = none)
    (hclients : σ'.clients = σ.clients) (hsent : σ'.sent = σ.sent ++ [⟨X.parent, some x, m⟩])
    (hid : m.id = .clearRequest) (hlcn : m.lcn = X.lcn) : CallFails x X σ σ' where
  own := ⟨_, hself, rfl, rfl⟩
  nothingNew z hz := by
    refine hnone z ?_ hz
    rintro rfl
    rw [hX] at hz
    cases hz
  others z Z hZ hparent := by
    refine hframe z Z ?_ hZ hparent
    rintro rfl
    rw [hX] at hZ
    cases hZ
    exact hparent rfl
  clients := hclients
  told := ⟨m, hsent, hid, hlcn⟩

/-- A call that fails as it should has not cleared a second channel. -/
theorem deaf_of_fails {m : JzMsg} (hY : σ.heap.get? y = some Y)
    (hY₁ : σ₁.heap.get? y = some Y) (hsent : σ₁.sent = σ.sent ++ [⟨X.parent, some x, m⟩])
    (hid : msg.id = .clearRequest)
    (h : jzChannelProcessServerMessage now y msg (σ₁.setChannel y Y.single) = .ok σ')
    (hfails : CallFails x X σ σ') : σ.Deaf X y := by
  obtain ⟨Y₂, Y', out, hY₂, hstate, rfl⟩ := processServerMessage_eq_ok h
  obtain rfl : Y.single = Y₂ := Option.some.inj ((get_setChannel_self hY₁).symm.trans hY₂)
  -- The peer has sent nothing.
  have hout : out = none := by
    obtain ⟨m', hsent', -⟩ := hfails.told
    change σ₁.sent ++ post Y.single y out = _ at hsent'
    rw [hsent] at hsent'
    cases out with
    | none => rfl
    | some o =>
      have hlength := congrArg List.length hsent'
      simp [post] at hlength
  subst hout
  obtain ⟨hp7, rfl⟩ := (inState_effect hstate).silent hid
  refine ⟨Y, hY, hp7, ?_⟩
  by_cases hparent : Y.parent = X.parent
  · exact .inl hparent
  · have hsame := (get_setChannel_self (N := Y.single) hY₂).symm.trans
      (hfails.others y Y hY hparent)
    exact .inr (congrArg JzChannel.peer (Option.some.inj hsame)).symm

/-- **A call that is refused** is dealt with as it should be exactly if nothing is left of an old
peer. -/
theorem punished_iff {cause : ClearCause} {diagnostic : Diag} (hσ : σ.Registered)
    (hX : σ.heap.get? x = some X) (hs : X.state = .p1Ready) :
    (∃ σ', jzChannelDoPunishmentClearRequest now x cause diagnostic σ = .ok σ' ∧
        CallFails x X σ σ') ↔
      σ.Named X.parent ∧ ∀ y, X.peer = some y → σ.Deaf X y := by
  simp only [punishClear_iff hσ hX hs rfl]
  set σ₁ := σ.clearedAt now x X (jzMsgNewClearRequest X.lcn cause.code diagnostic.code)
  have hX₁ : σ₁.heap.get? x = some (X.cleared now) := get_clearedAt_self hX
  have hget {z : ℕ} (hz : z ≠ x) : σ₁.heap.get? z = σ.heap.get? z := get_clearedAt_of_ne hz
  constructor
  · rintro ⟨σ', ⟨hname, hrest⟩, hfails⟩
    refine ⟨hname, fun y hy => ?_⟩
    obtain ⟨hnone, -⟩ | ⟨z, Y, hz, hY, h⟩ := hrest
    · rw [hnone] at hy
      cases hy
    · obtain rfl : z = y := Option.some.inj (hz.symm.trans hy)
      have hY₁ := (hget (hσ.ne_of_peer hX hy).symm).trans hY
      exact deaf_of_fails hY hY₁ rfl rfl h hfails
  · rintro ⟨hname, hpeer⟩
    cases hp : X.peer with
    | none =>
      refine ⟨σ₁, ⟨hname, .inl ⟨rfl, rfl⟩⟩, .of_cleared hX hX₁ (fun z Z hz hZ _ => ?_)
        (fun z hz hnone => ?_) rfl rfl rfl rfl⟩
      · rw [hget hz, hZ]
      · rw [hget hz, hnone]
    | some y =>
      obtain ⟨Y, hY, hp7, hback⟩ := hpeer y hp
      have hyx := (hσ.ne_of_peer hX hp).symm
      have hY₁ := (hget hyx).trans hY
      have hY₂ : (σ₁.setChannel y Y.single).heap.get? y = some Y.single := get_setChannel_self hY₁
      have hhomed : σ₁.Homed := hσ.homed.clearedAt hX
      have hhomed₂ : (σ₁.setChannel y Y.single).Homed := hhomed.setChannel hY₁ rfl
      obtain ⟨σ', h, hself, hother, hclients, hsent⟩ :=
        tellClear_of_deaf hhomed₂ hY₂ hp7 (linked_of_none rfl)
      have hframe {z : ℕ} (hzx : z ≠ x) (hzy : z ≠ y) : σ'.heap.get? z = σ.heap.get? z :=
        (hother z hzy).trans ((get_setChannel_of_ne hzy).trans (hget hzx))
      refine ⟨σ', ⟨hname, .inr ⟨y, Y, rfl, hY, h⟩⟩, .of_cleared hX
        ((hother x hyx.symm).trans ((get_setChannel_of_ne hyx.symm).trans hX₁))
        (fun z Z hz hZ hparent => ?_) (fun z hz hnone => ?_) hclients hsent rfl rfl⟩
      · by_cases hzy : z = y
        · subst hzy
          obtain rfl := Option.some.inj (hY.symm.trans hZ)
          rw [hself, JzChannel.single, ← hback.resolve_left hparent]
        · rw [hframe hz hzy, hZ]
      · have hzy : z ≠ y := by
          rintro rfl
          rw [hY] at hnone
          cases hnone
        rw [hframe hz hzy, hnone]

/-! ### A call that is granted -/

/-- A client keeps its directionality when a channel is opened. -/
theorem Opens.named (h : Opens i lcn σ σ₁) (hname : σ.Named i) : σ₁.Named i := by
  obtain ⟨C, hC, hiodir⟩ := hname
  obtain ⟨C₀, hC₀, -, hclients⟩ := h.clients
  obtain rfl : C = C₀ := Option.some.inj (hC.symm.trans hC₀)
  refine ⟨{ C with channels := C.channels.set lcn σ.next }, ?_, hiodir⟩
  rw [hclients, getElem?_set_client hC, if_pos rfl]

/-- The channel that has been reserved is joined, and its client is told. -/
theorem connect_completes (hσ : σ.Registered) (hX : σ.heap.get? x = some X)
    (hopens : Opens i lcn σ σ₁) (hname : σ.Named i) :
    ∃ σ', jzChannelConnect now x σ.next msg σ₁ = .ok σ' := by
  have hne : x ≠ σ.next := hσ.ne_next hX
  have hX₁ : σ₁.heap.get? x = some X := (hopens.get_of_ne hne).trans hX
  have hY₁ : σ₁.heap.get? σ.next = some (jzChannelNew i lcn) := hopens.get_new
  -- Three writes, to the two channels in turn.
  set σ₂ := σ₁.setChannel x { X with peer := some σ.next }
  have hX₂ : σ₂.heap.get? x = some { X with peer := some σ.next } := get_setChannel_self hX₁
  have hY₂ : σ₂.heap.get? σ.next = some (jzChannelNew i lcn) :=
    (get_setChannel_of_ne hne.symm).trans hY₁
  set σ₃ := σ₂.setChannel σ.next { jzChannelNew i lcn with peer := some x }
  have hX₃ : σ₃.heap.get? x = some { X with peer := some σ.next } :=
    (get_setChannel_of_ne hne).trans hX₂
  have hY₃ : σ₃.heap.get? σ.next = some { jzChannelNew i lcn with peer := some x } :=
    get_setChannel_self hY₂
  set σ₄ := σ₃.setChannel x (JzChannel.storeFacilities msg { X with peer := some σ.next })
  have hX₄ : σ₄.heap.get? x = some _ := get_setChannel_self hX₃
  have hY₄ : σ₄.heap.get? σ.next = some { jzChannelNew i lcn with peer := some x } :=
    (get_setChannel_of_ne hne.symm).trans hY₃
  have hhomed₂ : σ₂.Homed := (hσ.opens hopens).homed.setChannel hX₁ rfl
  have hhomed₃ : σ₃.Homed := hhomed₂.setChannel hY₂ rfl
  have hhomed : σ₄.Homed := hhomed₃.setChannel hX₃ rfl
  have hnamed : σ₄.Named i := hopens.named hname
  -- A new channel takes the message, whatever it is.
  obtain ⟨Y', out, hstate⟩ : ∃ Y' out, jzChannelProcessServerMessageInState now
      { jzChannelNew i lcn with peer := some x } msg = .ok (Y', out) := exists_inState nofun
  have hlinked : σ₄.Linked Y' := by
    refine Server.Linked.keeps (fun z hz => ?_) (inState_effect hstate).keeps
    obtain rfl : x = z := Option.some.inj hz
    exact ⟨_, hX₄⟩
  have htold := (processServerMessage_eq_ok_iff hhomed hY₄).2
    ⟨Y', out, hstate, fun _ => hnamed, hlinked, rfl⟩
  have hX₅ : (σ₄.setChannel σ.next Y').heap.get? x = some _ := (get_setChannel_of_ne hne).trans hX₄
  exact ⟨_, bind_of_eq_ok (update_of_get hX₁) (bind_of_eq_ok (update_of_get hY₂)
    (bind_of_eq_ok (update_of_get hX₃) (bind_of_eq_ok htold
      (bind_of_eq_ok (channel_of_get hX₅) rfl))))⟩

/-- **A call that is granted** is made if the directionality of the called client has a name. -/
theorem Grants.completes (h : Grants σ X msg i lcn) (hσ : σ.Registered)
    (hX : σ.heap.get? x = some X) (hname : σ.Named i) :
    ∃ σ', jzChannelDoClientCallRequest now x msg σ = .ok σ' := by
  obtain ⟨⟨A, hA, hnone⟩, hfound, P, hP, hopen, rfl, hlt⟩ := h
  have hiodir : iodirValidate P.iodir.toNat = true := by
    obtain ⟨P₀, hP₀, hiodir⟩ := id hname
    obtain rfl : P = P₀ := Option.some.inj (hP.symm.trans hP₀)
    exact hiodir
  obtain ⟨σ₁, hreserve⟩ := reserveLowChannel_of_room hP hlt hiodir
  obtain ⟨-, P₀, hP₀, hopens⟩ := reserveLowChannel_eq_ok hreserve
  obtain rfl : P = P₀ := Option.some.inj (hP.symm.trans hP₀)
  obtain ⟨σ', hconnect⟩ : ∃ σ', jzChannelConnect now x σ.next msg σ₁ = .ok σ' :=
    connect_completes hσ hX hopens hname
  refine ⟨σ', bind_of_eq_ok (channel_of_get hX) (bind_of_eq_ok (client_of_get hA) ?_)⟩
  simp only [hnone]
  refine bind_of_eq_ok hfound (bind_of_eq_ok (client_of_get hP) ?_)
  rw [if_neg hopen]
  exact bind_of_eq_ok hreserve hconnect

/-- **What a call does** is what a call that succeeds is to do, but for the number in the
message. -/
theorem Calls.succeeds (h : Calls now x msg i lcn σ σ') (hσ : σ.Registered)
    (hX : σ.heap.get? x = some X) (hlcn : msg.lcn = lcn) :
    CallSucceeds x X msg i lcn σ.next σ σ' where
  new := hσ.next_eq_none
  own := h.own X hX
  other := ⟨_, h.other, rfl, rfl, rfl, rfl, rfl, rfl⟩
  frame := h.frame
  clients := by
    obtain ⟨σ₁, hopens, hclients, -⟩ := h.opens
    obtain ⟨B, hB, -, hset⟩ := hopens.clients
    exact ⟨B, hB, hclients.trans hset⟩
  told := ⟨_, h.sent, rfl, hlcn⟩

/-- The message to the called client has the number of the caller. -/
theorem Calls.lcn_of_succeeds {k : ℕ} {l : UInt16} (h : Calls now x msg i lcn σ σ')
    (hsucceeds : CallSucceeds x X msg k l y σ σ') : msg.lcn = l := by
  obtain ⟨m, hsent, -, hlcn⟩ := hsucceeds.told
  rw [h.sent] at hsent
  rw [← hlcn, ← (Sent.mk.inj (List.singleton_inj.1 (List.append_cancel_left hsent))).2.2]
  rfl

/-! ### The theorem -/

/-- **When a call is set up as it should be.** The tables list the channels, and the addresses are
those of different clients, in every reachable state and also after a channel has been opened for
the message. -/
theorem call_setup (hσ : σ.Registered) (haddr : σ.Addressed) (hX : σ.heap.get? x = some X)
    (hs : X.state = .p1Ready) (hid : msg.id = .callRequest) :
    SetUp now x X msg σ ↔ CallAsMeant σ X msg := by
  have hcalls {i : ℕ} {lcn : UInt16} {σ' : Server} (hgrants : Grants σ X msg i lcn)
      (h : jzChannelDoClientCallRequest now x msg σ = .ok σ') : Calls now x msg i lcn σ σ' :=
    connects_calls hσ hX hid (callRequest_granted hX hgrants h)
  constructor
  · rintro ⟨σ', h, hsucceeds, hfails⟩
    by_cases hobtain : ∃ i lcn, Obtainable σ X msg i lcn
    · obtain ⟨i, lcn, hobtain⟩ := hobtain
      obtain ⟨y, hdone⟩ := hsucceeds i lcn hobtain
      have hcall := hcalls (hobtain.grants haddr).1 h
      exact .connected i lcn hobtain (hcall.lcn_of_succeeds hdone)
    · have hfails := hfails fun i lcn h => hobtain ⟨i, lcn, h⟩
      obtain hrefuses | ⟨i, lcn, hgrants⟩ := refuses_or_grants hX h
      · obtain ⟨cause, diagnostic, hpunish⟩ := hrefuses.punished haddr hσ.homed hX
        obtain ⟨hname, hpeer⟩ := (punished_iff hσ hX hs).1 ⟨σ', hpunish.symm.trans h, hfails⟩
        exact .refused hrefuses hname hpeer
      · -- The caller waits, and is not cleared.
        obtain ⟨X', hX', hp7, -⟩ := hfails.own
        rw [(hcalls hgrants h).own X hX] at hX'
        cases hX'
        cases hp7
  · rintro (⟨i, lcn, hobtain, hlcn⟩ | ⟨hrefuses, hname, hpeer⟩)
    · obtain ⟨hgrants, hname⟩ := hobtain.grants haddr
      obtain ⟨σ', h⟩ : ∃ σ', jzChannelDoClientCallRequest now x msg σ = .ok σ' :=
        hgrants.completes hσ hX hname
      refine ⟨σ', h, fun j l hobtain' => ?_, fun hnot => absurd hobtain (hnot i lcn)⟩
      obtain ⟨rfl, rfl⟩ := hgrants.unique (hobtain'.grants haddr).1
      exact ⟨_, (hcalls hgrants h).succeeds hσ hX hlcn⟩
    · obtain ⟨cause, diagnostic, hpunish⟩ : ∃ cause diagnostic, jzChannelDoClientCallRequest now x
          msg σ = jzChannelDoPunishmentClearRequest now x cause diagnostic σ :=
        hrefuses.punished haddr hσ.homed hX
      obtain ⟨σ', h, hfails⟩ := (punished_iff hσ hX hs).2 ⟨hname, hpeer⟩
      refine ⟨σ', hpunish.trans h, fun i lcn hobtain => ?_, fun _ => hfails⟩
      exact absurd (hobtain.grants haddr).1 (hrefuses.not_grants haddr)

/-- The clients `A` and `B` connect. -/
def bothConnectedEvents : List Event :=
  [.connect, .connect,
    .message 0 0 (jzMsgNewConnect (some (.ofBytes [65])) 0),
    .message 0 1 (jzMsgNewConnect (some (.ofBytes [66])) 0)]

/-- The channel 5 of `A` is opened and ready. -/
def readyEvents : List Event :=
  bothConnectedEvents ++ [.message 0 0 (jzMsgNewRr 5 0), .message 0 0 (jzMsgNewClearConfirmation 5)]

/-- A call of `A` to `B`. -/
def callOf (lcn : UInt16) : JzMsg :=
  jzMsgNewCallRequest lcn (some (.ofBytes [65])) (some (.ofBytes [66])) 6 2 10 []

theorem lowestFree_one : LowestFree ∅ 1 where
  pos := by decide
  lt := by decide
  absent := rfl
  taken l hpos hlt := absurd hpos (not_le.2 hlt)

/-- A first call, from the channel 1, which is opened for it, to the channel 1. -/
theorem call_setup_first : ∃ σ σ₁ X, serverSystem.Reachable σ ∧ Opens 0 1 σ σ₁ ∧
    σ₁.heap.get? 0 = some X ∧ SetUp 0 0 X (callOf 1) σ₁ := by
  obtain ⟨σ, σ₁, X, hplay, hopens, hX, hs, hobtain⟩ :
      ∃ σ σ₁ X, ({} : Server).play bothConnectedEvents = some σ ∧ Opens 0 1 σ σ₁ ∧
        σ₁.heap.get? 0 = some X ∧ X.state = .p1Ready ∧ Obtainable σ₁ X (callOf 1) 1 1 :=
    ⟨_, { clients := _, heap := _, next := _, sent := _ }, _, rfl,
      ⟨⟨_, rfl, rfl, rfl⟩, rfl, rfl, rfl⟩, rfl, rfl, ⟨_, rfl, .bidirectional, rfl, rfl⟩,
      ⟨rfl, rfl, rfl⟩, _, rfl, ⟨_, rfl, rfl⟩, rfl, ⟨.bidirectional, rfl, rfl⟩, lowestFree_one⟩
  have hreach := reachable_of_play hplay
  refine ⟨σ, σ₁, X, hreach, hopens, hX, ?_⟩
  exact (call_setup ((registered_of_reachable hreach).opens hopens)
    (hopens.addressed (addressed_of_reachable hreach)) hX hs rfl).2 (.connected 1 1 hobtain rfl)

/-- **A call with the wrong number.** `A` calls from the channel 5, and `B`, whose channel is 1,
is told of a call on the channel 5. -/
theorem call_setup_mislabelled : ¬ ∀ now σ x X msg, serverSystem.Reachable σ →
    σ.heap.get? x = some X → X.state = .p1Ready →
    (∃ A, σ.clients[X.parent]? = some A ∧ A.state = .c4Initialized) → msg.id = .callRequest →
    msg.lcn = X.lcn → SetUp now x X msg σ := by
  intro hclaim
  obtain ⟨σ, X, hplay, hX, hs, hA, hlcn, hobtain⟩ :
      ∃ σ X, ({} : Server).play readyEvents = some σ ∧ σ.heap.get? 0 = some X ∧
        X.state = .p1Ready ∧ (∃ A, σ.clients[X.parent]? = some A ∧ A.state = .c4Initialized) ∧
        (callOf 5).lcn = X.lcn ∧ Obtainable σ X (callOf 5) 1 1 :=
    ⟨_, _, rfl, rfl, rfl, ⟨_, rfl, rfl⟩, rfl, ⟨_, rfl, .bidirectional, rfl, rfl⟩, ⟨rfl, rfl, rfl⟩,
      _, rfl, ⟨_, rfl, rfl⟩, rfl, ⟨.bidirectional, rfl, rfl⟩, lowestFree_one⟩
  have hreach := reachable_of_play hplay
  obtain ⟨σ', h, hsucceeds, -⟩ := hclaim 0 σ 0 X (callOf 5) hreach hX hs hA rfl hlcn
  obtain ⟨y, hdone⟩ := hsucceeds 1 1 hobtain
  have hgrants := (hobtain.grants (addressed_of_reachable hreach)).1
  have hcall := connects_calls (registered_of_reachable hreach) hX rfl
    (callRequest_granted hX hgrants h)
  exact absurd (hcall.lcn_of_succeeds hdone) (by decide)

end

end Application10
end Jozabad
