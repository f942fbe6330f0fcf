import Jozabad.Lib.Window
import Mathlib.Algebra.Group.Int.Defs
import Mathlib.Algebra.Group.Nat.Defs
import Mathlib.Data.List.Basic
import Mathlib.Order.Interval.Set.UnorderedInterval
import Mathlib.Order.Lattice.Nat

/-!
# Facilities and sequence numbers (`seq.c`, `packet.c`, `tput.c`, `iodir.c`)

The helpers that the broker and the application share: the range checks on
sequence numbers, windows, packet sizes and throughputs, the negotiation rule, and
the directionality of a worker.

A function whose C body can stop the program returns in `Except Fault`, and
`Fault` says how it stops. A range check keeps the C convention of a negative, zero
or positive answer.
-/

namespace Jozabad

/-- The ways in which a C function can fail to return. -/
inductive Fault where
  /-- An `assert` or `g_assert` failed. -/
  | assertFailed
  /-- `abort()` or `g_error()` was called. -/
  | aborted
  /-- A null pointer was followed. -/
  | nullDereference
  /-- A pointer that refers to nothing was followed. -/
  | wildRead
  /-- A loop goes on forever. -/
  | diverged
  deriving DecidableEq, Repr

/-- `assert (b)`. -/
def assertThat (b : Bool) : Except Fault Unit :=
  if b then .ok () else .error .assertFailed

@[simp] theorem assertThat_true : assertThat true = .ok () := rfl

@[simp] theorem assertThat_false : assertThat false = .error .assertFailed := rfl

theorem eq_true_of_assertThat {b : Bool} {u : Unit} (h : assertThat b = .ok u) : b = true := by
  cases b with
  | true => rfl
  | false => cases h

/-- A sequence of two steps succeeds only through a result of the first. -/
theorem bind_eq_ok {ε α β : Type} {x : Except ε α} {f : α → Except ε β} {b : β}
    (h : x >>= f = .ok b) : ∃ a, x = .ok a ∧ f a = .ok b := by
  cases x with
  | error e => cases h
  | ok a => exact ⟨a, rfl, h⟩

/-- A sequence goes on with the result of the first step. -/
theorem bind_of_eq_ok {ε α β : Type} {x : Except ε α} {f : α → Except ε β} {a : α} {r : Except ε β}
    (hx : x = .ok a) (hf : f a = r) : x >>= f = r := by
  rw [hx]
  exact hf

/-- What is computed from a result that exists. -/
theorem toOption_map_eq_some {ε α β : Type} {x : Except ε α} {f : α → β} {b : β}
    (h : x.toOption.map f = some b) : ∃ a, x = .ok a ∧ f a = b := by
  cases x with
  | error e => cases h
  | ok a => exact ⟨a, rfl, Option.some.inj h⟩

/-! ### Sequence numbers and windows -/

/-- The smallest valid sequence number. -/
def SEQ_MIN : ℕ := 0

/-- The largest valid sequence number. -/
def SEQ_MAX : ℕ := 8

/-- The smallest valid window size. -/
def WINDOW_MIN : ℕ := 1

/-- The largest valid window size. -/
def WINDOW_MAX : ℕ := SEQ_MAX - 1

/-- The default window size. -/
def WINDOW_NEGOTIATE : ℕ := 2

/-- Check that the sequence number is in the valid range. `SEQ_MIN` is zero, so the
lower bound is compiled away. -/
def seqRngchk (x : ℕ) : ℤ :=
  if x > SEQ_MAX then 1 else 0

/-- Check that a sequence value is between `lo` and `hi`, where the range may wrap. -/
def seqInRange (x lo hi : ℕ) : Bool :=
  if hi < lo ∧ (x ≤ hi ∨ x ≥ lo) then true
  else if hi > lo ∧ (x ≥ lo ∧ x ≤ hi) then true
  else if hi = lo ∧ lo = x then true
  else false

/-- Between numbers of a circle the range check compares distances round the circle. -/
theorem seqInRange_iff_dist {n x lo hi : ℕ} (hx : x < n) (hlo : lo < n) (hhi : hi < n) :
    seqInRange x lo hi = true ↔ Cyclic.dist n lo x ≤ Cyclic.dist n lo hi := by
  have hdist : ∀ y, y < n → Cyclic.dist n lo y = if lo ≤ y then y - lo else y + n - lo := by
    intro y hy
    split_ifs with h
    · exact Cyclic.dist_of_le h hy
    · exact Cyclic.dist_of_lt (not_le.1 h) hlo.le
  rw [hdist x hx, hdist hi hhi]
  unfold seqInRange
  split_ifs <;> simp <;> omega

/-- Check that a window size is in the valid range. -/
def windowRngchk (x : ℕ) : ℤ :=
  if x < WINDOW_MIN then -1 else if x > WINDOW_MAX then 1 else 0

theorem windowRngchk_eq_zero {w : ℕ} : windowRngchk w = 0 ↔ WINDOW_MIN ≤ w ∧ w ≤ WINDOW_MAX := by
  unfold windowRngchk
  split_ifs with h₁ h₂
  · exact iff_of_false (by decide) (by omega)
  · exact iff_of_false (by decide) (by omega)
  · exact iff_of_true rfl (by omega)

/-- The last sequence number that a window of size `window` admits when the lowest
is `pr`, as `(pr + window - 1) % SEQ_MAX` computes it: in `int`, where the
remainder takes the sign of the dividend, and then cut to the 16 bits of a `seq_t`. -/
def windowEnd (pr window : ℕ) : ℕ :=
  (((pr : ℤ) + window - 1).tmod SEQ_MAX % 2 ^ 16).toNat

theorem windowEnd_of_pos {pr window : ℕ} (h : 0 < window) :
    windowEnd pr window = (pr + window - 1) % SEQ_MAX := by
  have hcast : (pr : ℤ) + window - 1 = ((pr + window - 1 : ℕ) : ℤ) := by omega
  have hlt : (pr + window - 1) % SEQ_MAX < SEQ_MAX := Nat.mod_lt _ (by decide)
  rw [windowEnd, hcast, Int.tmod_eq_emod_of_nonneg (by omega)]
  simp only [SEQ_MAX] at hlt ⊢
  omega

/-! ### The negotiation rule -/

/-- In the negotiation of a facility the answer has to be between the current value
and the default `pivot`. Both values must pass the facility's range check. -/
def negotiate (rngchk : ℕ → ℤ) (pivot request current : ℕ) : Except Fault Bool := do
  assertThat (rngchk request == 0)
  assertThat (rngchk current == 0)
  if request > pivot then
    return request ≤ current
  else if request < pivot then
    return request ≥ current
  else
    return true

/-- Between valid values the rule always has an answer. -/
theorem negotiate_ok {rngchk : ℕ → ℤ} {pivot request current : ℕ} (hr : rngchk request = 0)
    (hc : rngchk current = 0) : ∃ b, negotiate rngchk pivot request current = .ok b := by
  simp only [negotiate, hr, hc, beq_self_eq_true, assertThat_true]
  by_cases h₁ : request > pivot
  · exact ⟨_, by simp only [h₁, if_true]; rfl⟩
  · by_cases h₂ : request < pivot
    · exact ⟨_, by simp only [h₁, h₂, if_true, if_false]; rfl⟩
    · exact ⟨_, by simp only [h₁, h₂, if_false]; rfl⟩

/-- An accepted value passes the range check. -/
theorem negotiate_valid {rngchk : ℕ → ℤ} {pivot request current : ℕ} {b : Bool}
    (h : negotiate rngchk pivot request current = .ok b) :
    rngchk request = 0 ∧ rngchk current = 0 := by
  by_cases hr : rngchk request = 0
  · by_cases hc : rngchk current = 0
    · exact ⟨hr, hc⟩
    · simp [negotiate, assertThat, hr, hc, Bind.bind, Except.bind] at h
  · simp [negotiate, assertThat, hr, Bind.bind, Except.bind] at h

/-- A value that is out of range fails an assertion. -/
theorem negotiate_eq_error {rngchk : ℕ → ℤ} {pivot request current : ℕ}
    (h : ¬ (rngchk request = 0 ∧ rngchk current = 0)) :
    negotiate rngchk pivot request current = .error .assertFailed := by
  by_cases hr : rngchk request = 0
  · have hc : rngchk current ≠ 0 := fun hc => h ⟨hr, hc⟩
    simp [negotiate, assertThat, hr, hc, Bind.bind, Except.bind]
  · simp [negotiate, assertThat, hr, Bind.bind, Except.bind]

/-- A value between the current one and the default is accepted. -/
theorem negotiate_of_mem_uIcc {rngchk : ℕ → ℤ} {pivot request current : ℕ}
    (hr : rngchk request = 0) (hc : rngchk current = 0) (h : request ∈ Set.uIcc current pivot) :
    negotiate rngchk pivot request current = .ok true := by
  simp only [negotiate, hr, hc, beq_self_eq_true, assertThat_true, Bind.bind, Except.bind]
  have hbetween := Set.mem_uIcc.1 h
  split_ifs with h₁ h₂
  · have hle : request ≤ current := by omega
    exact congrArg Except.ok (decide_eq_true hle)
  · have hle : current ≤ request := by omega
    exact congrArg Except.ok (decide_eq_true hle)
  · rfl

/-- An accepted value lies between the current one and the default. -/
theorem negotiate_mem_uIcc {rngchk : ℕ → ℤ} {pivot request current : ℕ}
    (h : negotiate rngchk pivot request current = .ok true) : request ∈ Set.uIcc current pivot := by
  obtain ⟨hr, hc⟩ := negotiate_valid h
  simp only [negotiate, hr, hc, beq_self_eq_true, assertThat_true, Bind.bind, Except.bind] at h
  split_ifs at h with h₁ h₂
  · have hle : request ≤ current := of_decide_eq_true (Except.ok.inj h)
    exact Set.mem_uIcc.2 (.inr ⟨h₁.le, hle⟩)
  · have hle : current ≤ request := of_decide_eq_true (Except.ok.inj h)
    exact Set.mem_uIcc.2 (.inl ⟨hle, h₂.le⟩)
  · obtain rfl : request = pivot := by omega
    exact Set.right_mem_uIcc

/-- Whether the window size may be set from `current` to `request`. Both are checked
as sequence numbers. -/
def windowNegotiate (request current : ℕ) : Except Fault Bool :=
  negotiate seqRngchk WINDOW_NEGOTIATE request current

/-! ### Packet sizes -/

/-- The largest packet code. -/
def p_last : ℕ := 12

/-- The packet code of a `CALL_REQUEST`'s data. -/
def p_default : ℕ := 7

/-- The packet code that negotiation moves towards. -/
def p_negotiate : ℕ := 7

/-- Bytes a packet code stands for. -/
def packetRate : List ℕ :=
  [1, 2, 4, 8, 16, 32, 64, 128, 256, 512, 1024, 2048, 4096]

/-- Check the range of the packet code. -/
def packetRngchk (p : ℕ) : ℤ :=
  if p < 4 then -1 else if p > p_last then 1 else 0

/-- Converts a packet code to a byte count. -/
def packetBytes (p : ℕ) : Except Fault ℕ := do
  assertThat (packetRngchk p == 0)
  return packetRate.getD p 0

theorem packetBytes_ok {p : ℕ} (h : packetRngchk p = 0) :
    packetBytes p = .ok (packetRate.getD p 0) := by
  simp only [packetBytes, h, beq_self_eq_true, assertThat_true]
  rfl

/-- Whether the packet size may be set from `current` to `request`. -/
def packetNegotiate (request current : ℕ) : Except Fault Bool :=
  negotiate packetRngchk p_negotiate request current

/-! ### Throughputs -/

/-- The largest throughput code. -/
def t_last : ℕ := 44

/-- The throughput code that negotiation moves towards. -/
def t_negotiate : ℕ := 10

/-- Bits per second a throughput code stands for. -/
def tputRate : List ℕ :=
  [0, 0, 0, 75, 150, 300, 600, 1200, 2400, 4800, 9600, 19200, 48000, 64000, 128000, 192000,
    256000, 320000, 384000, 448000, 512000, 578000, 640000, 704000, 768000, 832000, 896000,
    960000, 1024000, 1088000, 1152000, 1216000, 1280000, 1344000, 1408000, 1472000, 1536000,
    1600000, 1664000, 1728000, 1792000, 1856000, 1920000, 1984000, 2048000]

/-- Check the range of the throughput code. The configured maximum is `t_last`. -/
def tputRngchk (x : ℕ) : ℤ :=
  if x < 3 then -1 else if x > t_last then 1 else 0

/-- Converts a throughput code to bits per second. -/
def tputBps (x : ℕ) : Except Fault ℕ := do
  assertThat (tputRngchk x == 0)
  return tputRate.getD x 0

theorem tputBps_ok {x : ℕ} (h : tputRngchk x = 0) : tputBps x = .ok (tputRate.getD x 0) := by
  simp only [tputBps, h, beq_self_eq_true, assertThat_true]
  rfl

/-- Whether the throughput may be set from `current` to `request`. -/
def tputNegotiate (request current : ℕ) : Except Fault Bool :=
  negotiate tputRngchk t_negotiate request current

/-! ### Directionality -/

/-- Whether a worker may place and receive calls. -/
inductive IoDir where
  | bidirectional
  | incomingCallsBarred
  | outgoingCallsBarred
  | callsBarred
  deriving DecidableEq, Repr

namespace IoDir

/-- The directionality a code on the wire stands for. -/
def ofCode : ℕ → Option IoDir
  | 0 => some bidirectional
  | 1 => some incomingCallsBarred
  | 2 => some outgoingCallsBarred
  | 3 => some callsBarred
  | _ => none

/-- The code of a directionality on the wire. -/
def code : IoDir → ℕ
  | bidirectional => 0
  | incomingCallsBarred => 1
  | outgoingCallsBarred => 2
  | callsBarred => 3

@[simp] theorem ofCode_code (io : IoDir) : ofCode io.code = some io := by
  cases io <;> rfl

end IoDir

/-- Whether a code is that of a directionality. -/
def iodirValidate (x : ℕ) : Bool :=
  (IoDir.ofCode x).isSome

/-- Whether a worker of this directionality can receive calls. -/
def iodirIncomingCallsAllowed (io : IoDir) : Bool :=
  io = .bidirectional ∨ io = .outgoingCallsBarred

/-- Whether a worker of this directionality can place calls. -/
def iodirOutgoingCallsAllowed (io : IoDir) : Bool :=
  io = .bidirectional ∨ io = .incomingCallsBarred

/-- The name of a directionality. -/
def iodirName : IoDir → String
  | .bidirectional => "bidirectional"
  | .incomingCallsBarred => "incoming calls barred"
  | .outgoingCallsBarred => "outgoing calls barred"
  | .callsBarred => "calls barred"

end Jozabad
