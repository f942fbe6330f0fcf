import Mathlib.Algebra.CharP.Two
import Mathlib.Algebra.Field.ZMod
import Mathlib.GroupTheory.OrderOfElement
import Mathlib.RingTheory.AdjoinRoot

/-!
# Cyclic redundancy checks

A register of `w` bits takes in a message bit by bit: it is shifted to the left, and when
the bit that falls out and the bit that comes in differ, the generator is added. What the
register holds in the end is the remainder of the message in the division of polynomials
over two elements (`value_feed`).

Two messages leave the same in a register iff the generator divides their difference
(`feed_eq_iff`). What follows from that about damaged messages: a register tells apart two
messages that differ within `w` consecutive bits only (`feed_ne_of_burst`), and two that
differ in two bits whose distance is less than the period of the generator
(`feed_eq_iff_pair`). The period can be computed (`orderOf_root_eq`), since the registers
themselves are the residues (`mul`, `raise`).
-/

namespace Crc

open Polynomial

variable {w : ℕ} {g r s : BitVec w} {b : Bool} {bits bits' : List Bool}

/-! ### Registers -/

/-- Take one bit into the register. -/
def push (g r : BitVec w) (b : Bool) : BitVec w :=
  if r.msb != b then (r <<< 1) ^^^ g else r <<< 1

/-- Take a message into the register. -/
def feed (g r : BitVec w) (bits : List Bool) : BitVec w :=
  bits.foldl (push g) r

theorem feed_append (g r : BitVec w) (bits bits' : List Bool) :
    feed g r (bits ++ bits') = feed g (feed g r bits) bits' :=
  List.foldl_append

/-! ### Polynomials -/

/-- The coefficient that a bit stands for. -/
def bit (b : Bool) : ZMod 2 :=
  if b then 1 else 0

@[simp] theorem bit_false : bit false = 0 := rfl

@[simp] theorem bit_true : bit true = 1 := rfl

theorem bit_injective : Function.Injective bit := by decide

theorem bit_xor (b c : Bool) : bit (b ^^ c) = bit b + bit c := by decide +revert

/-- The polynomial that a register stands for. -/
noncomputable def value (r : BitVec w) : (ZMod 2)[X] :=
  ∑ i ∈ Finset.range w, C (bit (r.getLsbD i)) * X ^ i

/-- The polynomial that a message stands for, highest power first. -/
noncomputable def message : List Bool → (ZMod 2)[X]
  | [] => 0
  | b :: bits => C (bit b) * X ^ bits.length + message bits

/-- The generator. Its highest power is not in the register. -/
noncomputable def generator (g : BitVec w) : (ZMod 2)[X] :=
  X ^ w + value g

@[simp] theorem coeff_value (r : BitVec w) (i : ℕ) : (value r).coeff i = bit (r.getLsbD i) := by
  simp only [value, finsetSum_coeff, coeff_C_mul_X_pow, Finset.sum_ite_eq]
  by_cases hi : i < w
  · rw [if_pos (Finset.mem_range.2 hi)]
  · rw [if_neg (mt Finset.mem_range.1 hi), BitVec.getLsbD_of_ge r i (not_lt.1 hi), bit_false]

theorem degree_value_lt (r : BitVec w) : (value r).degree < w := by
  rw [degree_lt_iff_coeff_zero]
  intro i hi
  rw [coeff_value, BitVec.getLsbD_of_ge r i hi, bit_false]

theorem value_injective : Function.Injective (value : BitVec w → (ZMod 2)[X]) := by
  intro r s h
  apply BitVec.eq_of_getLsbD_eq
  intro i _
  have hi := congrArg (coeff · i) h
  simp only [coeff_value] at hi
  exact bit_injective hi

@[simp] theorem value_zero : value (0#w) = 0 := by
  ext i
  rw [coeff_value, BitVec.getLsbD_zero, bit_false, coeff_zero]

theorem value_xor (r s : BitVec w) : value (r ^^^ s) = value r + value s := by
  ext i
  rw [coeff_add, coeff_value, coeff_value, coeff_value, BitVec.getLsbD_xor, bit_xor]

/-- **Shifting a register.** The bits that fall out stand for multiples of `X ^ w`. -/
theorem value_shiftLeft (r : BitVec w) {k : ℕ} (hk : k ≤ w) :
    value (r <<< k) + X ^ w * value (r >>> (w - k)) = X ^ k * value r := by
  ext i
  rw [coeff_add, coeff_X_pow_mul', coeff_X_pow_mul', coeff_value, coeff_value, coeff_value,
    BitVec.getLsbD_shiftLeft, BitVec.getLsbD_ushiftRight]
  by_cases hi : i < w
  · rw [if_neg (not_le.2 hi), add_zero]
    by_cases hki : k ≤ i
    · simp [hi, hki, not_lt.2 hki]
    · simp [hi, hki, not_le.1 hki]
  · have hwi := not_lt.1 hi
    have hki : k ≤ i := le_trans hk hwi
    have hindex : w - k + (i - w) = i - k := by omega
    simp [hi, hwi, hki, hindex]

theorem degree_message_lt (bits : List Bool) : (message bits).degree < bits.length := by
  induction bits with
  | nil => simp [message]
  | cons b bits ih =>
    have hlen : ((bits.length : ℕ) : WithBot ℕ) < ((b :: bits).length : ℕ) :=
      Nat.cast_lt.2 (Nat.lt_succ_self _)
    refine lt_of_le_of_lt (degree_add_le _ _) (max_lt ?_ (lt_trans ih hlen))
    exact lt_of_le_of_lt (degree_C_mul_X_pow_le _ _) hlen

theorem coeff_message_length (bits : List Bool) : (message bits).coeff bits.length = 0 :=
  (degree_lt_iff_coeff_zero _ _).1 (degree_message_lt bits) _ le_rfl

/-- Messages of one length are different polynomials. -/
theorem message_inj (hlen : bits.length = bits'.length) (h : message bits = message bits') :
    bits = bits' := by
  induction bits generalizing bits' with
  | nil => exact (List.length_eq_zero_iff.1 hlen.symm).symm
  | cons b bits ih =>
    cases bits' with
    | nil => cases hlen
    | cons c bits' =>
      have hlen' : bits.length = bits'.length := Nat.succ.inj hlen
      -- The first bits are the highest coefficients.
      have hcoeff := congrArg (coeff · bits.length) h
      simp only [message, coeff_add, coeff_C_mul_X_pow, coeff_message_length, if_true] at hcoeff
      rw [hlen', coeff_message_length, if_pos rfl, add_zero, add_zero] at hcoeff
      obtain rfl := bit_injective hcoeff
      rw [message, message, hlen'] at h
      rw [ih hlen' (add_left_cancel h)]

theorem message_append (bits bits' : List Bool) :
    message (bits ++ bits') = X ^ bits'.length * message bits + message bits' := by
  induction bits with
  | nil => rw [List.nil_append, message, mul_zero, zero_add]
  | cons b bits ih =>
    rw [List.cons_append, message, message, ih, List.length_append]
    ring

/-! ### The remainder -/

theorem degree_generator (g : BitVec w) : (generator g).degree = w := by
  rw [generator, degree_add_eq_left_of_degree_lt, degree_X_pow]
  rw [degree_X_pow]
  exact degree_value_lt g

theorem monic_generator (g : BitVec w) : (generator g).Monic :=
  monic_X_pow_add (degree_value_lt g)

/-- The residue of a polynomial. -/
noncomputable abbrev residue (g : BitVec w) : (ZMod 2)[X] →+* AdjoinRoot (generator g) :=
  AdjoinRoot.mk (generator g)

theorem residue_eq_iff {p q : (ZMod 2)[X]} :
    residue g p = residue g q ↔ generator g ∣ p - q :=
  AdjoinRoot.mk_eq_mk

/-- Registers are different residues. -/
theorem residue_value_injective (g : BitVec w) :
    Function.Injective fun r : BitVec w => residue g (value r) := by
  intro r s h
  have hdvd := residue_eq_iff.1 h
  apply value_injective
  by_contra hne
  refine (monic_generator g).not_dvd_of_degree_lt (sub_ne_zero.2 hne) ?_ hdvd
  rw [degree_generator]
  exact lt_of_le_of_lt (degree_sub_le _ _) (max_lt (degree_value_lt r) (degree_value_lt s))

/-- What falls out of a register comes back as the lower powers of the generator. -/
theorem residue_X_pow (g : BitVec w) : residue g (X ^ w) = residue g (value g) := by
  rw [residue_eq_iff, CharTwo.sub_eq_add]
  exact dvd_rfl

/-- What falls out of a register when it is shifted once. -/
theorem value_shiftLeft_one (hw : 0 < w) (r : BitVec w) :
    value (r <<< 1) = X * value r + X ^ w * C (bit r.msb) := by
  have hout : value (r >>> (w - 1)) = C (bit r.msb) := by
    ext i
    rw [coeff_value, BitVec.getLsbD_ushiftRight, coeff_C, BitVec.msb_eq_getLsbD_last]
    by_cases hi : i = 0
    · rw [if_pos hi, hi, Nat.add_zero]
    · rw [if_neg hi, BitVec.getLsbD_of_ge r _ (by omega), bit_false]
  have hshift := value_shiftLeft r (k := 1) hw
  rw [hout, pow_one] at hshift
  rw [← hshift, add_assoc, CharTwo.add_self_eq_zero, add_zero]

/-- **Taking in one bit.** -/
theorem residue_push (hw : 0 < w) (g r : BitVec w) (b : Bool) :
    residue g (value (push g r b)) = residue g (X * value r + X ^ w * C (bit b)) := by
  have hpush : value (push g r b) = value (r <<< 1) + C (bit (r.msb ^^ b)) * value g := by
    rw [push]
    cases r.msb <;> cases b <;> simp [value_xor]
  have hout : residue g (C (bit (r.msb ^^ b)) * value g) =
      residue g (C (bit (r.msb ^^ b)) * X ^ w) := by
    rw [map_mul, map_mul, residue_X_pow]
  rw [hpush, map_add, hout, ← map_add, value_shiftLeft_one hw, bit_xor, C_add]
  -- The bit that fell out is added twice.
  have htwice : X ^ w * C (bit r.msb) + C (bit r.msb) * X ^ w = 0 := by
    rw [mul_comm, CharTwo.add_self_eq_zero]
  refine congrArg (residue g) ?_
  linear_combination htwice

/-- **Taking in a message.** -/
theorem residue_feed (hw : 0 < w) (g r : BitVec w) (bits : List Bool) :
    residue g (value (feed g r bits)) =
      residue g (X ^ bits.length * value r + X ^ w * message bits) := by
  induction bits generalizing r with
  | nil => simp [feed, message]
  | cons b bits ih =>
    change residue g (value (feed g (push g r b) bits)) = _
    rw [ih, map_add, map_mul, residue_push hw, ← map_mul, ← map_add, message, List.length_cons]
    refine congrArg (residue g) ?_
    ring

/-- **A register holds the remainder of its message.** -/
theorem value_feed (hw : 0 < w) (g r : BitVec w) (bits : List Bool) :
    value (feed g r bits) =
      (X ^ bits.length * value r + X ^ w * message bits) %ₘ generator g := by
  have hdvd := residue_eq_iff.1 (residue_feed hw g r bits)
  have hsmall : value (feed g r bits) %ₘ generator g = value (feed g r bits) := by
    rw [modByMonic_eq_self_iff (monic_generator g), degree_generator]
    exact degree_value_lt _
  rw [← hsmall]
  exact modByMonic_eq_of_dvd_sub (monic_generator g) hdvd

/-! ### Messages that are told apart -/

section Apart

/-- A generator with a constant term has no factor `X`. -/
theorem isCoprime_generator_X (hg : g.getLsbD 0 = true) : IsCoprime (generator g) X := by
  have hw : 0 < w := BitVec.lt_of_getLsbD hg
  have hcoeff : (generator g).coeff 0 = 1 := by
    rw [generator, coeff_add, coeff_value, hg, coeff_X_pow, if_neg hw.ne, zero_add, bit_true]
  have hsplit := divX_mul_X_add (generator g)
  rw [hcoeff, C_1] at hsplit
  refine ⟨1, -(generator g).divX, ?_⟩
  linear_combination -hsplit

theorem generator_dvd_X_pow_mul (hg : g.getLsbD 0 = true) (n : ℕ) (p : (ZMod 2)[X]) :
    generator g ∣ X ^ n * p ↔ generator g ∣ p :=
  ⟨(isCoprime_generator_X hg).pow_right.dvd_of_dvd_mul_left, fun h => h.mul_left _⟩

/-- Messages of one length leave the same in the register iff the generator divides their
difference. -/
theorem feed_eq_iff (hg : g.getLsbD 0 = true) (r : BitVec w) (hlen : bits.length = bits'.length) :
    feed g r bits = feed g r bits' ↔ generator g ∣ message bits - message bits' := by
  have hw : 0 < w := BitVec.lt_of_getLsbD hg
  rw [← (residue_value_injective g).eq_iff]
  simp only [residue_feed hw, hlen]
  rw [residue_eq_iff, add_sub_add_left_eq_sub, ← mul_sub, generator_dvd_X_pow_mul hg]

/-- What precedes and what follows a difference does not matter. -/
theorem feed_eq_iff_middle (hg : g.getLsbD 0 = true) (r : BitVec w) (before after : List Bool)
    (hlen : bits.length = bits'.length) :
    feed g r (before ++ bits ++ after) = feed g r (before ++ bits' ++ after) ↔
      generator g ∣ message bits - message bits' := by
  rw [feed_eq_iff hg r (by simp [hlen]), message_append, message_append, message_append,
    message_append, hlen, add_sub_add_right_eq_sub, ← mul_sub, add_sub_add_left_eq_sub,
    generator_dvd_X_pow_mul hg]

/-- **Bursts are noticed**: a difference within `w` consecutive bits. -/
theorem feed_ne_of_burst (hg : g.getLsbD 0 = true) (r : BitVec w) (before after : List Bool)
    (hlen : bits.length = bits'.length) (hburst : bits.length ≤ w) (hne : bits ≠ bits') :
    feed g r (before ++ bits ++ after) ≠ feed g r (before ++ bits' ++ after) := by
  rw [Ne, feed_eq_iff_middle hg r before after hlen]
  refine (monic_generator g).not_dvd_of_degree_lt ?_ ?_
  · intro hzero
    exact hne (message_inj hlen (sub_eq_zero.1 hzero))
  · rw [degree_generator]
    have hdegree (bits : List Bool) (h : bits.length ≤ w) : (message bits).degree < w :=
      lt_of_lt_of_le (degree_message_lt bits) (Nat.cast_le.2 h)
    exact lt_of_le_of_lt (degree_sub_le _ _)
      (max_lt (hdegree bits hburst) (hdegree bits' (hlen ▸ hburst)))

/-- The residue of `X`. -/
noncomputable abbrev root (g : BitVec w) : AdjoinRoot (generator g) :=
  AdjoinRoot.root (generator g)

/-- **Two wrong bits are noticed**, unless the period of the generator divides their
distance. -/
theorem feed_eq_iff_pair (hg : g.getLsbD 0 = true) (r : BitVec w)
    (before middle after : List Bool) (b c : Bool) :
    feed g r (before ++ (b :: middle ++ [c]) ++ after) =
        feed g r (before ++ ((!b) :: middle ++ [!c]) ++ after) ↔
      orderOf (root g) ∣ middle.length + 1 := by
  have hbit (b : Bool) : C (bit b) - C (bit !b) = (1 : (ZMod 2)[X]) := by
    rw [← C_sub, CharTwo.sub_eq_add, ← bit_xor]
    cases b <;> exact C_1
  have hdiff : message (b :: middle ++ [c]) - message ((!b) :: middle ++ [!c]) =
      X ^ (middle.length + 1) - 1 := by
    have hb := hbit b
    have hc := hbit c
    have hneg : (-1 : (ZMod 2)[X]) = 1 := CharTwo.neg_eq 1
    simp only [List.cons_append, message, message_append, List.length_append, List.length_cons,
      List.length_nil, pow_zero, zero_add]
    linear_combination X ^ (middle.length + 1) * hb + hc - hneg
  rw [feed_eq_iff_middle hg r before after (by simp), hdiff, ← residue_eq_iff, map_pow, map_one,
    orderOf_dvd_iff_pow_eq_one]
  rfl

end Apart

/-! ### The period of a generator -/

/-- The product of two residues, from the lowest of the `n` lower bits of `s` on. -/
def mulLow (g r : BitVec w) : ℕ → BitVec w → BitVec w
  | 0, _ => 0#w
  | n + 1, s => push g (mulLow g r n (s >>> 1)) false ^^^ if s.getLsbD 0 then r else 0#w

/-- The product of two residues. -/
def mul (g r s : BitVec w) : BitVec w :=
  mulLow g r w s

/-- Evaluate a register before it is used. -/
def strict {α : Type} (r : BitVec w) (f : BitVec w → α) : α :=
  match r.toNat with
  | 0 => f 0#w
  | n + 1 => f (BitVec.ofNat w (n + 1))

/-- The power of `X` with the exponent `n`, which has at most `k` binary digits. -/
def raise (g : BitVec w) : ℕ → ℕ → BitVec w
  | 0, _ => 1#w
  | k + 1, n =>
    strict (raise g k (n / 2)) fun r =>
      if n % 2 = 1 then push g (mul g r r) false else mul g r r

theorem strict_eq {α : Type} (r : BitVec w) (f : BitVec w → α) : strict r f = f r := by
  have hr (n : ℕ) (h : r.toNat = n) : BitVec.ofNat w n = r := by
    rw [← h, BitVec.ofNat_toNat, BitVec.setWidth_eq]
  unfold strict
  split
  next h => exact congrArg f (hr 0 h)
  next n h => exact congrArg f (hr (n + 1) h)

theorem value_one (hw : 0 < w) : value (1#w) = 1 := by
  ext i
  rw [coeff_value, BitVec.getLsbD_one, coeff_one]
  by_cases hi : i = 0
  · simp [hi, hw]
  · simp [hi]

/-- The lowest bit of a register and the others. -/
theorem value_split (s : BitVec w) :
    value s = X * value (s >>> 1) + C (bit (s.getLsbD 0)) := by
  ext i
  cases i with
  | zero => simp
  | succ i => simp [coeff_X_mul, Nat.add_comm 1 i]

theorem residue_mulLow (hw : 0 < w) (g r : BitVec w) (n : ℕ) {s : BitVec w}
    (hs : ∀ i, n ≤ i → s.getLsbD i = false) :
    residue g (value (mulLow g r n s)) = residue g (value r * value s) := by
  induction n generalizing s with
  | zero =>
    have hzero : s = 0#w := BitVec.eq_of_getLsbD_eq fun i _ => by
      rw [hs i (Nat.zero_le i), BitVec.getLsbD_zero]
    rw [mulLow, hzero, value_zero, mul_zero]
  | succ n ih =>
    have hshift (i : ℕ) (hi : n ≤ i) : (s >>> 1).getLsbD i = false := by
      rw [BitVec.getLsbD_ushiftRight]
      exact hs _ (by omega)
    have hlow : value (if s.getLsbD 0 then r else 0#w) = C (bit (s.getLsbD 0)) * value r := by
      cases s.getLsbD 0 <;> simp
    rw [mulLow, value_xor, map_add, residue_push hw, bit_false, C_0, mul_zero, add_zero, map_mul,
      ih hshift, hlow, ← map_mul, ← map_add, value_split s]
    refine congrArg (residue g) ?_
    ring

theorem residue_mul (hw : 0 < w) (g r s : BitVec w) :
    residue g (value (mul g r s)) = residue g (value r * value s) :=
  residue_mulLow hw g r w fun i hi => BitVec.getLsbD_of_ge s i hi

/-- `raise` computes the powers of `X`. -/
theorem residue_raise (hw : 0 < w) (g : BitVec w) {k n : ℕ} (hn : n < 2 ^ k) :
    residue g (value (raise g k n)) = root g ^ n := by
  induction k generalizing n with
  | zero =>
    obtain rfl : n = 0 := by omega
    rw [raise, value_one hw, map_one, pow_zero]
  | succ k ih =>
    have hsquare : residue g (value (mul g (raise g k (n / 2)) (raise g k (n / 2)))) =
        root g ^ (n / 2 + n / 2) := by
      rw [residue_mul hw, map_mul, ih (by omega), pow_add]
    rw [raise, strict_eq]
    by_cases hodd : n % 2 = 1
    · rw [if_pos hodd, residue_push hw, bit_false, C_0, mul_zero, add_zero, map_mul, hsquare]
      change root g * _ = _
      rw [← pow_succ']
      exact congrArg (root g ^ ·) (by omega)
    · rw [if_neg hodd, hsquare]
      exact congrArg (root g ^ ·) (by omega)

theorem raise_eq_one_iff (hw : 0 < w) (g : BitVec w) {k n : ℕ} (hn : n < 2 ^ k) :
    raise g k n = 1#w ↔ root g ^ n = 1 := by
  rw [← (residue_value_injective g).eq_iff, residue_raise hw g hn, value_one hw, map_one]

/-- **The period of a generator**, by computation. -/
theorem orderOf_root_eq (hw : 0 < w) {k n : ℕ} (hpos : 0 < n) (hn : n < 2 ^ k)
    (hone : raise g k n = 1#w)
    (hne : ∀ p, p.Prime → p ∣ n → raise g k (n / p) ≠ 1#w) : orderOf (root g) = n := by
  refine orderOf_eq_of_pow_and_pow_div_prime hpos ((raise_eq_one_iff hw g hn).1 hone) ?_
  intro p hp hdvd
  have hdiv : n / p < 2 ^ k := lt_of_le_of_lt (Nat.div_le_self n p) hn
  exact fun h => hne p hp hdvd ((raise_eq_one_iff hw g hdiv).2 h)

end Crc
