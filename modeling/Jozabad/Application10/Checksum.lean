import Jozabad.Application10.Crc
import Jozabad.Lib.Crc
import Mathlib.Tactic.IntervalCases
import Mathlib.Tactic.NormNum.Prime

/-!
# What the checksum notices

`digital_update_crc32` goes through its bytes with a table. What it computes is the
remainder that a register of 32 bits holds after the bits of these bytes
(`digitalUpdateCrc32_remainder`), so that the general facts about such registers hold for
it. The period of the polynomial is the longest that there is for 32 bits.
-/

namespace Jozabad
namespace Application10

open Crc Polynomial

/-- The polynomial, without its highest power. -/
def crcPolynomial : BitVec 32 := 0x04C11DB7#32

/-- The bits of a byte, highest first. -/
def byteBits (b : UInt8) : List Bool :=
  [b.toBitVec.getLsbD 7, b.toBitVec.getLsbD 6, b.toBitVec.getLsbD 5, b.toBitVec.getLsbD 4,
    b.toBitVec.getLsbD 3, b.toBitVec.getLsbD 2, b.toBitVec.getLsbD 1, b.toBitVec.getLsbD 0]

/-- The bits of a run of bytes. -/
def bitsOf (data : List UInt8) : List Bool :=
  data.flatMap byteBits

@[simp] theorem length_byteBits (b : UInt8) : (byteBits b).length = 8 := rfl

theorem length_bitsOf (data : List UInt8) : (bitsOf data).length = 8 * data.length := by
  induction data with
  | nil => rfl
  | cons b data ih =>
    rw [bitsOf, List.flatMap_cons, List.length_append, length_byteBits, List.length_cons]
    change 8 + (bitsOf data).length = _
    omega

/-! ### The table -/

/-- The table has the register of each byte. -/
theorem crcTable_eq : ∀ i : Fin 256, (crcTable.getD i 0).toBitVec =
    feed crcPolynomial 0#32 (byteBits (UInt8.ofFin i)) := by
  decide +kernel

theorem message_byteBits (b : UInt8) : message (byteBits b) = value b.toBitVec := by
  simp only [message, byteBits, value, Finset.sum_range_succ, Finset.sum_range_zero,
    List.length_cons, List.length_nil]
  ring

/-- One round of the loop. -/
def updateRound (crc : UInt32) (b : UInt8) : UInt32 :=
  crcTable.getD (b ^^^ ((crc >>> 24) &&& 0xff).toUInt8).toNat 0 ^^^ (crc <<< 8)

/-- The byte that falls out of the register. -/
theorem value_top (crc : UInt32) :
    value ((crc >>> 24) &&& 0xff).toUInt8.toBitVec = value (crc.toBitVec >>> 24) := by
  have hbyte : ((crc >>> 24) &&& 0xff).toUInt8.toBitVec =
      ((crc.toBitVec >>> 24) &&& 0xff#32).setWidth 8 := rfl
  ext i
  rw [coeff_value, coeff_value, hbyte, BitVec.getLsbD_setWidth, BitVec.getLsbD_and]
  refine congrArg bit ?_
  by_cases hi : i < 8
  · have hmask : (0xff#32).getLsbD i = true := by
      interval_cases i <;> rfl
    rw [hmask, decide_eq_true hi, Bool.and_true, Bool.true_and]
  · rw [decide_eq_false hi, Bool.false_and, BitVec.getLsbD_ushiftRight,
      BitVec.getLsbD_of_ge _ _ (by omega)]

/-- **One byte with the table is eight bits without it.** -/
theorem updateRound_eq (crc : UInt32) (b : UInt8) :
    (updateRound crc b).toBitVec = feed crcPolynomial crc.toBitVec (byteBits b) := by
  have hw : 0 < 32 := by decide
  let index : UInt8 := b ^^^ ((crc >>> 24) &&& 0xff).toUInt8
  have htable : (crcTable.getD index.toNat 0).toBitVec =
      feed crcPolynomial 0#32 (byteBits index) := crcTable_eq index.toFin
  have hround : (updateRound crc b).toBitVec =
      feed crcPolynomial 0#32 (byteBits index) ^^^ (crc.toBitVec <<< 8) := by
    rw [← htable]
    rfl
  -- What falls out of the register is in the index.
  have hindex : value index.toBitVec = value b.toBitVec + value (crc.toBitVec >>> 24) := by
    rw [UInt8.toBitVec_xor, value_xor, value_top]
  have hshift := value_shiftLeft crc.toBitVec (k := 8) (by decide)
  apply residue_value_injective crcPolynomial
  dsimp only
  rw [hround, value_xor, map_add, residue_feed hw, residue_feed hw, ← map_add, value_zero,
    mul_zero, zero_add, length_byteBits, message_byteBits, message_byteBits, hindex]
  refine congrArg (residue crcPolynomial) ?_
  linear_combination hshift

theorem digitalUpdateCrc32_eq_feed (crc : UInt32) (data : List UInt8) :
    (digitalUpdateCrc32 crc data).toBitVec = feed crcPolynomial crc.toBitVec (bitsOf data) := by
  induction data generalizing crc with
  | nil => rfl
  | cons b data ih =>
    change (digitalUpdateCrc32 (updateRound crc b) data).toBitVec = _
    rw [ih, updateRound_eq, ← feed_append]
    rfl

/-- **The table computes remainders.** The bytes that are taken in stand for a polynomial
over two elements, and so does the checksum that was there before. -/
theorem digitalUpdateCrc32_remainder (crc : UInt32) (data : List UInt8) :
    value (digitalUpdateCrc32 crc data).toBitVec =
      (X ^ (8 * data.length) * value crc.toBitVec + X ^ 32 * message (bitsOf data)) %ₘ
        generator crcPolynomial := by
  rw [digitalUpdateCrc32_eq_feed, value_feed (by decide), length_bitsOf]

/-! ### Damage -/

theorem digitalCrc32_eq_iff (a b : List UInt8) : digitalCrc32 a = digitalCrc32 b ↔
    feed crcPolynomial 0xffffffff#32 (bitsOf a) = feed crcPolynomial 0xffffffff#32 (bitsOf b) := by
  have hinit : (0xffffffff : UInt32).toBitVec = 0xffffffff#32 := rfl
  rw [digitalCrc32, digitalCrc32, UInt32.xor_left_inj, ← UInt32.toBitVec_inj,
    digitalUpdateCrc32_eq_feed, digitalUpdateCrc32_eq_feed, hinit]

/-- **A burst of up to 32 bits changes the checksum.** -/
theorem digitalCrc32_ne_of_burst {a b : List UInt8} {before x y after : List Bool}
    (ha : bitsOf a = before ++ x ++ after) (hb : bitsOf b = before ++ y ++ after)
    (hlen : x.length = y.length) (hburst : x.length ≤ 32) (hne : x ≠ y) :
    digitalCrc32 a ≠ digitalCrc32 b := by
  rw [Ne, digitalCrc32_eq_iff, ha, hb]
  exact feed_ne_of_burst rfl _ before after hlen hburst hne

/-- A text of which the last two bytes are exchanged. -/
theorem digitalCrc32_ne_of_burst_text :
    digitalCrc32 [0x61, 0x62, 0x63] ≠ digitalCrc32 [0x61, 0x63, 0x62] := by
  have ha : bitsOf [0x61, 0x62, 0x63] = bitsOf [0x61] ++ bitsOf [0x62, 0x63] ++ [] := rfl
  have hb : bitsOf [0x61, 0x63, 0x62] = bitsOf [0x61] ++ bitsOf [0x63, 0x62] ++ [] := rfl
  exact digitalCrc32_ne_of_burst ha hb rfl (by decide) (by decide)

/-- The prime factors of the period. -/
theorem prime_dvd_period {p : ℕ} (hp : p.Prime) (h : p ∣ 2 ^ 32 - 1) :
    p = 3 ∨ p = 5 ∨ p = 17 ∨ p = 257 ∨ p = 65537 := by
  have hfactors : 2 ^ 32 - 1 = 3 * (5 * (17 * (257 * 65537))) := by decide
  rw [hfactors, hp.dvd_mul, hp.dvd_mul, hp.dvd_mul, hp.dvd_mul] at h
  have hprime (q : ℕ) (hq : q.Prime) (h : p ∣ q) : p = q :=
    (Nat.prime_dvd_prime_iff_eq hp hq).1 h
  obtain h | h | h | h | h := h
  · exact .inl (hprime 3 (by norm_num) h)
  · exact .inr (.inl (hprime 5 (by norm_num) h))
  · exact .inr (.inr (.inl (hprime 17 (by norm_num) h)))
  · exact .inr (.inr (.inr (.inl (hprime 257 (by norm_num) h))))
  · exact .inr (.inr (.inr (.inr (hprime 65537 (by norm_num) h))))

/-- The period of the polynomial is the longest that there is for 32 bits. -/
theorem orderOf_crcPolynomial : orderOf (root crcPolynomial) = 2 ^ 32 - 1 := by
  refine orderOf_root_eq (k := 32) (by decide) (by decide) (by decide) (by decide +kernel) ?_
  intro p hp hdvd
  obtain rfl | rfl | rfl | rfl | rfl := prime_dvd_period hp hdvd
  all_goals decide +kernel

/-- **Two wrong bits change the checksum**, unless their distance is a multiple of the
period. -/
theorem digitalCrc32_pair {a b : List UInt8} {before middle after : List Bool} {x y : Bool}
    (ha : bitsOf a = before ++ (x :: middle ++ [y]) ++ after)
    (hb : bitsOf b = before ++ ((!x) :: middle ++ [!y]) ++ after) :
    digitalCrc32 a = digitalCrc32 b ↔ 2 ^ 32 - 1 ∣ middle.length + 1 := by
  rw [digitalCrc32_eq_iff, ha, hb, feed_eq_iff_pair rfl, orderOf_crcPolynomial]

/-- Two bits of a byte. -/
theorem digitalCrc32_pair_byte : digitalCrc32 [0x00] ≠ digitalCrc32 [0x81] := by
  have ha : bitsOf [0x00] = [] ++ (false :: List.replicate 6 false ++ [false]) ++ [] := rfl
  have hb : bitsOf [0x81] = [] ++ ((!false) :: List.replicate 6 false ++ [!false]) ++ [] := rfl
  exact mt (digitalCrc32_pair ha hb).1 (by decide)

end Application10
end Jozabad
