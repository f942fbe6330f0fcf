import Jozabad.Broker.Names

/-!
# Addresses in the style of X.121 (`safe121`, `pack121` and `unpack121` in `lib.c`)

An address is a number of nine digits, written `AAA-BBBB-CC`, or `AAA-BBBB` if the extension is
zero (`IsX121`). `unpack121` writes a number so, whatever it is (`isX121_unpack121`).

Nothing else works. The loop of `safe121` does not leave the hyphens out when it asks for digits,
so that no string passes it (`safe121_eq_false`), and `pack121` asserts that its string does. If
the assertions are compiled away, `pack121` counts the hyphens as digits, and gives back no number
that was written (`pack121From_ne`).
-/

namespace Jozabad
namespace Broker

/-! ### The functions -/

/-- `strnlen_s` of a character array. -/
def strnlenS (str : List UInt8) (n : ℕ) : ℕ :=
  (content (str.take n)).length

/-- The loop of `safe121` from index `i` on, with `left` characters to go. -/
def safe121From (str : List UInt8) : (left i : ℕ) → Bool
  | 0, _ => true
  | left + 1, i =>
    if (i = 3 ∨ i = 8) ∧ str.getD i 0 ≠ 45 then false
    else if str.getD i 0 < 48 ∨ str.getD i 0 > 57 then false
    else safe121From str left (i + 1)

/-- Whether a character array holds a valid address. -/
def safe121 (str : List UInt8) (n : ℕ) : Bool :=
  let len := toInt (strnlenS str n)
  if len ≠ 11 ∧ len ≠ 8 then false else safe121From str len.toNat 0

/-- `c - '0'`, as it enters a product with a `uint32_t`. -/
def charValue (c : UInt8) : UInt32 :=
  .ofInt ((c.toNat : ℤ).bmod (2 ^ 8) - 48)

/-- The loop of `pack121` from index `i` on, with `left` characters to go. -/
def pack121From (str : List UInt8) : (left i : ℕ) → (val scale : UInt32) → UInt32
  | 0, _, val, _ => val
  | left + 1, i, val, scale =>
    pack121From str left (i + 1) (val + charValue (str.getD i 0) * scale) (scale / 10)

/-- The number of the address in a character array. -/
def pack121 (str : List UInt8) (n : ℕ) : Except Fault UInt32 := do
  assertThat (safe121 str n)
  assertThat (safe121 str n)
  let len := toInt (strnlenS str n)
  return pack121From str len.toNat 0 0 100000000

/-- `'0' + (x % 10)`. -/
def digit (x : UInt32) : UInt8 :=
  48 + (x % 10).toUInt8

/-- The static buffer in which the address of a number is written. -/
def unpack121 (x : UInt32) : List UInt8 :=
  let s10 := digit x
  let x := x / 10
  let s9 := digit x
  let x := x / 10
  let s8 := if s10 = 48 ∧ s9 = 48 then 0 else 45
  let s7 := digit x
  let x := x / 10
  let s6 := digit x
  let x := x / 10
  let s5 := digit x
  let x := x / 10
  let s4 := digit x
  let x := x / 10
  let s2 := digit x
  let x := x / 10
  let s1 := digit x
  let x := x / 10
  let s0 := digit x
  [s0, s1, s2, 45, s4, s5, s6, s7, s8, s9, s10, 0]

/-! ### What they are for -/

/-- `k` decimal digits. -/
def Digits (k : ℕ) (s : List UInt8) : Prop :=
  s.length = k ∧ ∀ c ∈ s, 48 ≤ c ∧ c ≤ 57

/-- **An address.** -/
inductive IsX121 : List UInt8 → Prop
  /-- The extension is zero. -/
  | short {a b : List UInt8} (ha : Digits 3 a) (hb : Digits 4 b) : IsX121 (a ++ 45 :: b)
  /-- There is an extension. -/
  | extended {a b c : List UInt8} (ha : Digits 3 a) (hb : Digits 4 b) (hc : Digits 2 c) :
    IsX121 (a ++ 45 :: (b ++ 45 :: c))

variable {str : List UInt8} {n left i : ℕ} {x : UInt32}

theorem toNat_digit (x : UInt32) : (digit x).toNat = 48 + x.toNat % 10 := by
  simp only [digit, UInt8.toNat_add, UInt32.toNat_toUInt8, UInt32.toNat_mod, UInt32.reduceToNat,
    UInt8.reduceToNat]
  omega

theorem digit_bounds (x : UInt32) : 48 ≤ digit x ∧ digit x ≤ 57 := by
  simp only [UInt8.le_iff_toNat_le, toNat_digit, UInt8.reduceToNat]
  omega

/-- A digit counts as itself. -/
theorem charValue_digit (x : UInt32) : charValue (digit x) = x % 10 := by
  have hvalue : ∀ d < 10, UInt32.ofInt (((48 + d : ℕ) : ℤ).bmod (2 ^ 8) - 48) = .ofNat d := by
    decide
  rw [charValue, toNat_digit, hvalue _ (Nat.mod_lt _ (by decide))]
  refine UInt32.toNat_inj.1 ?_
  simp only [UInt32.toNat_ofNat', UInt32.toNat_mod, UInt32.reduceToNat]
  omega

/-! ### What is written -/

/-- The digit of `10 ^ k`. -/
def digitAt (x : UInt32) (k : ℕ) : UInt8 :=
  digit ((· / 10)^[k] x)

theorem toNat_iterate_div (x : UInt32) (k : ℕ) : ((· / 10)^[k] x).toNat = x.toNat / 10 ^ k := by
  induction k with
  | zero => rw [Function.iterate_zero_apply, Nat.pow_zero, Nat.div_one]
  | succ k ih =>
    rw [Function.iterate_succ_apply', UInt32.toNat_div, ih, Nat.div_div_eq_div_mul, Nat.pow_succ]
    rfl

theorem unpack121_eq (x : UInt32) : unpack121 x =
    [8, 7, 6].map (digitAt x) ++ 45 :: ([5, 4, 3, 2].map (digitAt x) ++
      (if digitAt x 0 = 48 ∧ digitAt x 1 = 48 then 0 else 45) ::
        ([1, 0].map (digitAt x) ++ [0])) :=
  rfl

theorem digits_map (x : UInt32) (ks : List ℕ) : Digits ks.length (ks.map (digitAt x)) := by
  refine ⟨List.length_map _, ?_⟩
  intro c hc
  obtain ⟨k, -, rfl⟩ := List.mem_map.1 hc
  exact digit_bounds _

theorem Digits.ne_zero {k : ℕ} {s : List UInt8} (h : Digits k s) : ∀ c ∈ s, c ≠ 0 := by
  rintro c hc rfl
  exact absurd (h.2 0 hc).1 (by decide)

theorem content_hyphen (rest : List UInt8) : content (45 :: rest) = 45 :: content rest :=
  content_append (s := [45]) (by simp)

/-- The extension is left out if it is zero. -/
theorem content_unpack121 (x : UInt32) : content (unpack121 x) =
    [8, 7, 6].map (digitAt x) ++ 45 :: ([5, 4, 3, 2].map (digitAt x) ++
      if digitAt x 0 = 48 ∧ digitAt x 1 = 48 then [] else 45 :: [1, 0].map (digitAt x)) := by
  rw [unpack121_eq, content_append (digits_map x _).ne_zero, content_hyphen,
    content_append (digits_map x _).ne_zero]
  split_ifs with hzero
  · rw [content_zero]
  · rw [content_hyphen, content_append (digits_map x _).ne_zero, content_zero, List.append_nil]

/-- **What is written is an address.** -/
theorem isX121_unpack121 (x : UInt32) : IsX121 (content (unpack121 x)) := by
  rw [content_unpack121]
  split_ifs
  · rw [List.append_nil]
    exact .short (digits_map x [8, 7, 6]) (digits_map x [5, 4, 3, 2])
  · exact .extended (digits_map x [8, 7, 6]) (digits_map x [5, 4, 3, 2]) (digits_map x [1, 0])

/-- The number that an address stands for. -/
def phoneNumber (s : List UInt8) : ℕ :=
  let number := (s.filter (· ≠ 45)).foldl (fun number c => 10 * number + (c.toNat - 48)) 0
  if s.length = 8 then 100 * number else number

theorem toNat_digitAt (x : UInt32) (k : ℕ) : (digitAt x k).toNat = 48 + x.toNat / 10 ^ k % 10 := by
  rw [digitAt, toNat_digit, toNat_iterate_div]

theorem digitAt_ne_hyphen (x : UInt32) (k : ℕ) : digitAt x k ≠ 45 := by
  intro h
  have hnat := toNat_digitAt x k
  rw [h] at hnat
  simp only [UInt8.reduceToNat] at hnat
  omega

/-- One more digit of a number. -/
theorem div_pow_succ (n k : ℕ) : 10 * (n / 10 ^ (k + 1)) + n / 10 ^ k % 10 = n / 10 ^ k := by
  rw [Nat.pow_succ, ← Nat.div_div_eq_div_mul]
  exact Nat.div_add_mod _ 10

/-- The digits behind those that have been read. -/
theorem foldl_digits (x : UInt32) (k m : ℕ) :
    (((List.range m).map (k + ·)).reverse.map (digitAt x)).foldl
      (fun number c => 10 * number + (c.toNat - 48)) (x.toNat / 10 ^ (k + m)) =
    x.toNat / 10 ^ k := by
  induction m with
  | zero => rfl
  | succ m ih =>
    rw [List.range_succ, List.map_append, List.reverse_append]
    change List.foldl _ (10 * (x.toNat / 10 ^ (k + m + 1)) + ((digitAt x (k + m)).toNat - 48)) _ = _
    rw [toNat_digitAt, Nat.add_sub_cancel_left, div_pow_succ]
    exact ih

/-- **What is written stands for the number.** -/
theorem phoneNumber_unpack121 {x : UInt32} (hx : x.toNat < 10 ^ 9) :
    phoneNumber (content (unpack121 x)) = x.toNat := by
  have hkeep : ∀ ks : List ℕ, (ks.map (digitAt x)).filter (· ≠ 45) = ks.map (digitAt x) := by
    intro ks
    refine List.filter_eq_self.2 fun c hc => ?_
    obtain ⟨k, -, rfl⟩ := List.mem_map.1 hc
    simpa using digitAt_ne_hyphen x k
  have hzero : x.toNat / 10 ^ 9 = 0 := Nat.div_eq_of_lt hx
  rw [content_unpack121]
  split_ifs with hext
  · have hext₀ := congrArg UInt8.toNat hext.1
    have hext₁ := congrArg UInt8.toNat hext.2
    have hfold := foldl_digits x 2 7
    rw [hzero] at hfold
    rw [List.append_nil, phoneNumber, List.filter_append, List.filter_cons_of_neg (by decide),
      hkeep, hkeep]
    refine (congrArg (100 * ·) hfold).trans ?_
    simp only [toNat_digitAt, UInt8.reduceToNat] at hext₀ hext₁
    omega
  · have hfold := foldl_digits x 0 9
    rw [hzero, Nat.pow_zero, Nat.div_one] at hfold
    rw [phoneNumber, List.filter_append, List.filter_cons_of_neg (by decide), List.filter_append,
      List.filter_cons_of_neg (by decide), hkeep, hkeep, hkeep]
    exact hfold

/-! ### What comes of it -/

/-- At index 3 the loop wants a hyphen, and then a digit. -/
theorem safe121From_eq_false (hi : i ≤ 3) (hleft : 3 < i + left) :
    safe121From str left i = false := by
  induction left generalizing i with
  | zero => omega
  | succ left ih =>
    rw [safe121From]
    split_ifs with hhyphen hdigit
    · rfl
    · rfl
    · obtain rfl | hlt := Nat.eq_or_lt_of_le hi
      · rw [not_and, not_not] at hhyphen
        rw [hhyphen (.inl rfl)] at hdigit
        exact absurd (by decide) hdigit
      · exact ih (by omega) (by omega)

/-- **No string passes.** -/
theorem safe121_eq_false (str : List UInt8) (n : ℕ) : safe121 str n = false := by
  unfold safe121
  simp only
  split_ifs with hlen
  · rfl
  · rw [not_and_or, not_not, not_not] at hlen
    refine safe121From_eq_false (Nat.zero_le 3) ?_
    omega

theorem pack121_eq_error (str : List UInt8) (n : ℕ) :
    pack121 str n = .error .assertFailed := by
  rw [pack121, safe121_eq_false]
  rfl

/-- A number whose hyphens are counted is another one. -/
theorem packed_ne {a b c hyphen : ℕ} (ha : a < 1000) (hb : b < 10000) (hc : c < 100)
    (hhyphen : hyphen = 0 ∨ hyphen = 4294967293) :
    (1000000 * a + 10 * b + 4294967293 * 100000 + hyphen) % 2 ^ 32 ≠
      1000000 * a + 100 * b + c := by
  intro h
  have hdiv := Nat.div_add_mod (1000000 * a + 10 * b + 4294967293 * 100000 + hyphen) (2 ^ 32)
  rw [h] at hdiv
  obtain rfl | rfl := hhyphen
  · have hquotient : (1000000 * a + 10 * b + 4294967293 * 100000 + 0) / 2 ^ 32 = 99999 ∨
        (1000000 * a + 10 * b + 4294967293 * 100000 + 0) / 2 ^ 32 = 100000 := by omega
    obtain hquotient | hquotient := hquotient <;> rw [hquotient] at hdiv <;> omega
  · have hquotient : (1000000 * a + 10 * b + 4294967293 * 100000 + 4294967293) / 2 ^ 32 = 100000 ∨
        (1000000 * a + 10 * b + 4294967293 * 100000 + 4294967293) / 2 ^ 32 = 100001 := by omega
    obtain hquotient | hquotient := hquotient <;> rw [hquotient] at hdiv <;> omega

theorem charValue_digitAt (x : UInt32) (k : ℕ) :
    charValue (digitAt x k) = .ofNat (x.toNat / 10 ^ k % 10) := by
  refine UInt32.toNat_inj.1 ?_
  rw [digitAt, charValue_digit, UInt32.toNat_mod, toNat_iterate_div, UInt32.toNat_ofNat']
  simp only [UInt32.reduceToNat]
  omega

theorem charValue_hyphen : charValue 45 = .ofNat 4294967293 := by decide

/-- The sum that the loop comes to with the first eight characters. -/
theorem pack121From_eight (x : UInt32) (rest : List UInt8) (left : ℕ) :
    pack121From ([8, 7, 6].map (digitAt x) ++ 45 :: ([5, 4, 3, 2].map (digitAt x) ++ rest))
      (left + 8) 0 0 100000000 =
    pack121From ([8, 7, 6].map (digitAt x) ++ 45 :: ([5, 4, 3, 2].map (digitAt x) ++ rest))
      left 8 (.ofNat (0 + x.toNat / 10 ^ 8 % 10 * 100000000 + x.toNat / 10 ^ 7 % 10 * 10000000 +
        x.toNat / 10 ^ 6 % 10 * 1000000 + 4294967293 * 100000 +
        x.toNat / 10 ^ 5 % 10 * 10000 + x.toNat / 10 ^ 4 % 10 * 1000 +
        x.toNat / 10 ^ 3 % 10 * 100 + x.toNat / 10 ^ 2 % 10 * 10)) 1 := by
  simp only [UInt32.ofNat_add, UInt32.ofNat_mul, ← charValue_digitAt, ← charValue_hyphen]
  rfl

/-- The same sum, by the two parts of the number. -/
theorem sum_of_digits {n : ℕ} (hn : n < 10 ^ 9) :
    0 + n / 10 ^ 8 % 10 * 100000000 + n / 10 ^ 7 % 10 * 10000000 + n / 10 ^ 6 % 10 * 1000000 +
      4294967293 * 100000 + n / 10 ^ 5 % 10 * 10000 + n / 10 ^ 4 % 10 * 1000 +
      n / 10 ^ 3 % 10 * 100 + n / 10 ^ 2 % 10 * 10 =
    1000000 * (n / 1000000) + 10 * (n / 100 % 10000) + 4294967293 * 100000 := by
  omega

/-- **Without the assertions** no number comes back: the hyphens are counted. -/
theorem pack121From_ne {x : UInt32} (hx : x.toNat < 10 ^ 9) :
    pack121From (unpack121 x) (content (unpack121 x)).length 0 0 100000000 ≠ x := by
  intro heq
  have hparts : x.toNat = 1000000 * (x.toNat / 1000000) + 100 * (x.toNat / 100 % 10000) +
      x.toNat % 100 := by omega
  have hne (hyphen : ℕ) (hhyphen : hyphen = 0 ∨ hyphen = 4294967293) :=
    packed_ne (a := x.toNat / 1000000) (b := x.toNat / 100 % 10000) (c := x.toNat % 100) (by omega)
      (Nat.mod_lt _ (by decide)) (Nat.mod_lt _ (by decide)) hhyphen
  rw [← hparts] at hne
  rw [content_unpack121, unpack121_eq] at heq
  split_ifs at heq with hzero
  · rw [List.append_nil] at heq
    have hsum := (pack121From_eight x (0 :: ([1, 0].map (digitAt x) ++ [0])) 0).symm.trans heq
    rw [sum_of_digits hx, pack121From] at hsum
    have hnat := congrArg UInt32.toNat hsum
    rw [UInt32.toNat_ofNat'] at hnat
    exact hne 0 (.inl rfl) hnat
  · have hsum := (pack121From_eight x (45 :: ([1, 0].map (digitAt x) ++ [0])) 3).symm.trans heq
    rw [sum_of_digits hx] at hsum
    change UInt32.ofNat _ + charValue 45 * 1 + charValue (digitAt x 1) * 0 +
      charValue (digitAt x 0) * 0 = x at hsum
    rw [charValue_hyphen, UInt32.mul_one, UInt32.mul_zero, UInt32.mul_zero, UInt32.add_zero,
      UInt32.add_zero, ← UInt32.ofNat_add] at hsum
    have hnat := congrArg UInt32.toNat hsum
    rw [UInt32.toNat_ofNat'] at hnat
    exact hne _ (.inr rfl) hnat

/-- **The address codec.** Addresses are refused, and only they are misjudged. No number comes
back from its address, and every call of `pack121` fails. -/
theorem x121_codec (str : List UInt8) (x : UInt32) (n : ℕ) :
    ((safe121 str str.length = true ↔ IsX121 (content str)) ↔ ¬ IsX121 (content str)) ∧
      ¬ (safe121 (unpack121 x) n = true ∧ pack121 (unpack121 x) n = .ok x) ∧
      safe121 str n = false ∧ pack121 str n = .error .assertFailed := by
  refine ⟨?_, ?_, safe121_eq_false str n, pack121_eq_error str n⟩
  · rw [safe121_eq_false]
    simp
  · rintro ⟨hsafe, -⟩
    rw [safe121_eq_false] at hsafe
    cases hsafe

/-- **A refused address.** The code does not accept `123-4567`. -/
theorem x121_refused : ¬ ∀ str : List UInt8,
    safe121 str str.length = true ↔ IsX121 (content str) := by
  intro h
  have haddress : IsX121 (content [49, 50, 51, 45, 52, 53, 54, 55]) :=
    .short (a := [49, 50, 51]) (b := [52, 53, 54, 55]) ⟨rfl, by simp⟩ ⟨rfl, by simp⟩
  have hsafe := (h _).2 haddress
  rw [safe121_eq_false] at hsafe
  cases hsafe

end Broker
end Jozabad
