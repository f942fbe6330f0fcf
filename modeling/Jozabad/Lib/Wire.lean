import Mathlib.Data.Nat.ModEq
import Mathlib.Algebra.Order.Ring.Nat
import Mathlib.Tactic.Ring

/-!
# Readers of byte formats

A `Reader ε α` takes a value from the front of a byte list or fails with an `ε`. What
it leaves behind is part of the result in both cases, so that a caller can tell how
far a failed reader came.

`r.Reads bs a` says that `r` takes exactly the bytes `bs`, whatever follows them, and
returns `a`. Formats are put together field by field, and `Reads.bind` puts together
the facts about their fields in the same way. For the fields there are numbers in
network byte order (`putNumber`, `getNumber`) and runs of bytes (`getBytes`). Where a
format is looked into before it is read there are `bytesAt` and `numberAt`.
-/

/-- A reader that fails with an `ε`. -/
abbrev Reader (ε α : Type) := ExceptT ε (StateM (List UInt8)) α

namespace Reader

variable {ε α β : Type}

/-- Run a reader. -/
def on (r : Reader ε α) (input : List UInt8) : Except ε α × List UInt8 :=
  StateT.run (ExceptT.run r) input

/-- `r` takes the bytes `bs` and returns `a`. -/
def Reads (r : Reader ε α) (bs : List UInt8) (a : α) : Prop :=
  ∀ rest, r.on (bs ++ rest) = (.ok a, rest)

theorem Reads.pure (a : α) : Reads (Pure.pure a : Reader ε α) [] a :=
  fun _ => rfl

theorem Reads.bind {r : Reader ε α} {f : α → Reader ε β} {bs bs' : List UInt8} {a : α} {b : β}
    (hr : Reads r bs a) (hf : Reads (f a) bs' b) : Reads (r >>= f) (bs ++ bs') b := by
  intro rest
  have hr' := hr (bs' ++ rest)
  have hf' := hf rest
  rw [List.append_assoc]
  unfold on at hr' hf' ⊢
  rw [ExceptT.run_bind, StateT.run_bind, hr']
  exact hf'

/-- The value may be adjusted after it has been read. -/
theorem Reads.map {r : Reader ε α} {f : α → β} {bs : List UInt8} {a : α} (hr : Reads r bs a) :
    Reads (r >>= fun a => Pure.pure (f a)) bs (f a) := by
  have h : Reads (r >>= fun a => Pure.pure (f a)) (bs ++ []) (f a) := hr.bind (Reads.pure (f a))
  rwa [List.append_nil] at h

/-- The second reader may take nothing. -/
theorem Reads.bind_nil {r : Reader ε α} {f : α → Reader ε β} {bs : List UInt8} {a : α} {b : β}
    (hr : Reads r bs a) (hf : Reads (f a) [] b) : Reads (r >>= f) bs b := by
  have h := hr.bind hf
  rwa [List.append_nil] at h

/-- A sequence of readers fails where the second one does. -/
theorem Reads.bind_error {r : Reader ε α} {f : α → Reader ε β} {bs rest : List UInt8} {a : α}
    {e : ε} (hr : Reads r bs a) (hf : ((f a).on rest).1 = .error e) :
    ((r >>= f).on (bs ++ rest)).1 = .error e := by
  have hr' := hr rest
  unfold on at hr' hf ⊢
  rw [ExceptT.run_bind, StateT.run_bind, hr']
  exact hf
/-- A sequence of readers succeeds only through a result of the first. -/
theorem on_bind_ok {r : Reader ε α} {f : α → Reader ε β} {input rest : List UInt8} {b : β}
    (h : (r >>= f).on input = (.ok b, rest)) :
    ∃ a mid, r.on input = (.ok a, mid) ∧ (f a).on mid = (.ok b, rest) := by
  unfold on at h ⊢
  rw [ExceptT.run_bind, StateT.run_bind] at h
  cases hr : StateT.run (ExceptT.run r) input with
  | mk result mid =>
    rw [hr] at h
    cases result with
    | error e => cases h
    | ok a => exact ⟨a, mid, rfl, h⟩

theorem on_pure_ok {input rest : List UInt8} {a b : α}
    (h : (Pure.pure a : Reader ε α).on input = (.ok b, rest)) : a = b ∧ input = rest := by
  cases h
  exact ⟨rfl, rfl⟩

/-- When `r` succeeds with `a`, it has taken at least `size a` bytes. -/
def Takes (r : Reader ε α) (size : α → ℕ) : Prop :=
  ∀ ⦃input rest : List UInt8⦄ ⦃a : α⦄, r.on input = (.ok a, rest) →
    rest.length + size a ≤ input.length

theorem Takes.pure {a : α} {size : α → ℕ} (h : size a = 0) :
    Takes (Pure.pure a : Reader ε α) size := by
  intro input rest b hb
  obtain ⟨rfl, rfl⟩ := on_pure_ok hb
  rw [h, Nat.add_zero]

/-- What the first reader has taken need not be taken by the second. -/
theorem Takes.bind {r : Reader ε α} {f : α → Reader ε β} {size : α → ℕ} {total : β → ℕ}
    (hr : Takes r size) (hf : ∀ a, Takes (f a) fun b => total b - size a) :
    Takes (r >>= f) total := by
  intro input rest b hb
  obtain ⟨a, mid, hra, hfa⟩ := on_bind_ok hb
  have hmid := hr hra
  have hrest : rest.length + (total b - size a) ≤ mid.length := hf a hfa
  omega

/-- What `r` returns when it succeeds. -/
def Returns (r : Reader ε α) (P : α → Prop) : Prop :=
  ∀ ⦃input rest : List UInt8⦄ ⦃a : α⦄, r.on input = (.ok a, rest) → P a

theorem Returns.pure {a : α} {P : α → Prop} (h : P a) :
    Returns (Pure.pure a : Reader ε α) P := by
  intro input rest b hb
  obtain ⟨rfl, -⟩ := on_pure_ok hb
  exact h

/-- What the first reader returns may be used by the second. -/
theorem Returns.bind_of {r : Reader ε α} {f : α → Reader ε β} {Q : α → Prop} {P : β → Prop}
    (hr : Returns r Q) (hf : ∀ a, Q a → Returns (f a) P) : Returns (r >>= f) P := by
  intro input rest b hb
  obtain ⟨a, mid, hra, hfa⟩ := on_bind_ok hb
  exact hf a (hr hra) hfa

theorem Returns.bind {r : Reader ε α} {f : α → Reader ε β} {P : β → Prop}
    (hf : ∀ a, Returns (f a) P) : Returns (r >>= f) P :=
  Returns.bind_of (fun _ _ _ _ => trivial) fun a _ => hf a

/-- `r` puts nothing back, whether it succeeds or not. -/
def Shrinks (r : Reader ε α) : Prop :=
  ∀ input, (r.on input).2.length ≤ input.length

theorem Shrinks.pure (a : α) : Shrinks (Pure.pure a : Reader ε α) :=
  fun _ => le_rfl

theorem Shrinks.throw (e : ε) : Shrinks (MonadExcept.throw e : Reader ε α) :=
  fun _ => le_rfl

theorem Shrinks.bind {r : Reader ε α} {f : α → Reader ε β} (hr : Shrinks r)
    (hf : ∀ a, Shrinks (f a)) : Shrinks (r >>= f) := by
  intro input
  have hmid := hr input
  unfold on at hmid ⊢
  rw [ExceptT.run_bind, StateT.run_bind]
  cases h : StateT.run (ExceptT.run r) input with
  | mk result mid =>
    rw [h] at hmid
    cases result with
    | error e => exact hmid
    | ok a => exact le_trans (hf a mid) hmid

end Reader

/-! ### Numbers in network byte order -/

/-- The `n` lowest bytes of `x`, highest first. -/
def putNumber : (n x : ℕ) → List UInt8
  | 0, _ => []
  | n + 1, x => UInt8.ofNat (x / 256 ^ n) :: putNumber n x

/-- The number that the bytes stand for. -/
def toNumber (bs : List UInt8) : ℕ :=
  bs.foldl (fun x b => x * 256 + b.toNat) 0

@[simp] theorem length_putNumber (n x : ℕ) : (putNumber n x).length = n := by
  induction n with
  | zero => rfl
  | succ n ih => rw [putNumber, List.length_cons, ih]

private theorem foldl_putNumber (n x acc : ℕ) :
    (putNumber n x).foldl (fun x b => x * 256 + b.toNat) acc = acc * 256 ^ n + x % 256 ^ n := by
  induction n generalizing acc with
  | zero => simp [putNumber, Nat.mod_one]
  | succ n ih =>
    rw [putNumber, List.foldl_cons, ih, UInt8.toNat_ofNat']
    -- The highest byte of the first `n + 1` is a digit on its own.
    have hdigit : x % 256 ^ (n + 1) = 256 ^ n * (x / 256 ^ n % 256) + x % 256 ^ n := by
      rw [pow_succ, Nat.mod_mul, Nat.add_comm]
    rw [hdigit]
    ring

/-- What is put is got back, up to the number of bytes. -/
theorem toNumber_putNumber (n x : ℕ) : toNumber (putNumber n x) = x % 256 ^ n := by
  rw [toNumber, foldl_putNumber, Nat.zero_mul, Nat.zero_add]

private theorem foldl_lt (bs : List UInt8) (acc : ℕ) :
    bs.foldl (fun x b => x * 256 + b.toNat) acc < (acc + 1) * 256 ^ bs.length := by
  induction bs generalizing acc with
  | nil => simp
  | cons b bs ih =>
    have hb : b.toNat < 256 := b.toNat_lt
    refine lt_of_lt_of_le (ih _) ?_
    rw [List.length_cons, pow_succ', ← Nat.mul_assoc]
    refine Nat.mul_le_mul_right _ ?_
    change acc * 256 + b.toNat + 1 ≤ (acc + 1) * 256
    omega

theorem toNumber_lt (bs : List UInt8) : toNumber bs < 256 ^ bs.length := by
  have h := foldl_lt bs 0
  rwa [Nat.zero_add, Nat.one_mul] at h

theorem toNumber_putNumber_of_lt {n x : ℕ} (h : x < 256 ^ n) : toNumber (putNumber n x) = x := by
  rw [toNumber_putNumber, Nat.mod_eq_of_lt h]

/-! ### Bytes at an offset -/

/-- The `n` bytes of `bs` at offset `i`. -/
def bytesAt (bs : List UInt8) (i n : ℕ) : List UInt8 :=
  (bs.drop i).take n

/-- The number in the `n` bytes of `bs` at offset `i`. -/
def numberAt (bs : List UInt8) (i n : ℕ) : ℕ :=
  toNumber (bytesAt bs i n)

theorem bytesAt_append_left {a : List UInt8} {n : ℕ} (hn : a.length = n) (b : List UInt8) :
    bytesAt (a ++ b) 0 n = a := by
  subst hn
  exact List.take_left

theorem bytesAt_append_right {a : List UInt8} {i : ℕ} (hi : a.length = i) (b : List UInt8)
    (j n : ℕ) : bytesAt (a ++ b) (i + j) n = bytesAt b j n := by
  subst hi
  rw [bytesAt, ← List.drop_drop, List.drop_left]
  rfl

/-- What stands in the front of a buffer does not depend on what follows it. -/
theorem bytesAt_of_le {a : List UInt8} {i n : ℕ} (h : i + n ≤ a.length) (b : List UInt8) :
    bytesAt (a ++ b) i n = bytesAt a i n := by
  have hdrop : (a ++ b).drop i = a.drop i ++ b :=
    List.drop_append_of_le_length (le_trans (Nat.le_add_right i n) h)
  rw [bytesAt, hdrop, bytesAt,
    List.take_append_of_le_length (by rw [List.length_drop]; exact Nat.le_sub_of_add_le' h)]

theorem numberAt_append_left {n x : ℕ} (hx : x < 256 ^ n) (b : List UInt8) :
    numberAt (putNumber n x ++ b) 0 n = x := by
  rw [numberAt, bytesAt_append_left (length_putNumber n x), toNumber_putNumber_of_lt hx]

theorem numberAt_of_le {a : List UInt8} {i n : ℕ} (h : i + n ≤ a.length) (b : List UInt8) :
    numberAt (a ++ b) i n = numberAt a i n :=
  congrArg toNumber (bytesAt_of_le h b)

theorem numberAt_append_right {a : List UInt8} {i : ℕ} (hi : a.length = i) (b : List UInt8)
    (j n : ℕ) : numberAt (a ++ b) (i + j) n = numberAt b j n :=
  congrArg toNumber (bytesAt_append_right hi b j n)

theorem numberAt_lt (bs : List UInt8) (i n : ℕ) : numberAt bs i n < 256 ^ n :=
  lt_of_lt_of_le (toNumber_lt _)
    (Nat.pow_le_pow_right (by decide) (List.length_take_le n (bs.drop i)))

/-! ### Fields -/

section Fields

variable {ε : Type} (premature : ε)

/-- Take `n` bytes, or fail without taking any. -/
def getBytes (n : ℕ) : Reader ε (List UInt8) :=
  ExceptT.mk fun input =>
    if input.length < n then (.error premature, input) else (.ok (input.take n), input.drop n)

/-- Take a number of `n` bytes. -/
def getNumber (n : ℕ) : Reader ε ℕ := do
  let bs ← getBytes premature n
  return toNumber bs

theorem reads_getBytes (bs : List UInt8) : (getBytes premature bs.length).Reads bs bs := by
  intro rest
  change (if (bs ++ rest).length < bs.length then _ else _) = _
  rw [if_neg (by rw [List.length_append]; exact not_lt.2 (Nat.le_add_right _ _)),
    List.take_left, List.drop_left]

theorem reads_getNumber {n x : ℕ} (h : x < 256 ^ n) :
    (getNumber premature n).Reads (putNumber n x) x := by
  have hbytes := reads_getBytes premature (putNumber n x)
  rw [length_putNumber] at hbytes
  have hmap := hbytes.map (f := toNumber)
  rwa [toNumber_putNumber_of_lt h] at hmap

theorem on_getBytes_ok {n : ℕ} {input rest bs : List UInt8}
    (h : (getBytes premature n).on input = (.ok bs, rest)) :
    bs.length = n ∧ rest.length + n = input.length := by
  change (if input.length < n then (Except.error premature, input) else
    (Except.ok (input.take n), input.drop n)) = _ at h
  by_cases hlen : input.length < n
  · rw [if_pos hlen] at h
    cases h
  · rw [if_neg hlen] at h
    cases h
    rw [List.length_take, List.length_drop]
    omega

theorem returns_getBytes (n : ℕ) : (getBytes premature n).Returns fun bs => bs.length = n :=
  fun _ _ _ h => (on_getBytes_ok premature h).1

/-- A number has no more than its bytes. -/
theorem returns_getNumber (n : ℕ) : (getNumber premature n).Returns fun x => x < 256 ^ n :=
  (returns_getBytes premature n).bind_of fun bs hlen => Reader.Returns.pure (hlen ▸ toNumber_lt bs)

theorem shrinks_getBytes (n : ℕ) : (getBytes premature n).Shrinks := by
  intro input
  change (if input.length < n then (Except.error premature, input) else
    (Except.ok (input.take n), input.drop n)).2.length ≤ _
  split_ifs
  · exact le_rfl
  · rw [List.length_drop]
    exact Nat.sub_le _ _

theorem shrinks_getNumber (n : ℕ) : (getNumber premature n).Shrinks :=
  (shrinks_getBytes premature n).bind fun _ => Reader.Shrinks.pure _

theorem takes_getNumber (n : ℕ) : (getNumber premature n).Takes fun _ => n := by
  intro input rest x h
  obtain ⟨bs, mid, hbytes, hpure⟩ := Reader.on_bind_ok h
  obtain ⟨-, rfl⟩ := Reader.on_pure_ok hpure
  exact le_of_eq (on_getBytes_ok premature hbytes).2

end Fields
