import Jozabad.Lib.Wire
import Mathlib.Tactic.Positivity

/-!
# What a reader accepts

`r.Accepts L` says exactly what a reader accepts: it returns `a` on the inputs that begin with
bytes `bs` such that `L a bs`, and it takes just these. The relation `L` is the language of the
format, as it would be written down, and the reader is shown to be right and complete for it at
once. The languages of the parts of a format are put together with `Accepts.bind`.
-/

namespace Reader

variable {ε α β : Type} {L : α → List UInt8 → Prop} {M : α → β → List UInt8 → Prop}

/-- `r` returns `a` exactly on the inputs that begin with bytes of `L a`, and takes these. -/
def Accepts (r : Reader ε α) (L : α → List UInt8 → Prop) : Prop :=
  ∀ a input rest, r.on input = (.ok a, rest) ↔ ∃ bs, input = bs ++ rest ∧ L a bs

theorem Accepts.congr {L' : α → List UInt8 → Prop} {r : Reader ε α} (h : r.Accepts L)
    (hL : ∀ a bs, L a bs ↔ L' a bs) : r.Accepts L' := by
  intro a input rest
  rw [h a input rest]
  exact exists_congr fun bs => and_congr_right fun _ => hL a bs

theorem Accepts.pure (a : α) :
    (Pure.pure a : Reader ε α).Accepts fun a' bs => a' = a ∧ bs = [] := by
  intro a' input rest
  constructor
  · intro h
    obtain ⟨rfl, rfl⟩ := on_pure_ok h
    exact ⟨[], rfl, rfl, rfl⟩
  · rintro ⟨_, rfl, rfl, rfl⟩
    rfl

theorem Accepts.throw (e : ε) : (MonadExcept.throw e : Reader ε α).Accepts fun _ _ => False := by
  intro a input rest
  constructor
  · intro h
    cases h
  · rintro ⟨_, -, h⟩
    exact h.elim

/-- **One format behind another**, which may depend on what has been read. -/
theorem Accepts.bind {r : Reader ε α} {f : α → Reader ε β} (hr : r.Accepts L)
    (hf : ∀ a, (f a).Accepts (M a)) :
    (r >>= f).Accepts fun b bs => ∃ a xs ys, bs = xs ++ ys ∧ L a xs ∧ M a b ys := by
  intro b input rest
  constructor
  · intro h
    obtain ⟨a, mid, hra, hfa⟩ := on_bind_ok h
    obtain ⟨xs, rfl, hxs⟩ := (hr a input mid).1 hra
    obtain ⟨ys, rfl, hys⟩ := (hf a b mid rest).1 hfa
    exact ⟨xs ++ ys, (List.append_assoc xs ys rest).symm, a, xs, ys, rfl, hxs, hys⟩
  · rintro ⟨_, rfl, a, xs, ys, rfl, hxs, hys⟩
    have hra : r.on (xs ++ (ys ++ rest)) = (.ok a, ys ++ rest) := (hr a _ _).2 ⟨xs, rfl, hxs⟩
    have hfa : (f a).on (ys ++ rest) = (.ok b, rest) := (hf a b _ _).2 ⟨ys, rfl, hys⟩
    unfold on at hra hfa ⊢
    rw [ExceptT.run_bind, StateT.run_bind, List.append_assoc, hra]
    exact hfa

/-- A value that is adjusted after it has been read. -/
theorem Accepts.map {r : Reader ε α} (hr : r.Accepts L) (f : α → β) :
    (r >>= fun a => Pure.pure (f a)).Accepts fun b bs => ∃ a, b = f a ∧ L a bs := by
  refine (hr.bind fun a => Accepts.pure (f a)).congr fun b bs => ?_
  constructor
  · rintro ⟨a, xs, _, rfl, hxs, rfl, rfl⟩
    rw [List.append_nil]
    exact ⟨a, rfl, hxs⟩
  · rintro ⟨a, rfl, hbs⟩
    exact ⟨a, bs, [], (List.append_nil bs).symm, hbs, rfl, rfl⟩

/-- What has been read is looked at, and may be turned down. -/
theorem Accepts.ite_throw {c : Prop} [Decidable c] {f : α → Reader ε β} {r : Reader ε β}
    {L : β → List UInt8 → Prop} {e : ε} (hr : ¬ c → r.Accepts L) :
    (if c then (MonadExcept.throw e : Reader ε α) >>= f else r).Accepts
      fun b bs => ¬ c ∧ L b bs := by
  by_cases hc : c
  · rw [if_pos hc]
    intro b input rest
    constructor
    · intro h
      cases h
    · rintro ⟨bs, -, hnot, -⟩
      exact absurd hc hnot
  · rw [if_neg hc]
    refine (hr hc).congr fun b bs => ?_
    exact (and_iff_right hc).symm

/-! ### Fields -/

variable (premature : ε)

theorem accepts_getBytes (n : ℕ) :
    (getBytes premature n).Accepts fun a bs => a = bs ∧ bs.length = n := by
  intro a input rest
  change (if input.length < n then (Except.error premature, input) else
    (Except.ok (input.take n), input.drop n)) = _ ↔ _
  constructor
  · intro h
    by_cases hlen : input.length < n
    · rw [if_pos hlen] at h
      cases h
    · rw [if_neg hlen, Prod.mk.injEq, Except.ok.injEq] at h
      obtain ⟨rfl, rfl⟩ := h
      exact ⟨input.take n, (List.take_append_drop n input).symm, rfl,
        List.length_take_of_le (not_lt.1 hlen)⟩
  · rintro ⟨bs, rfl, rfl, rfl⟩
    rw [if_neg (by simp), List.take_left, List.drop_left]

/-- What lies above the lowest bytes is not put. -/
theorem putNumber_add_mul (n k x : ℕ) : putNumber n (k * 256 ^ n + x) = putNumber n x := by
  induction n generalizing k with
  | zero => rfl
  | succ n ih =>
    have hshift : k * 256 ^ (n + 1) = k * 256 * 256 ^ n := by
      rw [pow_succ]
      ring
    have hdiv : (k * 256 * 256 ^ n + x) / 256 ^ n = k * 256 + x / 256 ^ n := by
      rw [Nat.add_comm, Nat.add_mul_div_right _ _ (by positivity), Nat.add_comm]
    rw [putNumber, putNumber, hshift, ih, hdiv]
    refine congrArg (· :: putNumber n x) ?_
    rw [← UInt8.toNat_inj, UInt8.toNat_ofNat', UInt8.toNat_ofNat']
    omega

theorem toNumber_cons (b : UInt8) (bs : List UInt8) :
    toNumber (b :: bs) = b.toNat * 256 ^ bs.length + toNumber bs := by
  have hfoldl (acc : ℕ) (bs : List UInt8) : bs.foldl (fun x b => x * 256 + b.toNat) acc =
      acc * 256 ^ bs.length + toNumber bs := by
    induction bs using List.reverseRecOn with
    | nil => simp [toNumber]
    | append_singleton bs b ih =>
      simp only [toNumber, List.foldl_append, List.foldl_cons, List.foldl_nil, List.length_append,
        List.length_singleton]
      rw [ih, toNumber]
      ring
  rw [toNumber, List.foldl_cons, hfoldl, Nat.zero_mul, Nat.zero_add]

/-- The bytes of a number say which it is. -/
theorem putNumber_toNumber (bs : List UInt8) : putNumber bs.length (toNumber bs) = bs := by
  induction bs with
  | nil => rfl
  | cons b bs ih =>
    have hhead : (b.toNat * 256 ^ bs.length + toNumber bs) / 256 ^ bs.length = b.toNat := by
      rw [Nat.add_comm, Nat.add_mul_div_right _ _ (by positivity),
        Nat.div_eq_of_lt (toNumber_lt bs), Nat.zero_add]
    rw [List.length_cons, putNumber, toNumber_cons, hhead, UInt8.ofNat_toNat, putNumber_add_mul, ih]

theorem accepts_getNumber (n : ℕ) :
    (getNumber premature n).Accepts fun x bs => x < 256 ^ n ∧ bs = putNumber n x := by
  refine ((accepts_getBytes premature n).map toNumber).congr fun x bs => ?_
  constructor
  · rintro ⟨a, rfl, rfl, rfl⟩
    exact ⟨toNumber_lt a, (putNumber_toNumber a).symm⟩
  · rintro ⟨hx, rfl⟩
    exact ⟨_, (toNumber_putNumber_of_lt hx).symm, rfl, length_putNumber n x⟩

end Reader
