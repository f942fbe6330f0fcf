import Mathlib.Logic.Basic

/-!
# Computations that avoid errors

`Avoids bad m Q` says of a computation `m` in `Except` that it does not fail with the error
`bad`, and that its result, if it has one, meets `Q`. It may fail with other errors. This
is the judgment for a program whose faults are of several kinds, one of which is to be
excluded: the rules follow the program, and a branch that fails otherwise is no obligation.

`FailsOnly good m Q` is the opposite judgment: all errors but `good` are excluded. A
computation that meets both has a result.
-/

universe u v

variable {ε : Type u} {α β : Type v} {bad good e : ε} {a : α} {m : Except ε α} {f : α → Except ε β}
  {P P' : α → Prop} {Q : β → Prop}

/-- The computation does not fail with `bad`, and a result meets `P`. -/
structure Avoids (bad : ε) (m : Except ε α) (P : α → Prop) : Prop where
  ne : m ≠ .error bad
  post : ∀ a, m = .ok a → P a

namespace Avoids

/-- A computation that has a result. -/
theorem ok (h : P a) : Avoids bad (.ok a) P where
  ne := nofun
  post _ hb := Except.ok.inj hb ▸ h

/-- A computation that fails with another error. -/
theorem error (h : e ≠ bad) : Avoids bad (.error e) P where
  ne he := h (Except.error.inj he)
  post := nofun

/-- **The rule for a sequence.** -/
theorem bind (hm : Avoids bad m P) (hf : ∀ a, P a → Avoids bad (f a) Q) :
    Avoids bad (m >>= f) Q := by
  cases m with
  | error e => exact .error fun he => hm.ne (congrArg Except.error he)
  | ok a => exact hf a (hm.post a rfl)

/-- A first step whose result is known. -/
theorem bind_ok (hm : m = .ok a) (hf : Avoids bad (f a) Q) : Avoids bad (m >>= f) Q := by
  rw [hm]
  exact hf

theorem mono (hm : Avoids bad m P) (h : ∀ a, P a → P' a) : Avoids bad m P' where
  ne := hm.ne
  post a ha := h a (hm.post a ha)

/-- The result is known to be that of the computation. -/
theorem result (hm : Avoids bad m P) : Avoids bad m fun a => m = .ok a ∧ P a where
  ne := hm.ne
  post a ha := ⟨ha, hm.post a ha⟩

end Avoids

/-- The computation fails with `good` at most, and a result meets `P`. -/
structure FailsOnly (good : ε) (m : Except ε α) (P : α → Prop) : Prop where
  eq : ∀ e, m = .error e → e = good
  post : ∀ a, m = .ok a → P a

namespace FailsOnly

theorem ok (h : P a) : FailsOnly good (.ok a) P where
  eq := nofun
  post _ hb := Except.ok.inj hb ▸ h

theorem error : FailsOnly good (.error good) P where
  eq _ he := (Except.error.inj he).symm
  post := nofun

theorem bind (hm : FailsOnly good m P) (hf : ∀ a, P a → FailsOnly good (f a) Q) :
    FailsOnly good (m >>= f) Q := by
  cases m with
  | error e =>
    obtain rfl := hm.eq e rfl
    exact .error
  | ok a => exact hf a (hm.post a rfl)

theorem mono (hm : FailsOnly good m P) (h : ∀ a, P a → P' a) : FailsOnly good m P' where
  eq := hm.eq
  post a ha := h a (hm.post a ha)

/-- The result is known to be that of the computation. -/
theorem result (hm : FailsOnly good m P) : FailsOnly good m fun a => m = .ok a ∧ P a where
  eq := hm.eq
  post a ha := ⟨ha, hm.post a ha⟩

/-- Where no error is left, there is a result. -/
theorem exists_ok (hm : FailsOnly good m P) (h : Avoids good m P') : ∃ a, m = .ok a := by
  cases m with
  | error e =>
    obtain rfl := hm.eq e rfl
    exact absurd rfl h.ne
  | ok a => exact ⟨a, rfl⟩

end FailsOnly

/-- A sequence fails with the error of its first step. -/
theorem bind_of_eq_error (h : m = .error e) : m >>= f = .error e := by
  rw [h]
  rfl
