import Mathlib.Logic.Basic

/-!
# One computation that follows another

`Follows φ m m'` says of two computations in `Except` that `m` goes as `m'` does: it fails when
`m'` fails, with the same error, and its result is that of `m'` under `φ`. This is the judgment
for a program that is run from two states which differ in a part that it does not look at. The
rules follow the program.
-/

universe u v

variable {ε : Type u} {α α' β β' γ : Type v} {φ : α' → α} {ψ : β' → β} {e : ε} {a : α} {a' : α'}
  {m : Except ε α} {m' : Except ε α'} {r : Except ε γ} {f : α → Except ε β} {f' : α' → Except ε β'}
  {g : γ → Except ε β} {g' : γ → Except ε β'}

/-- `m` goes as `m'` does, and has its result under `φ`. -/
def Follows (φ : α' → α) (m : Except ε α) (m' : Except ε α') : Prop :=
  m = m'.map φ

namespace Follows

theorem ok (h : a = φ a') : Follows φ (.ok a : Except ε α) (.ok a') :=
  congrArg Except.ok h

theorem error : Follows φ (.error e) (.error e) :=
  rfl

/-- **The rule for a sequence.** -/
theorem bind (hm : Follows φ m m') (hf : ∀ a, Follows ψ (f (φ a)) (f' a)) :
    Follows ψ (m >>= f) (m' >>= f') := by
  unfold Follows at hm
  subst hm
  cases m' with
  | error e => rfl
  | ok a => exact hf a

/-- Both have the same first step. -/
theorem read (hg : ∀ c, Follows ψ (g c) (g' c)) : Follows ψ (r >>= g) (r >>= g') := by
  cases r with
  | error e => rfl
  | ok c => exact hg c

theorem eq_error (hm : Follows φ m m') (h : m = .error e) : m' = .error e := by
  unfold Follows at hm
  subst hm
  cases m' with
  | error e' => exact congrArg Except.error (Except.error.inj h)
  | ok a' => cases h

/-- What a result says of the computation that is followed. -/
theorem eq_ok (hm : Follows φ m m') (h : m = .ok a) : ∃ a', m' = .ok a' ∧ a = φ a' := by
  unfold Follows at hm
  subst hm
  cases m' with
  | error e => cases h
  | ok a' =>
    cases h
    exact ⟨a', rfl, rfl⟩

end Follows
