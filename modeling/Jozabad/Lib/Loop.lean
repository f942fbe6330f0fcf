import Mathlib.Data.Nat.Notation
import Mathlib.Logic.Basic

/-!
# Loops that can fail

The body of a loop fails, goes on with another state (`Round.next`), or leaves the loop with a
result (`Round.done`). `Loop.run` gives it a number of rounds, and fails with `timeout` if they
do not suffice.

A loop whose body keeps an invariant, and makes a number smaller whenever it goes on, ends with a
result that its last round promises (`Loop.run_variant`, `Loop.run_total`).
-/

universe u

namespace Loop

variable {ε σ β : Type u}

/-- What one round comes to. -/
inductive Round (σ β : Type u) where
  /-- The loop goes on with this state. -/
  | next (s : σ)
  /-- The loop ends with this result. -/
  | done (b : β)

/-- At most `fuel` rounds from a state. -/
def run (body : σ → Except ε (Round σ β)) (timeout : ε) : ℕ → σ → Except ε β
  | 0, _ => .error timeout
  | fuel + 1, s => do
    match ← body s with
    | .next s' => run body timeout fuel s'
    | .done b => return b

section

variable {body : σ → Except ε (Round σ β)} {timeout : ε} {fuel : ℕ} {s s' : σ} {b : β}

theorem run_next (h : body s = .ok (.next s')) :
    run body timeout (fuel + 1) s = run body timeout fuel s' := by
  rw [run, h]
  rfl

theorem run_done (h : body s = .ok (.done b)) : run body timeout (fuel + 1) s = .ok b := by
  rw [run, h]
  rfl

/-- **The rule for total correctness.** The number in the invariant gets smaller whenever the loop
goes on. -/
theorem run_variant (inv : ℕ → σ → Prop) {post : β → Prop} {m : ℕ}
    (hbody : ∀ m s, inv m s → (∃ s' m', body s = .ok (.next s') ∧ m' < m ∧ inv m' s') ∨
      ∃ b, body s = .ok (.done b) ∧ post b)
    (hs : inv m s) (hfuel : m < fuel) :
    ∃ b, run body timeout fuel s = .ok b ∧ post b := by
  induction fuel generalizing m s with
  | zero => exact absurd hfuel (Nat.not_lt_zero _)
  | succ fuel ih =>
    obtain ⟨s', m', hnext, hlt, hs'⟩ | ⟨b, hdone, hb⟩ := hbody m s hs
    · rw [run_next hnext]
      exact ih hs' (by omega)
    · exact ⟨b, run_done hdone, hb⟩

/-- The same with a measure of the state. -/
theorem run_total (inv : σ → Prop) {post : β → Prop} (measure : σ → ℕ)
    (hbody : ∀ s, inv s → (∃ s', body s = .ok (.next s') ∧ inv s' ∧ measure s' < measure s) ∨
      ∃ b, body s = .ok (.done b) ∧ post b)
    (hs : inv s) (hfuel : measure s < fuel) :
    ∃ b, run body timeout fuel s = .ok b ∧ post b := by
  refine run_variant (fun m s => inv s ∧ measure s = m) ?_ ⟨hs, rfl⟩ hfuel
  rintro m s ⟨hs, rfl⟩
  refine (hbody s hs).imp_left ?_
  rintro ⟨s', hnext, hs', hlt⟩
  exact ⟨s', measure s', hnext, hlt, hs', rfl⟩

end

end Loop
