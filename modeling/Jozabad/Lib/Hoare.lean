import Jozabad.Lib.Rearrange
import Mathlib.Order.Lattice.Nat

/-!
# Partitioning by exchanges

Hoare's way to split a list around one of its elements, the target: one scan goes up to an element
that is not below the target, another goes down to one that is not above it, and the two are
exchanged, until the scans have crossed. `Exchanges` is this loop, and `Splits` puts in front of
it the choice of the target, the median of the first, the middle and the last element.

Both are relations between lists, without a word on how the elements are stored. What they come
to is determined (`Exchanges.unique`, `Splits.unique`).
-/

universe u

namespace Hoare

open Rearrange

variable {α : Type u} [LinearOrder α]

/-! ### Scans -/

section

variable {key : ℕ → α} {v : α} {i i' j j' i₁ i₂ j₁ j₂ k : ℕ}

/-- The first position above `i` whose key is not below `v`. -/
structure StopsUp (key : ℕ → α) (v : α) (i i' : ℕ) : Prop where
  lt : i < i'
  stop : v ≤ key i'
  below : ∀ k, i < k → k < i' → key k < v

/-- The last position below `j` whose key is not above `v`. -/
structure StopsDown (key : ℕ → α) (v : α) (j j' : ℕ) : Prop where
  lt : j' < j
  stop : key j' ≤ v
  above : ∀ k, j' < k → k < j → v < key k

theorem StopsUp.le_of_le (h : StopsUp key v i i') (hk : i < k) (hval : v ≤ key k) : i' ≤ k :=
  le_of_not_gt fun hlt => absurd (h.below k hk hlt) hval.not_gt

theorem StopsDown.le_of_le (h : StopsDown key v j j') (hk : k < j) (hval : key k ≤ v) : k ≤ j' :=
  le_of_not_gt fun hlt => absurd (h.above k hlt hk) hval.not_gt

theorem StopsUp.unique (h₁ : StopsUp key v i i₁) (h₂ : StopsUp key v i i₂) : i₁ = i₂ :=
  le_antisymm (h₁.le_of_le h₂.lt h₂.stop) (h₂.le_of_le h₁.lt h₁.stop)

theorem StopsDown.unique (h₁ : StopsDown key v j j₁) (h₂ : StopsDown key v j j₂) : j₁ = j₂ :=
  le_antisymm (h₂.le_of_le h₁.lt h₁.stop) (h₁.le_of_le h₂.lt h₂.stop)

end

/-! ### Lists -/

variable [Inhabited α]

/-- The element at a position. -/
def entry (l : List α) (k : ℕ) : α :=
  l.getD k default

/-- The list with the elements at two positions exchanged. -/
def exchanged (l : List α) (i j : ℕ) : List α :=
  swapped l i j default

/-- The list with the smaller one of two elements at the first of the two positions. -/
def ordered (l : List α) (i j : ℕ) : List α :=
  if entry l j < entry l i then exchanged l i j else l

/-- **The loop.** The last two positions are those at which the scans have crossed. -/
inductive Exchanges (v : α) : List α → ℕ → ℕ → List α → ℕ → ℕ → Prop where
  | crossed {l : List α} {i j i' j' : ℕ} : StopsUp (entry l) v i i' → StopsDown (entry l) v j j' →
      j' < i' → Exchanges v l i j l i' j'
  | exchange {l l' : List α} {i j i' j' i'' j'' : ℕ} : StopsUp (entry l) v i i' →
      StopsDown (entry l) v j j' → i' ≤ j' → Exchanges v (exchanged l i' j') i' j' l' i'' j'' →
      Exchanges v l i j l' i'' j''

/-- The list after the choice of the target, which is the second element. -/
def prepared (l : List α) : List α :=
  let last := l.length - 1
  ordered (ordered (ordered (exchanged l (last / 2) 1) 0 last) 1 last) 0 1

/-- **The two parts** of a list. The target goes to the position of the second scan, which is in
neither part. -/
inductive Splits (l : List α) : List α → List α → Prop where
  | mk {l' : List α} {i j : ℕ} : Exchanges (entry (prepared l) 1) (prepared l) 1 (l.length - 1)
      l' i j → Splits l ((exchanged l' 1 j).take j) ((exchanged l' 1 j).drop i)

section

variable {v : α} {l l₁ l₂ m₁ m₂ : List α} {i j i₁ i₂ j₁ j₂ : ℕ}

theorem Exchanges.unique (h₁ : Exchanges v l i j l₁ i₁ j₁) (h₂ : Exchanges v l i j l₂ i₂ j₂) :
    l₁ = l₂ ∧ i₁ = i₂ ∧ j₁ = j₂ := by
  induction h₁ with
  | crossed hi hj hlt =>
    cases h₂ with
    | crossed hi' hj' _ => exact ⟨rfl, hi.unique hi', hj.unique hj'⟩
    | exchange hi' hj' hle _ =>
      rw [hi.unique hi', hj.unique hj'] at hlt
      exact absurd hlt hle.not_gt
  | exchange hi hj hle _ ih =>
    cases h₂ with
    | crossed hi' hj' hlt =>
      rw [hi.unique hi', hj.unique hj'] at hle
      exact absurd hlt hle.not_gt
    | exchange hi' hj' _ hrest =>
      rw [← hi.unique hi', ← hj.unique hj'] at hrest
      exact ih hrest

theorem Splits.unique (h₁ : Splits l l₁ m₁) (h₂ : Splits l l₂ m₂) : l₁ = l₂ ∧ m₁ = m₂ := by
  obtain ⟨h₁⟩ := h₁
  obtain ⟨h₂⟩ := h₂
  obtain ⟨rfl, rfl, rfl⟩ := h₁.unique h₂
  exact ⟨rfl, rfl⟩

end

end Hoare
