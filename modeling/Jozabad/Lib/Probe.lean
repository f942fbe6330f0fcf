import Mathlib.Data.Finset.Card
import Mathlib.Data.Nat.Find
import Mathlib.Logic.Function.Iterate

/-!
# The first free position along an orbit

A search that starts at a position and goes on with `next` until it meets a free one
finds `Probe.First next free start`: the first position of the orbit of `start` that is
free. There is at most one (`Probe.First.unique`), and there is one as soon as the orbit
visits more positions than are taken (`Probe.exists_first`).
-/

universe u

namespace Probe

variable {α : Type u} {next : α → α} {free : α → Prop} {start l l' : α}

/-- `l` is free, and it is the first such position from `start` on. -/
def First (next : α → α) (free : α → Prop) (start l : α) : Prop :=
  ∃ k, l = next^[k] start ∧ free l ∧ ∀ j < k, ¬free (next^[j] start)

namespace First

theorem isFree (h : First next free start l) : free l :=
  h.choose_spec.2.1

/-- A property that `next` keeps holds of the first free position. -/
theorem of_kept {p : α → Prop} (h : First next free start l) (hnext : ∀ a, p a → p (next a))
    (hstart : p start) : p l := by
  obtain ⟨k, rfl, -, -⟩ := h
  induction k with
  | zero => exact hstart
  | succ k ih =>
    rw [Function.iterate_succ_apply']
    exact hnext _ ih

theorem unique (h : First next free start l) (h' : First next free start l') : l = l' := by
  obtain ⟨k, rfl, hk, hmin⟩ := h
  obtain ⟨k', rfl, hk', hmin'⟩ := h'
  rcases lt_trichotomy k k' with hlt | heq | hgt
  · exact absurd hk (hmin' k hlt)
  · rw [heq]
  · exact absurd hk' (hmin k' hgt)

/-- The search stops where it starts exactly if that position is free. -/
theorem self_iff : First next free start start ↔ free start := by
  constructor
  · exact First.isFree
  · intro hfree
    exact ⟨0, rfl, hfree, fun j hj => absurd hj (Nat.not_lt_zero j)⟩

end First

/-- **There is a free position** if fewer positions are taken than the orbit visits. -/
theorem exists_first [DecidableEq α] {taken : Finset α} {n : ℕ}
    (hfree : ∀ a, a ∉ taken → free a)
    (hinj : Set.InjOn (fun k => next^[k] start) (Finset.range n : Set ℕ))
    (hcard : taken.card < n) : ∃ l, First next free start l := by
  classical
  have hvisited : ((Finset.range n).image fun k => next^[k] start).card = n := by
    rw [Finset.card_image_of_injOn hinj, Finset.card_range]
  obtain ⟨a, ha, hnot⟩ := Finset.exists_mem_notMem_of_card_lt_card (hcard.trans_eq hvisited.symm)
  obtain ⟨k, -, rfl⟩ := Finset.mem_image.1 ha
  have hex : ∃ k, free (next^[k] start) := ⟨k, hfree _ hnot⟩
  exact ⟨_, Nat.find hex, rfl, Nat.find_spec hex, fun j hj => Nat.find_min hex hj⟩

end Probe
