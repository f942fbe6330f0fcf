import Mathlib.Data.List.Basic
import Mathlib.Order.Defs.Unbundled
import Mathlib.Tactic.ByContra

/-!
# The place of a value in an ordered list

`Cut r l x i` says that the first `i` elements of the list `l` are below `x`, and that no later
one is. Then `i` is the number of the elements below `x` (`Cut.countP_eq`). In an ordered list it
is the position of `x` (`Cut.get_eq`), or the one at which `x` can be put (`Cut.insert`).
-/

universe u

variable {α : Type u} {r : α → α → Prop} {l : List α} {x : α} {i : ℕ}

/-- The value `x` has its place behind the first `i` elements. -/
structure Cut (r : α → α → Prop) (l : List α) (x : α) (i : ℕ) : Prop where
  le : i ≤ l.length
  below : ∀ a ∈ l.take i, r a x
  above : ∀ a ∈ l.drop i, ¬ r a x

namespace Cut

/-- The place is the number of the elements below `x`. -/
theorem countP_eq [DecidableRel r] (h : Cut r l x i) : l.countP (fun a => r a x) = i := by
  have hbelow : (l.take i).countP (fun a => r a x) = (l.take i).length :=
    List.countP_eq_length.2 fun a ha => decide_eq_true (h.below a ha)
  have habove : (l.drop i).countP (fun a => r a x) = 0 :=
    List.countP_eq_zero.2 fun a ha => by simpa using h.above a ha
  calc l.countP (fun a => r a x)
      = (l.take i ++ l.drop i).countP (fun a => r a x) := by rw [List.take_append_drop]
    _ = i := by rw [List.countP_append, hbelow, habove, List.length_take, Nat.min_eq_left h.le,
        Nat.add_zero]

/-- A value that is in the list is at its place. -/
theorem get_eq [Std.Irrefl r] (h : Cut r l x i) (hl : l.Pairwise r) (hx : x ∈ l) :
    l[i]? = some x := by
  have hdrop : x ∈ l.drop i := by
    rw [← List.take_append_drop i l, List.mem_append] at hx
    exact hx.resolve_left fun htake => irrefl x (h.below x htake)
  rw [← Nat.add_zero i, ← List.getElem?_drop]
  cases htail : l.drop i with
  | nil =>
    rw [htail] at hdrop
    cases hdrop
  | cons a rest =>
    rw [htail] at hdrop
    obtain rfl | hrest := List.mem_cons.1 hdrop
    · rfl
    · -- Otherwise the first of the later elements would be below `x`.
      have hpair : (a :: rest).Pairwise r := htail ▸ hl.sublist (List.drop_sublist i l)
      exact absurd (List.rel_of_pairwise_cons hpair hrest)
        (h.above a (htail ▸ List.mem_cons_self))

/-- A value that is not in the list can be put at its place. -/
theorem insert [Std.Trichotomous r] (h : Cut r l x i) (hl : l.Pairwise r) (hx : x ∉ l) :
    (l.take i ++ x :: l.drop i).Pairwise r := by
  have hsplit : (l.take i ++ l.drop i).Pairwise r := by rwa [List.take_append_drop]
  rw [List.pairwise_append] at hsplit ⊢
  obtain ⟨htake, hdrop, hacross⟩ := hsplit
  refine ⟨htake, List.pairwise_cons.2 ⟨?_, hdrop⟩, ?_⟩
  · intro a ha
    by_contra hnot
    obtain rfl : x = a := Std.Trichotomous.trichotomous x a hnot (h.above a ha)
    exact hx (List.mem_of_mem_drop ha)
  · intro a ha b hb
    obtain rfl | hb := List.mem_cons.1 hb
    · exact h.below a ha
    · exact hacross a ha b hb

end Cut
