import Mathlib.Data.List.GetD
import Mathlib.Data.List.Perm.Basic

/-!
# Rearranging a part of a list

`Rearranges a b l l'` says that `l'` has the elements of `l` in another order, and that only those
at the positions from `a` on and below `b` may have moved. Then each of them was at such a
position before (`Rearranges.exists_get`). The exchange of two elements is such a step
(`swapped_rearranges`), and steps can be taken one after the other.
-/

universe u

namespace Rearrange

variable {α : Type u} {l l' l'' : List α} {a b a' b' i j k : ℕ} {d : α}

/-- The elements of `l` in another order, which differs at the positions from `a` to `b` only. -/
structure Rearranges (a b : ℕ) (l l' : List α) : Prop where
  perm : l'.Perm l
  outside : ∀ k, k < a ∨ b ≤ k → l'[k]? = l[k]?

namespace Rearranges

theorem refl (l : List α) : Rearranges a b l l :=
  ⟨.refl l, fun _ _ => rfl⟩

theorem symm (h : Rearranges a b l l') : Rearranges a b l' l :=
  ⟨h.perm.symm, fun k hk => (h.outside k hk).symm⟩

theorem trans (h : Rearranges a b l l') (h' : Rearranges a b l' l'') : Rearranges a b l l'' :=
  ⟨h'.perm.trans h.perm, fun k hk => (h'.outside k hk).trans (h.outside k hk)⟩

theorem mono (h : Rearranges a b l l') (ha : a' ≤ a) (hb : b ≤ b') : Rearranges a' b' l l' :=
  ⟨h.perm, fun k hk => h.outside k (by omega)⟩

theorem length_eq (h : Rearranges a b l l') : l'.length = l.length :=
  h.perm.length_eq

theorem getD_outside (h : Rearranges a b l l') (hk : k < a ∨ b ≤ k) : l'.getD k d = l.getD k d := by
  rw [List.getD_eq_getElem?_getD, List.getD_eq_getElem?_getD, h.outside k hk]

/-- **What is in the part** was there before. -/
theorem exists_get (h : Rearranges a b l l') (hb : b ≤ l.length) (hak : a ≤ k) (hkb : k < b) :
    ∃ k', a ≤ k' ∧ k' < b ∧ l'[k]? = l[k']? := by
  have hsplit (m : List α) : m.take a ++ ((m.take b).drop a ++ m.drop b) = m := by
    have htake : m.take a = (m.take b).take a := by
      rw [List.take_take, Nat.min_eq_left (by omega)]
    rw [← List.append_assoc, htake, List.take_append_drop, List.take_append_drop]
  have hfront : l'.take a = l.take a := by
    refine List.ext_getElem? fun m => ?_
    rw [List.getElem?_take, List.getElem?_take]
    split_ifs with hm
    · exact h.outside m (.inl hm)
    · rfl
  have hback : l'.drop b = l.drop b := by
    refine List.ext_getElem? fun m => ?_
    rw [List.getElem?_drop, List.getElem?_drop]
    exact h.outside (b + m) (.inr (Nat.le_add_right b m))
  have hmiddle : ((l'.take b).drop a).Perm ((l.take b).drop a) := by
    have hperm := h.perm
    rw [← hsplit l', ← hsplit l, hfront, hback] at hperm
    exact (List.perm_append_right_iff _).1 ((List.perm_append_left_iff _).1 hperm)
  have hk : k < l'.length := by rw [h.length_eq]; omega
  have hmem : l'[k] ∈ (l'.take b).drop a := by
    refine List.mem_of_getElem? (i := k - a) ?_
    rw [List.getElem?_drop, List.getElem?_take, if_pos (by omega), Nat.add_sub_cancel' hak]
    exact List.getElem?_eq_getElem hk
  obtain ⟨m, hm⟩ := List.mem_iff_getElem?.1 (hmiddle.mem_iff.1 hmem)
  rw [List.getElem?_drop, List.getElem?_take] at hm
  split_ifs at hm with hlt
  exact ⟨a + m, Nat.le_add_right a m, hlt, (List.getElem?_eq_getElem hk).trans hm.symm⟩

theorem exists_getD (h : Rearranges a b l l') (hb : b ≤ l.length) (hak : a ≤ k) (hkb : k < b) :
    ∃ k', a ≤ k' ∧ k' < b ∧ l'.getD k d = l.getD k' d := by
  obtain ⟨k', hak', hkb', heq⟩ := h.exists_get hb hak hkb
  refine ⟨k', hak', hkb', ?_⟩
  rw [List.getD_eq_getElem?_getD, List.getD_eq_getElem?_getD, heq]

end Rearranges

/-! ### Exchanges -/

/-- The list after an exchange of two elements. -/
def swapped (l : List α) (i j : ℕ) (d : α) : List α :=
  (l.set i (l.getD j d)).set j (l.getD i d)

theorem getD_set {x : α} (hi : i < l.length) :
    (l.set i x).getD k d = if k = i then x else l.getD k d := by
  rw [List.getD_eq_getElem?_getD, List.getElem?_set]
  split_ifs with h h' h'
  · rfl
  · exact absurd h.symm h'
  · exact absurd h'.symm h
  · exact (List.getD_eq_getElem?_getD).symm

theorem length_swapped : (swapped l i j d).length = l.length := by
  rw [swapped, List.length_set, List.length_set]

/-- An element that moves into a hole is exchanged with what fills the hole. -/
theorem set_set_eq_swapped {x : α} (hj : j < l.length) (hij : i ≠ j) :
    (l.set j (l.getD i d)).set i x = swapped (l.set j x) i j d := by
  rw [swapped, getD_set hj, if_pos rfl, getD_set hj, if_neg hij, List.set_comm x (l.getD i d) hij,
    List.set_set]

/-- What is where after an exchange. -/
theorem getD_swapped (hi : i < l.length) (hj : j < l.length) : (swapped l i j d).getD k d =
    if k = j then l.getD i d else if k = i then l.getD j d else l.getD k d := by
  rw [swapped, getD_set (by rwa [List.length_set]), getD_set hi]

/-- **An exchange** within a part. -/
theorem swapped_rearranges (hi : i < l.length) (hj : j < l.length) (hai : a ≤ i) (hib : i < b)
    (haj : a ≤ j) (hjb : j < b) : Rearranges a b l (swapped l i j d) := by
  constructor
  · rw [swapped, List.getD_eq_getElem _ _ hi, List.getD_eq_getElem _ _ hj]
    exact List.set_set_perm hi hj
  · intro k hk
    rw [swapped, List.getElem?_set_ne (by omega), List.getElem?_set_ne (by omega)]

end Rearrange
