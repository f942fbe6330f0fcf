import Mathlib.Algebra.BigOperators.Group.List.Basic
import Mathlib.Data.List.Pairwise
import Mathlib.Order.Defs.PartialOrder
import Mathlib.Tactic.Ring

/-!
# Sorting by brackets

A sort that works on one part of the positions `0, ..., n - 1` after the other keeps a list of the
brackets that it still has to work on, and another one of those it has left for good. `Sorting`
is what holds in between: the brackets do not overlap, and any two positions that are not in one
bracket are in order.

* `Sorting.leaf`, `Sorting.split`: a bracket is left, or replaced by two parts of it, after the
  keys within it have been moved.
* `Sorting.done`: when nothing is left to do, all positions are in order exactly if those of each
  bracket are.
* `Shallow`: if the smaller part is always worked on first, the list stays short.
-/

universe u

namespace Brackets

variable {β : Type u} {n : ℕ}

/-- The first and the last position of a part. -/
abbrev Bracket := ℕ × ℕ

/-- The position is in the bracket. -/
def Inside (b : Bracket) (k : ℕ) : Prop :=
  b.1 ≤ k ∧ k ≤ b.2

/-- The brackets do not overlap. -/
def Apart (b c : Bracket) : Prop :=
  b.2 < c.1 ∨ c.2 < b.1

/-- The number of positions in a bracket. -/
def width (b : Bracket) : ℕ :=
  b.2 + 1 - b.1

/-- The keys of the bracket have been moved within it. -/
structure Moves (b : Bracket) (key key' : ℕ → β) : Prop where
  outside : ∀ k, ¬ Inside b k → key' k = key k
  inside : ∀ k, Inside b k → ∃ k', Inside b k' ∧ key' k = key k'

theorem Apart.symm {b c : Bracket} (h : Apart b c) : Apart c b :=
  Or.symm h

theorem Apart.not_inside {b c : Bracket} {k : ℕ} (h : Apart b c) (hk : Inside c k) :
    ¬ Inside b k := by
  unfold Apart at h
  unfold Inside at *
  omega

/-- A part of a bracket. -/
theorem Apart.part {b c d : Bracket} (h : Apart b c) (hfirst : b.1 ≤ d.1) (hlast : d.2 ≤ b.2) :
    Apart d c := by
  unfold Apart at *
  omega

section

variable [Preorder β] {key key' : ℕ → β} {b c d : Bracket} {pending leaves bs cs : List Bracket}

/-- The keys of the bracket are in order. -/
def OrderedOn (b : Bracket) (key : ℕ → β) : Prop :=
  ∀ p q, b.1 ≤ p → p < q → q ≤ b.2 → key p ≤ key q

/-- Two positions are in one of the brackets, or in order. -/
def Settled (n : ℕ) (bs : List Bracket) (key : ℕ → β) : Prop :=
  ∀ p q, p < q → q < n → key p ≤ key q ∨ ∃ b ∈ bs, b.1 ≤ p ∧ q ≤ b.2

theorem OrderedOn.congr (h : OrderedOn b key) (heq : ∀ k, Inside b k → key' k = key k) :
    OrderedOn b key' := by
  intro p q hp hpq hq
  rw [heq p ⟨hp, by omega⟩, heq q ⟨by omega, hq⟩]
  exact h p q hp hpq hq

/-- **One bracket is worked on.** What comes of it is settled but for the pairs within `cs`. -/
theorem Settled.replace (h : Settled n (b :: bs) key) (hwithin : b.2 < n)
    (hapart : ∀ c ∈ bs, Apart b c) (hmoves : Moves b key key')
    (hcs : ∀ p q, b.1 ≤ p → p < q → q ≤ b.2 → key' p ≤ key' q ∨ ∃ c ∈ cs, c.1 ≤ p ∧ q ≤ c.2) :
    Settled n (cs ++ bs) key' := by
  intro p q hpq hq
  -- No bracket but `b` has a position in `b`, and one outside.
  have hacross {p q k : ℕ} (hk : Inside b k) (hpk : p ≤ k) (hkq : k ≤ q)
      (hout : p < b.1 ∨ b.2 < q) : ¬ ∃ c ∈ b :: bs, c.1 ≤ p ∧ q ≤ c.2 := by
    rintro ⟨c, hc, hcp, hcq⟩
    obtain rfl | hc := List.mem_cons.1 hc
    · omega
    · exact (hapart c hc).not_inside ⟨by omega, by omega⟩ hk
  by_cases hp : Inside b p
  · by_cases hqb : Inside b q
    · obtain hle | ⟨c, hc, hin⟩ := hcs p q hp.1 hpq hqb.2
      · exact .inl hle
      · exact .inr ⟨c, List.mem_append_left bs hc, hin⟩
    · have hqb' : b.2 < q := by unfold Inside at *; omega
      obtain ⟨p', hp', heq⟩ := hmoves.inside p hp
      have hpq' : p' < q := hp'.2.trans_lt hqb'
      rw [heq, hmoves.outside q hqb]
      exact .inl ((h p' q hpq' hq).resolve_right (hacross hp' le_rfl hpq'.le (.inr hqb')))
  · by_cases hqb : Inside b q
    · have hpb : p < b.1 := by unfold Inside at *; omega
      obtain ⟨q', hq', heq⟩ := hmoves.inside q hqb
      have hpq' : p < q' := hpb.trans_le hq'.1
      rw [heq, hmoves.outside p hp]
      exact .inl ((h p q' hpq' (hq'.2.trans_lt hwithin)).resolve_right
        (hacross hq' hpq'.le le_rfl (.inl hpb)))
    · rw [hmoves.outside p hp, hmoves.outside q hqb]
      refine (h p q hpq hq).imp_right ?_
      rintro ⟨c, hc, hin⟩
      obtain rfl | hc := List.mem_cons.1 hc
      · exact absurd ⟨hin.1, by omega⟩ hp
      · exact ⟨c, List.mem_append_right cs hc, hin⟩

/-- **The state of the sort.** -/
structure Sorting (n : ℕ) (pending leaves : List Bracket) (key : ℕ → β) : Prop where
  within : ∀ b ∈ pending ++ leaves, b.1 ≤ b.2 ∧ b.2 < n
  apart : (pending ++ leaves).Pairwise Apart
  settled : Settled n (pending ++ leaves) key

namespace Sorting

theorem start (hn : 0 < n) : Sorting n [(0, n - 1)] [] key where
  within := by
    intro b hb
    rw [List.append_nil, List.mem_singleton] at hb
    rw [hb]
    exact ⟨Nat.zero_le _, Nat.sub_lt hn Nat.one_pos⟩
  apart := List.pairwise_singleton _ _
  settled p q hpq hq := .inr ⟨(0, n - 1), List.mem_singleton_self _, Nat.zero_le p, by simp; omega⟩

/-- The other brackets do not overlap the first one. -/
theorem apart_first (h : Sorting n (b :: pending) leaves key) (hc : c ∈ pending ++ leaves) :
    Apart b c :=
  List.rel_of_pairwise_cons h.apart hc

/-- Work on the first bracket does not change the others. -/
theorem unchanged (h : Sorting n (b :: pending) leaves key) (hmoves : Moves b key key')
    (hc : c ∈ pending ++ leaves) : ∀ k, Inside c k → key' k = key k :=
  fun k hk => hmoves.outside k ((h.apart_first hc).not_inside hk)

/-- **A bracket is left.** -/
theorem leaf (h : Sorting n (b :: pending) leaves key) (hmoves : Moves b key key') :
    Sorting n pending (b :: leaves) key' := by
  have hsub : ∀ c ∈ pending ++ b :: leaves, c ∈ b :: (pending ++ leaves) := fun c hc =>
    List.perm_middle.mem_iff.1 hc
  refine ⟨fun c hc => h.within c (hsub c hc), ?_, ?_⟩
  · exact (List.perm_middle.pairwise_iff fun h => h.symm).2 h.apart
  · have hreplace : Settled n ([b] ++ (pending ++ leaves)) key' := h.settled.replace
      (h.within b List.mem_cons_self).2 (fun c hc => h.apart_first hc) hmoves
      fun p q hp hpq hq => .inr ⟨b, List.mem_singleton_self b, hp, hq⟩
    intro p q hpq hq
    refine (hreplace p q hpq hq).imp_right ?_
    rintro ⟨c, hc, hin⟩
    exact ⟨c, List.perm_middle.mem_iff.2 hc, hin⟩

/-- **A bracket is split.** -/
theorem split (h : Sorting n (b :: pending) leaves key) (hmoves : Moves b key key')
    (hcd : Apart c d) (hc : b.1 ≤ c.1 ∧ c.1 ≤ c.2 ∧ c.2 ≤ b.2)
    (hd : b.1 ≤ d.1 ∧ d.1 ≤ d.2 ∧ d.2 ≤ b.2)
    (hordered : ∀ p q, b.1 ≤ p → p < q → q ≤ b.2 →
      key' p ≤ key' q ∨ ∃ e ∈ [c, d], e.1 ≤ p ∧ q ≤ e.2) :
    Sorting n (c :: d :: pending) leaves key' := by
  have hb := h.within b List.mem_cons_self
  refine ⟨?_, ?_, h.settled.replace hb.2 (fun e he => h.apart_first he) hmoves hordered⟩
  · intro e he
    obtain rfl | rfl | he := by simpa only [List.cons_append, List.mem_cons] using he
    · exact ⟨hc.2.1, by omega⟩
    · exact ⟨hd.2.1, by omega⟩
    · exact h.within e (List.mem_cons_of_mem b he)
  · rw [List.cons_append, List.cons_append, List.pairwise_cons, List.pairwise_cons]
    refine ⟨?_, fun e he => (h.apart_first he).part hd.1 hd.2.2, (List.pairwise_cons.1 h.apart).2⟩
    intro e he
    obtain rfl | he := List.mem_cons.1 he
    · exact hcd
    · exact (h.apart_first he).part hc.1 hc.2.2

/-- **Nothing is left to do.** -/
theorem done (h : Sorting n [] leaves key) :
    OrderedOn (0, n - 1) key ↔ ∀ b ∈ leaves, OrderedOn b key := by
  constructor
  · intro hall b hb p q hp hpq hq
    have hwithin := (h.within b hb).2
    exact hall p q (Nat.zero_le p) hpq (by simp only; omega)
  · intro hleaves p q _ hpq hq
    simp only at hq
    obtain hle | ⟨b, hb, hp, hqb⟩ := h.settled p q hpq (by omega)
    · exact hle
    · exact hleaves b hb p q hp hpq hqb

end Sorting

/-! ### How many brackets are left -/

/-- The list of the brackets at hand is so short that each one in it could be twice as wide for
each bracket behind it. -/
def Shallow (n : ℕ) : List Bracket → Prop
  | [] => True
  | b :: bs => width b * 2 ^ bs.length ≤ n ∧ Shallow n bs

/-- The smaller part comes first. -/
theorem Shallow.split (h : Shallow n (b :: bs)) (hsum : width c + width d ≤ width b)
    (hle : width c ≤ width d) : Shallow n (c :: d :: bs) := by
  obtain ⟨hb, hbs⟩ := h
  have hd : width d * 2 ^ bs.length ≤ width b * 2 ^ bs.length :=
    Nat.mul_le_mul_right _ (by omega)
  have hc : width c * 2 ^ (bs.length + 1) ≤ width b * 2 ^ bs.length := by
    calc width c * 2 ^ (bs.length + 1)
        = (2 * width c) * 2 ^ bs.length := by ring
      _ ≤ width b * 2 ^ bs.length := Nat.mul_le_mul_right _ (by omega)
  exact ⟨hc.trans hb, hd.trans hb, hbs⟩

/-- The number of positions in the brackets at hand. -/
def total (bs : List Bracket) : ℕ :=
  (bs.map width).sum

theorem total_cons : total (b :: bs) = width b + total bs := by
  rw [total, List.map_cons, List.sum_cons]
  rfl

end

end Brackets
