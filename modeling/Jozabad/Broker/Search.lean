import Jozabad.Lib.Cut
import Jozabad.Lib.Loop
import Jozabad.Memory

/-!
# The search in an ordered array (`ifind` in `lib.c`)

The search keeps two positions. All elements in front of `lo` are below `X`, and none from `hi`
on is. It stops when `hi` comes right after `lo`, and the element at `lo` decides.

`ifind_cut`: the result is the place of `X` in the array.
-/

namespace Jozabad
namespace Broker

/-- One round of the search. -/
def ifindRound (arr : List UInt32) (X : UInt32) :
    ℕ × ℕ → Except Fault (Loop.Round (ℕ × ℕ) (ℕ × ℕ))
  | (lo, hi) =>
    if sizeSub hi lo > 1 then do
      let mid := (hi + lo) / 2
      if X ≥ (← readAt arr mid) then return .next (mid, hi) else return .next (lo, mid)
    else return .done (lo, hi)

/-- Search an array of length `n` of strictly increasing integers. Return the location of `X`,
or the one where it would be inserted. No search takes more than `n` rounds. -/
def ifind (arr : List UInt32) (n : ℕ) (X : UInt32) : Except Fault ℕ := do
  let (lo, hi) ← Loop.run (ifindRound arr X) .diverged (n + 1) (0, n)
  if X ≤ (← readAt arr lo) then return lo else return hi

/-- Where the search has come to. -/
structure Between (arr : List UInt32) (X : UInt32) (bracket : ℕ × ℕ) : Prop where
  lt : bracket.1 < bracket.2
  le : bracket.2 ≤ arr.length
  below : ∀ a ∈ arr.take bracket.1, a < X
  above : ∀ a ∈ arr.drop bracket.2, ¬ a < X

variable {arr : List UInt32} {X a : UInt32} {lo hi mid : ℕ}

/-- In an increasing array the elements in front of a position are below the one there. -/
theorem lt_of_mem_take (hsorted : arr.Pairwise (· < ·)) (ha : arr[mid]? = some a) :
    ∀ b ∈ arr.take mid, b < a := by
  obtain ⟨hmid, rfl⟩ := List.getElem?_eq_some_iff.1 ha
  intro b hb
  obtain ⟨k, hk, rfl⟩ := List.mem_take_iff_getElem.1 hb
  exact List.pairwise_iff_getElem.1 hsorted k mid (by omega) hmid (by omega)

/-- The elements behind it are not. -/
theorem le_of_mem_drop (hsorted : arr.Pairwise (· < ·)) (ha : arr[mid]? = some a) :
    ∀ b ∈ arr.drop mid, ¬ b < a := by
  obtain ⟨hmid, rfl⟩ := List.getElem?_eq_some_iff.1 ha
  intro b hb
  obtain ⟨k, hk, rfl⟩ := List.mem_drop_iff_getElem.1 hb
  rw [UInt32.not_lt]
  obtain rfl | hpos := Nat.eq_zero_or_pos k
  · exact UInt32.le_refl _
  · exact UInt32.le_of_lt (List.pairwise_iff_getElem.1 hsorted mid (mid + k) hmid (by omega)
      (by omega))

/-- **One round** halves the bracket, or leaves it where nothing is in between. -/
theorem ifindRound_spec (hsorted : arr.Pairwise (· < ·)) (h : Between arr X (lo, hi)) :
    (∃ next, ifindRound arr X (lo, hi) = .ok (.next next) ∧ Between arr X next ∧
      next.2 - next.1 < hi - lo) ∨
    ifindRound arr X (lo, hi) = .ok (.done (lo, hi)) ∧ hi = lo + 1 := by
  obtain ⟨hlt, hle, hbelow, habove⟩ := h
  simp only at hlt hle hbelow habove
  by_cases hwide : hi - lo > 1
  · have hmid : (hi + lo) / 2 < arr.length := by omega
    have hget := List.getElem?_eq_getElem hmid
    refine .inl ?_
    simp only [ifindRound, sizeSub_of_le hlt.le, if_pos hwide, readAt_of_eq hget]
    by_cases hX : X ≥ arr[(hi + lo) / 2]
    · refine ⟨((hi + lo) / 2, hi), if_pos hX, ⟨by simp only; omega, hle, ?_, habove⟩,
        by simp only; omega⟩
      intro b hb
      exact UInt32.lt_of_lt_of_le (lt_of_mem_take hsorted hget b hb) hX
    · refine ⟨(lo, (hi + lo) / 2), if_neg hX, ⟨by simp only; omega, by simp only; omega, hbelow,
        ?_⟩, by simp only; omega⟩
      intro b hb hbX
      exact le_of_mem_drop hsorted hget b hb
        (UInt32.lt_trans hbX (UInt32.not_le.1 hX))
  · refine .inr ⟨?_, by omega⟩
    simp only [ifindRound, sizeSub_of_le hlt.le, if_neg hwide]
    rfl

/-- **The search** ends, stays within the array, and finds the place of `X`. -/
theorem ifind_cut (hne : 1 ≤ arr.length) (hsorted : arr.Pairwise (· < ·)) :
    ∃ i, ifind arr arr.length X = .ok i ∧ Cut (· < ·) arr X i := by
  have hstart : Between arr X (0, arr.length) :=
    ⟨hne, le_rfl, by simp, by simp⟩
  obtain ⟨⟨lo, hi⟩, hrun, hbetween, hhi⟩ : ∃ b, Loop.run (ifindRound arr X) .diverged
      (arr.length + 1) (0, arr.length) = .ok b ∧ Between arr X b ∧ b.2 = b.1 + 1 := by
    refine Loop.run_total (Between arr X) (fun s => s.2 - s.1) ?_ hstart (by simp)
    rintro ⟨lo, hi⟩ hinv
    obtain hnext | ⟨hdone, hhi⟩ := ifindRound_spec hsorted hinv
    · exact .inl hnext
    · exact .inr ⟨_, hdone, hinv, hhi⟩
  obtain ⟨hlt, hle, hbelow, habove⟩ := hbetween
  obtain rfl : hi = lo + 1 := hhi
  have hlo : lo < arr.length := by simp only at hle; omega
  have hget := List.getElem?_eq_getElem hlo
  simp only at hbelow habove
  have hdrop : arr.drop lo = arr[lo] :: arr.drop (lo + 1) := List.drop_eq_getElem_cons hlo
  have htake : arr.take (lo + 1) = arr.take lo ++ [arr[lo]] := (List.take_append_getElem hlo).symm
  by_cases hX : X ≤ arr[lo]
  · refine ⟨lo, bind_of_eq_ok hrun (bind_of_eq_ok (readAt_of_eq hget) (if_pos hX)), hlo.le,
      hbelow, ?_⟩
    rw [hdrop]
    intro b hb
    obtain rfl | hb := List.mem_cons.1 hb
    · exact UInt32.not_lt.2 hX
    · exact habove b hb
  · refine ⟨lo + 1, bind_of_eq_ok hrun (bind_of_eq_ok (readAt_of_eq hget) (if_neg hX)), hlo, ?_,
      habove⟩
    rw [htake]
    intro b hb
    obtain hb | hb := List.mem_append.1 hb
    · exact hbelow b hb
    · obtain rfl := List.mem_singleton.1 hb
      exact UInt32.not_le.1 hX

/-- **`ifind` is a lower-bound search.** Its result is the number of the elements below `X`, which
is the position of `X` or the one where `X` is to be inserted. -/
theorem ifind_lowerBound (hne : 1 ≤ arr.length) (hsorted : arr.Pairwise (· < ·)) :
    ∃ i, ifind arr arr.length X = .ok i ∧ i = arr.countP (· < X) ∧
      (X ∈ arr → arr[i]? = some X) ∧
      (X ∉ arr → (arr.take i ++ X :: arr.drop i).Pairwise (· < ·)) := by
  obtain ⟨i, hfind, hcut⟩ := ifind_cut hne hsorted
  exact ⟨i, hfind, hcut.countP_eq.symm, hcut.get_eq hsorted, hcut.insert hsorted⟩

example : ifind [10, 20, 30] 3 35 = .ok 3 := by decide

/-- A value between two elements. -/
theorem ifind_lowerBound_three : ∃ i, ifind [10, 20, 30] 3 25 = .ok i ∧
    i = [10, 20, 30].countP (· < (25 : UInt32)) ∧
    ((25 : UInt32) ∈ [10, 20, 30] → [10, 20, 30][i]? = some (25 : UInt32)) ∧
    ((25 : UInt32) ∉ [10, 20, 30] →
      ([10, 20, 30].take i ++ (25 : UInt32) :: [10, 20, 30].drop i).Pairwise (· < ·)) :=
  ifind_lowerBound (by decide) (by decide)

end Broker
end Jozabad
