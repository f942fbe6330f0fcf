import Jozabad.Broker.IndexSort
import Jozabad.Lib.Hoare

/-!
# The partitioning of `qisort`

`partition` splits a bracket of at least three positions into two parts. The two scans stop within
the bracket, as the strings that `sort3` leaves at its ends stop them (`exchangeRound_spec`), and
when they have crossed no string below the crossing is above one behind it. What becomes of the
strings of the bracket is Hoare's partitioning of their list (`partition_spec`).
-/

namespace Jozabad
namespace Broker

open Brackets Rearrange Hoare

variable {arr : List CString} {indx indx' : List ℕ} {i i' j j' k left right : ℕ} {val : CString}
  {b : Bracket}

/-! ### The strings of a bracket -/

/-- The strings at the positions of a bracket, in this order. -/
def slice (arr : List CString) (indx : List ℕ) (b : Bracket) : List CString :=
  (List.range (width b)).map fun k => name arr indx (b.1 + k)

theorem length_slice : (slice arr indx b).length = width b := by
  rw [slice, List.length_map, List.length_range]

theorem getElem_slice (hk : k < (slice arr indx b).length) :
    (slice arr indx b)[k] = name arr indx (b.1 + k) := by
  simp only [slice, List.getElem_map, List.getElem_range]

theorem mem_slice {s : CString} :
    s ∈ slice arr indx b ↔ ∃ k, Inside b k ∧ name arr indx k = s := by
  rw [slice, List.mem_map]
  constructor
  · rintro ⟨k, hk, rfl⟩
    rw [List.mem_range, width] at hk
    exact ⟨b.1 + k, ⟨by omega, by omega⟩, rfl⟩
  · rintro ⟨k, hk, rfl⟩
    refine ⟨k - b.1, ?_, congrArg (name arr indx) (Nat.add_sub_cancel' hk.1)⟩
    rw [List.mem_range, width]
    unfold Inside at hk
    omega

theorem entry_slice_add (hk : b.1 + k ≤ b.2) :
    entry (slice arr indx b) k = name arr indx (b.1 + k) := by
  have hlt : k < (slice arr indx b).length := by
    rw [length_slice, width]
    omega
  rw [entry, List.getD_eq_getElem _ _ hlt, getElem_slice]

theorem entry_slice (h : Inside b i) : entry (slice arr indx b) (i - b.1) = name arr indx i := by
  have hi : b.1 + (i - b.1) = i := Nat.add_sub_cancel' h.1
  rw [entry_slice_add (hi.trans_le h.2), hi]

/-- The strings of a bracket depend on the elements there. -/
theorem slice_congr (h : ∀ k, Inside b k → name arr indx' k = name arr indx k) :
    slice arr indx' b = slice arr indx b := by
  refine List.map_congr_left fun k hk => h _ ?_
  rw [List.mem_range, width] at hk
  unfold Inside
  omega

/-- An exchange of two elements is one of their strings. -/
theorem slice_swapped (hi : Inside b i) (hj : Inside b j) (hb : b.2 < indx.length) :
    slice arr (swapped indx i j 0) b = exchanged (slice arr indx b) (i - b.1) (j - b.1) := by
  have hname (k : ℕ) := name_swapped arr k (hi.2.trans_lt hb) (hj.2.trans_lt hb)
  have hi' : i - b.1 < (slice arr indx b).length := by
    rw [length_slice, width]
    unfold Inside at hi
    omega
  have hj' : j - b.1 < (slice arr indx b).length := by
    rw [length_slice, width]
    unfold Inside at hj
    omega
  refine List.ext_getElem ?_ fun k hk hk' => ?_
  · rw [exchanged, length_swapped, length_slice, length_slice]
  · rw [getElem_slice, hname, ← List.getD_eq_getElem _ default hk', exchanged,
      getD_swapped hi' hj']
    have hpos {m : ℕ} (hm : Inside b m) : b.1 + k = m ↔ k = m - b.1 := by
      unfold Inside at hm
      omega
    simp only [hpos hi, hpos hj]
    split_ifs
    · exact (entry_slice hi).symm
    · exact (entry_slice hj).symm
    · rw [exchanged, length_swapped] at hk'
      rw [List.getD_eq_getElem _ _ hk', getElem_slice]

/-- Two elements in order are two strings in order. -/
theorem slice_ordered (hi : Inside b i) (hj : Inside b j) (hb : b.2 < indx.length) :
    slice arr (ordered arr indx i j) b =
      Hoare.ordered (slice arr indx b) (i - b.1) (j - b.1) := by
  unfold ordered Hoare.ordered
  rw [entry_slice hi, entry_slice hj]
  split_ifs
  · exact slice_swapped hi hj hb
  · rfl

/-- The strings of the first part of a bracket. -/
theorem slice_take (hj : left < j) (hright : j ≤ right) :
    (slice arr indx (left, right)).take (j - left) = slice arr indx (left, j - 1) := by
  have hmin : min (j - left) (width (left, right)) = width (left, j - 1) := by
    rw [width, width]
    simp only
    omega
  rw [slice, ← List.map_take, List.take_range, hmin]
  rfl

/-- The strings of the last part of a bracket. -/
theorem slice_drop (hleft : left ≤ i) (hright : i ≤ right) :
    (slice arr indx (left, right)).drop (i - left) = slice arr indx (i, right) := by
  refine List.ext_getElem ?_ fun k hk hk' => ?_
  · rw [List.length_drop, length_slice, length_slice, width, width]
    simp only
    omega
  · rw [List.getElem_drop, getElem_slice, getElem_slice]
    exact congrArg (name arr indx) (by simp only; omega)

theorem stopsUp_slice (h : StopsUp (name arr indx) val i i') (hi : b.1 ≤ i) (hi' : i' ≤ b.2) :
    StopsUp (entry (slice arr indx b)) val (i - b.1) (i' - b.1) := by
  have hlt := h.lt
  refine ⟨by omega, ?_, fun k hk hk' => ?_⟩
  · rw [entry_slice ⟨by omega, hi'⟩]
    exact h.stop
  · rw [entry_slice_add (by omega)]
    exact h.below _ (by omega) (by omega)

theorem stopsDown_slice (h : StopsDown (name arr indx) val j j') (hj : j ≤ b.2)
    (hj' : b.1 ≤ j') : StopsDown (entry (slice arr indx b)) val (j - b.1) (j' - b.1) := by
  have hlt := h.lt
  refine ⟨by omega, ?_, fun k hk hk' => ?_⟩
  · rw [entry_slice ⟨hj', by omega⟩]
    exact h.stop
  · rw [entry_slice_add (by omega)]
    exact h.above _ (by omega) (by omega)

/-! ### The scans -/

/-- **The scan up** stops at the latest where a string is not below the target. -/
theorem scanUp_spec {m : ℕ} (hindx : Indexes arr indx) (him : i < m) (hm : m < indx.length)
    (hval : val ≤ name arr indx m) :
    ∃ i', scanUp arr indx val i = .ok i' ∧ StopsUp (name arr indx) val i i' := by
  refine Loop.run_total (fun k => i ≤ k ∧ k < m ∧
    ∀ k', i < k' → k' ≤ k → name arr indx k' < val) (fun k => m - k) ?_
    ⟨le_rfl, him, fun k' hlt hle => absurd hlt hle.not_gt⟩ (by omega)
  rintro k ⟨hik, hkm, hbelow⟩
  have hname : nameAt arr indx (k + 1) = .ok (name arr indx (k + 1)) :=
    nameAt_of_lt hindx (by omega)
  by_cases hlt : name arr indx (k + 1) < val
  · have hm' : k + 1 ≠ m := fun heq => absurd hlt (heq ▸ hval.not_gt)
    refine .inl ⟨k + 1, bind_of_eq_ok hname ?_, ⟨by omega, by omega, ?_⟩, by omega⟩
    · rw [if_pos (CString.strcmp_neg.2 hlt)]
      rfl
    · intro k' hlt' hle
      obtain rfl | hle := Nat.eq_or_lt_of_le hle
      · exact hlt
      · exact hbelow k' hlt' (Nat.le_of_lt_succ hle)
  · refine .inr ⟨k + 1, bind_of_eq_ok hname ?_, by omega, not_lt.1 hlt, ?_⟩
    · rw [if_neg fun hneg => hlt (CString.strcmp_neg.1 hneg)]
      rfl
    · exact fun k' hlt' hle => hbelow k' hlt' (Nat.le_of_lt_succ hle)

/-- **The scan down** stops at the latest where a string is not above the target. -/
theorem scanDown_spec {m : ℕ} (hindx : Indexes arr indx) (hmj : m < j) (hj : j ≤ indx.length)
    (hval : name arr indx m ≤ val) :
    ∃ j', scanDown arr indx val j = .ok j' ∧ StopsDown (name arr indx) val j j' := by
  refine Loop.run_total (fun k => m < k ∧ k ≤ j ∧
    ∀ k', k ≤ k' → k' < j → val < name arr indx k') (fun k => k) ?_
    ⟨hmj, le_rfl, fun k' hle hlt => absurd hlt hle.not_gt⟩ (by omega)
  rintro k ⟨hmk, hkj, habove⟩
  have hname : nameAt arr indx (k - 1) = .ok (name arr indx (k - 1)) :=
    nameAt_of_lt hindx (by omega)
  simp only [sizeSub_of_le (by omega : 1 ≤ k)]
  by_cases hlt : val < name arr indx (k - 1)
  · have hm' : k - 1 ≠ m := fun heq => absurd hlt (heq ▸ hval.not_gt)
    refine .inl ⟨k - 1, bind_of_eq_ok hname ?_, ⟨by omega, by omega, ?_⟩, by omega⟩
    · rw [if_pos (CString.strcmp_pos.2 hlt)]
      rfl
    · intro k' hle hlt'
      obtain rfl | hle := Nat.eq_or_lt_of_le hle
      · exact hlt
      · exact habove k' (by omega) hlt'
  · refine .inr ⟨k - 1, bind_of_eq_ok hname ?_, by omega, not_lt.1 hlt, ?_⟩
    · rw [if_neg fun hpos => hlt (CString.strcmp_pos.1 hpos)]
      rfl
    · exact fun k' hle hlt' => habove k' (by omega) hlt'

/-! ### The exchanges -/

/-- The state between two rounds: the scans have not crossed, and no string they have passed is on
the wrong side. -/
structure Exchanging (arr : List CString) (val : CString) (left right : ℕ) (indx : List ℕ)
    (i j : ℕ) : Prop where
  indexes : Indexes arr indx
  within : right < indx.length
  up : left + 1 ≤ i ∧ i < right
  down : left + 2 ≤ j ∧ j ≤ right
  uncrossed : i ≤ j
  pivot : name arr indx (left + 1) = val
  low : ∀ k, left ≤ k → k ≤ i → name arr indx k ≤ val
  high : ∀ k, j ≤ k → k ≤ right → val ≤ name arr indx k

/-- The state after the last round. -/
structure Crossed (arr : List CString) (val : CString) (left right : ℕ) (indx : List ℕ)
    (i j : ℕ) : Prop where
  bounds : left + 1 ≤ j ∧ j < i ∧ i ≤ right
  pivot : name arr indx (left + 1) = val
  low : ∀ k, left ≤ k → k < i → name arr indx k ≤ val
  high : ∀ k, j < k → k ≤ right → val ≤ name arr indx k

namespace Exchanging

/-- Where the scans stop. -/
theorem scans (h : Exchanging arr val left right indx i j) :
    ∃ i' j', scanUp arr indx val i = .ok i' ∧ scanDown arr indx val j = .ok j' ∧
      StopsUp (name arr indx) val i i' ∧ StopsDown (name arr indx) val j j' ∧
      i' ≤ right ∧ left + 1 ≤ j' := by
  have hup := h.up
  have hdown := h.down
  have hwithin := h.within
  have hcross := h.uncrossed
  -- The strings behind `j` stop the scan up, and those in front of `i` the scan down.
  have hstop : val ≤ name arr indx (max (i + 1) j) := h.high _ (by omega) (by omega)
  have hstop' : name arr indx (min (j - 1) i) ≤ val := h.low _ (by omega) (by omega)
  obtain ⟨i', hi, hstops⟩ := scanUp_spec h.indexes (by omega : i < max (i + 1) j) (by omega) hstop
  obtain ⟨j', hj, hstops'⟩ :=
    scanDown_spec h.indexes (by omega : min (j - 1) i < j) (by omega) hstop'
  have hle := hstops.le_of_le (by omega) hstop
  have hle' := hstops'.le_of_le (by omega) hstop'
  exact ⟨i', j', hi, hj, hstops, hstops', by omega, by omega⟩

/-- The scans have crossed. -/
theorem crossed (h : Exchanging arr val left right indx i j) (hi : StopsUp (name arr indx) val i i')
    (hj : StopsDown (name arr indx) val j j') (hright : i' ≤ right) (hleft : left + 1 ≤ j')
    (hlt : j' < i') : Crossed arr val left right indx i' j' where
  bounds := ⟨hleft, hlt, hright⟩
  pivot := h.pivot
  low k hk hki := by
    obtain hle | hgt := le_or_gt k i
    · exact h.low k hk hle
    · exact (hi.below k hgt hki).le
  high k hjk hk := by
    obtain hle | hgt := le_or_gt j k
    · exact h.high k hle hk
    · exact (hj.above k hjk hgt).le

/-- The two strings at which the scans have stopped are exchanged. -/
theorem swap (h : Exchanging arr val left right indx i j) (hi : StopsUp (name arr indx) val i i')
    (hj : StopsDown (name arr indx) val j j') (hle : i' ≤ j') :
    Exchanging arr val left right (swapped indx i' j' 0) i' j' := by
  have hup := h.up
  have hdown := h.down
  have hwithin := h.within
  have hlt := hi.lt
  have hlt' := hj.lt
  have hi' : i' < indx.length := by omega
  have hj' : j' < indx.length := by omega
  have hname (k : ℕ) := name_swapped arr k hi' hj'
  have hr : Rearranges left (right + 1) indx (swapped indx i' j' 0) :=
    swapped_rearranges hi' hj' (by omega) (by omega) (by omega) (by omega)
  refine ⟨h.indexes.rearranges hr, by rwa [hr.length_eq], by omega, by omega, hle, ?_, ?_, ?_⟩
  · rw [hname, if_neg (by omega), if_neg (by omega), h.pivot]
  · intro k hk hki
    rw [hname]
    split_ifs with hkj hki'
    · -- Both scans have stopped at one string.
      rw [(by omega : i' = j')]
      exact hj.stop
    · exact hj.stop
    · obtain hle | hgt := le_or_gt k i
      · exact h.low k hk hle
      · exact (hi.below k hgt (by omega)).le
  · intro k hjk hk
    rw [hname]
    split_ifs with hkj hki
    · exact hi.stop
    · rw [(by omega : j' = i')]
      exact hi.stop
    · obtain hle | hgt := le_or_gt j k
      · exact h.high k hle hk
      · exact (hj.above k (by omega) hgt).le

end Exchanging

/-- **One round** of the partitioning. -/
theorem exchangeRound_spec (h : Exchanging arr val left right indx i j) :
    ∃ i' j', StopsUp (name arr indx) val i i' ∧ StopsDown (name arr indx) val j j' ∧
      i' ≤ right ∧ left + 1 ≤ j' ∧
      ((i' ≤ j' ∧
          exchangeRound arr val (indx, i, j) = .ok (.next (swapped indx i' j' 0, i', j')) ∧
          Exchanging arr val left right (swapped indx i' j' 0) i' j') ∨
        (j' < i' ∧ exchangeRound arr val (indx, i, j) = .ok (.done (indx, i', j')) ∧
          Crossed arr val left right indx i' j')) := by
  obtain ⟨i', j', hup, hdown, hi, hj, hright, hleft⟩ := h.scans
  have hwithin := h.within
  refine ⟨i', j', hi, hj, hright, hleft, ?_⟩
  obtain hle | hlt := le_or_gt i' j'
  · refine .inl ⟨hle, bind_of_eq_ok hup (bind_of_eq_ok hdown ?_), h.swap hi hj hle⟩
    rw [if_neg hle.not_gt]
    exact bind_of_eq_ok (swapAt_of_lt (by omega) (by have := hj.lt; have := h.down; omega)) rfl
  · refine .inr ⟨hlt, bind_of_eq_ok hup (bind_of_eq_ok hdown ?_), h.crossed hi hj hright hleft hlt⟩
    rw [if_pos hlt]
    rfl

/-! ### The whole of it -/

/-- The index array before the first round. -/
def prepared (arr : List CString) (indx : List ℕ) (left right : ℕ) : List ℕ :=
  sorted3 arr (swapped indx ((left + right) / 2) (left + 1) 0) left (left + 1) right

/-- The parts of a bracket: no string in front of `i` is above the one at `j`, and none from `j`
on is below it. -/
structure Partitioned (arr : List CString) (indx : List ℕ) (left right i j : ℕ) : Prop where
  bounds : left + 1 ≤ j ∧ j < i ∧ i ≤ right
  low : ∀ k, left ≤ k → k < i → name arr indx k ≤ name arr indx j
  high : ∀ k, j ≤ k → k ≤ right → name arr indx j ≤ name arr indx k

/-- The target goes to the crossing. -/
theorem Crossed.partitioned (h : Crossed arr val left right indx i j)
    (hright : right < indx.length) :
    Partitioned arr (swapped indx (left + 1) j 0) left right i j := by
  have hbounds := h.bounds
  have hname (k : ℕ) := name_swapped arr k (by omega : left + 1 < indx.length)
    (by omega : j < indx.length)
  have hj : name arr (swapped indx (left + 1) j 0) j = val := by
    rw [hname, if_pos rfl, h.pivot]
  -- The string that was at `j` is not above the target, and `left + 1` is in front of `j`.
  refine ⟨hbounds, fun k hk hki => ?_, fun k hjk hk => ?_⟩
  · rw [hj, hname]
    split_ifs
    · exact h.pivot.le
    · exact h.low j (by omega) hbounds.2.1
    · exact h.low k hk hki
  · rw [hj, hname]
    split_ifs with hkj hkleft
    · exact h.pivot.ge
    · omega
    · exact h.high k (by omega) hk

/-- The three elements that are looked at first. -/
theorem prepared_spec (hlt : left + 1 < right) (hright : right < indx.length)
    (hindx : Indexes arr indx) :
    sort3 arr (swapped indx ((left + right) / 2) (left + 1) 0) left (left + 1) right =
        .ok (prepared arr indx left right) ∧
      Rearranges left (right + 1) indx (prepared arr indx left right) ∧
      Exchanging arr (name arr (prepared arr indx left right) (left + 1)) left right
        (prepared arr indx left right) (left + 1) right := by
  have hcenter : (left + right) / 2 < indx.length := by omega
  have hnext : left + 1 < indx.length := by omega
  have hswap : Rearranges left (right + 1) indx (swapped indx ((left + right) / 2) (left + 1) 0) :=
    swapped_rearranges hcenter hnext (by omega) (by omega) (by omega) (by omega)
  obtain ⟨hsort, hr, hlow, hhigh⟩ := sort3_spec (hindx.rearranges hswap) (Nat.lt_add_one left)
    hlt (by rwa [hswap.length_eq]) (le_refl left) (Nat.lt_add_one right)
  have hall : Rearranges left (right + 1) indx (prepared arr indx left right) := hswap.trans hr
  refine ⟨hsort, hall, ?_⟩
  refine ⟨hindx.rearranges hall, by rwa [hall.length_eq], by omega, by omega, hlt.le, rfl, ?_, ?_⟩
  · intro k hk hki
    obtain heq | hlt' := Nat.eq_or_lt_of_le hki
    · rw [heq]
    · rw [(by omega : k = left)]
      exact hlow
  · intro k hjk hk
    rw [(by omega : k = right)]
    exact hhigh

/-- The choice of the target, for the strings of the bracket. -/
theorem slice_prepared (hlt : left + 1 < right) (hright : right < indx.length) :
    slice arr (prepared arr indx left right) (left, right) =
      Hoare.prepared (slice arr indx (left, right)) := by
  have hlast : (slice arr indx (left, right)).length - 1 = right - left := by
    rw [length_slice, width]
    simp only
    omega
  have hcenter : (left + right) / 2 - left = (right - left) / 2 := by omega
  have hlength : (swapped indx ((left + right) / 2) (left + 1) 0).length = indx.length :=
    length_swapped
  have hfirst : Inside (left, right) left := ⟨le_rfl, by omega⟩
  have hsecond : Inside (left, right) (left + 1) := ⟨by omega, hlt.le⟩
  have hthird : Inside (left, right) right := ⟨by omega, le_rfl⟩
  have hmiddle : Inside (left, right) ((left + right) / 2) := ⟨by omega, by omega⟩
  rw [prepared, sorted3, slice_ordered hfirst hsecond (by rwa [length_ordered, length_ordered,
    hlength]), slice_ordered hsecond hthird (by rwa [length_ordered, hlength]),
    slice_ordered hfirst hthird (by rwa [hlength]), slice_swapped hmiddle hsecond hright,
    Hoare.prepared, hlast]
  simp only [hcenter, Nat.sub_self, Nat.add_sub_cancel_left]

/-- **The rounds** of the partitioning. They leave the element that holds the target, and exchange
the strings of the bracket. -/
theorem exchange_run (h : Exchanging arr val left right indx i j) :
    ∃ s, Loop.run (exchangeRound arr val) .diverged (indx.length + 1) (indx, i, j) = .ok s ∧
      Rearranges left (right + 1) indx s.1 ∧ s.1.getD (left + 1) 0 = indx.getD (left + 1) 0 ∧
      Crossed arr val left right s.1 s.2.1 s.2.2 ∧
      Exchanges val (slice arr indx (left, right)) (i - left) (j - left)
        (slice arr s.1 (left, right)) (s.2.1 - left) (s.2.2 - left) := by
  have hfuel : j < indx.length + 1 := by
    have hdown := h.down
    have hwithin := h.within
    omega
  -- What the exchanges still come to from here on, they come to from the start.
  refine Loop.run_total (fun s => Rearranges left (right + 1) indx s.1 ∧
    s.1.getD (left + 1) 0 = indx.getD (left + 1) 0 ∧
    Exchanging arr val left right s.1 s.2.1 s.2.2 ∧
    ∀ l p q, Exchanges val (slice arr s.1 (left, right)) (s.2.1 - left) (s.2.2 - left) l p q →
      Exchanges val (slice arr indx (left, right)) (i - left) (j - left) l p q)
    (fun s => s.2.2) ?_ ⟨.refl indx, rfl, h, fun _ _ _ hrest => hrest⟩ hfuel
  rintro ⟨indx₁, i, j⟩ ⟨hr, hpivot, h, hrest⟩
  dsimp only at hr hpivot h hrest
  have hwithin := h.within
  have hup := h.up
  have hdown := h.down
  obtain ⟨i', j', hi, hj, hi', hj', hround⟩ := exchangeRound_spec h
  have hlti := hi.lt
  have hltj := hj.lt
  have hslice := stopsUp_slice (b := (left, right)) hi (by simp only; omega) hi'
  have hslice' := stopsDown_slice (b := (left, right)) hj hdown.2 (by simp only; omega)
  obtain ⟨hle, hround, h'⟩ | ⟨hlt, hround, h'⟩ := hround
  · -- Both scans have gone past the target.
    refine .inl ⟨_, hround, ⟨hr.trans ?_, ?_, h', fun l p q hnext => hrest l p q ?_⟩, hj.lt⟩
    · exact swapped_rearranges (by omega) (by omega) (by omega) (by omega) (by omega) (by omega)
    · rw [getD_swapped (by omega) (by omega), if_neg (by omega), if_neg (by omega), hpivot]
    · rw [slice_swapped ⟨by simp only; omega, by simp only; omega⟩
        ⟨by simp only; omega, by simp only; omega⟩ hwithin] at hnext
      exact .exchange hslice hslice' (by simp only; omega) hnext
  · refine .inr ⟨_, hround, hr, hpivot, h', hrest _ _ _ (.crossed hslice hslice' ?_)⟩
    simp only
    omega

/-- **`partition`** rearranges the bracket, and splits its strings. -/
theorem partition_spec (hlt : left + 1 < right) (hright : right < indx.length)
    (hindx : Indexes arr indx) :
    ∃ indx' i j, partition arr indx left right = .ok (indx', i, j) ∧
      Rearranges left (right + 1) indx indx' ∧ Partitioned arr indx' left right i j ∧
      Splits (slice arr indx (left, right)) (slice arr indx' (left, j - 1))
        (slice arr indx' (i, right)) := by
  obtain ⟨hstart, hr, hexchanging⟩ := prepared_spec hlt hright hindx
  obtain ⟨⟨indx', i, j⟩, hrun, hr', hpivot, hcrossed, hexchanges⟩ := exchange_run hexchanging
  have hlength : indx'.length = indx.length := (hr.trans hr').length_eq
  have hbounds := hcrossed.bounds
  simp only at hr' hpivot hbounds hexchanges hcrossed
  refine ⟨swapped indx' (left + 1) j 0, i, j, ?_, (hr.trans hr').trans ?_,
    hcrossed.partitioned (by rwa [hlength]), ?_⟩
  · refine bind_of_eq_ok (swapAt_of_lt (by omega) (by omega)) (bind_of_eq_ok hstart ?_)
    refine bind_of_eq_ok (readAt_of_lt (by rw [hr.length_eq]; omega)) (bind_of_eq_ok
      (readAt_name hexchanging.indexes (by rw [hr.length_eq]; omega)) (bind_of_eq_ok hrun ?_))
    refine bind_of_eq_ok (readAt_of_lt (by omega)) (bind_of_eq_ok (writeAt_of_lt (by omega))
      (bind_of_eq_ok (writeAt_of_lt (by rw [List.length_set]; omega)) ?_))
    rw [swapped, hpivot]
    rfl
  · exact swapped_rearranges (by omega) (by omega) (by omega) (by omega) (by omega) (by omega)
  · have hsecond : Inside (left, right) (left + 1) := ⟨by omega, hlt.le⟩
    have hswapped : slice arr (swapped indx' (left + 1) j 0) (left, right) =
        exchanged (slice arr indx' (left, right)) 1 (j - left) := by
      rw [slice_swapped hsecond ⟨by simp only; omega, by simp only; omega⟩ (by rwa [hlength])]
      simp only [Nat.add_sub_cancel_left]
    have htarget : entry (slice arr (prepared arr indx left right) (left, right)) 1 =
        name arr (prepared arr indx left right) (left + 1) :=
      entry_slice_add hlt.le
    have hlast : (slice arr indx (left, right)).length - 1 = right - left := by
      rw [length_slice, width]
      simp only
      omega
    have hfirst : (exchanged (slice arr indx' (left, right)) 1 (j - left)).take (j - left) =
        slice arr (swapped indx' (left + 1) j 0) (left, j - 1) := by
      rw [← hswapped, slice_take (by omega) (by omega)]
    have hrest : (exchanged (slice arr indx' (left, right)) 1 (j - left)).drop (i - left) =
        slice arr (swapped indx' (left + 1) j 0) (i, right) := by
      rw [← hswapped, slice_drop (by omega) (by omega)]
    rw [← hfirst, ← hrest]
    refine .mk ?_
    rw [← slice_prepared hlt hright, htarget, hlast]
    rwa [Nat.add_sub_cancel_left] at hexchanges

end Broker
end Jozabad
