import Jozabad.Broker.Qisort
import Jozabad.Lib.Cut

/-!
# The search for a name (`namefind` in `lib.c`)

The strings are looked up through an index array that sorts them. The two ends of the search
are one further than the positions they stand for, so that a string below all others has the
result 0.

`namefind_cut`: the result is the number of the names that are not above `str`. An index array
that `qisort` has sorted is one to search with (`namefind_qisort`).
-/

namespace Jozabad
namespace Broker

/-- One round of the search. -/
def namefindRound (arr : List CString) (nidx : List ℕ) (str : CString) :
    ℕ × ℕ → Except Fault (Loop.Round (ℕ × ℕ) (ℕ × ℕ))
  | (lo, hi) =>
    if sizeSub hi lo > 1 then do
      let mid := (hi + lo) / 2
      if CString.strcmp str (← nameAt arr nidx (sizeSub mid 1)) ≥ 0 then return .next (mid, hi)
      else return .next (lo, mid)
    else return .done (lo, hi)

/-- Search `n` strings that an index array puts in order. No search takes more than `n + 1`
rounds. -/
def namefind (arr : List CString) (n : ℕ) (nidx : List ℕ) (str : CString) : Except Fault ℕ := do
  let (lo, _) ← Loop.run (namefindRound arr nidx str) .diverged (n + 2) (0, n + 1)
  return lo

variable {arr : List CString} {nidx indx : List ℕ} {str : CString} {lo hi : ℕ}

/-- The names in the order of the index array. -/
def names (arr : List CString) (nidx : List ℕ) : List CString :=
  nidx.map fun k => arr.getD k .empty

theorem length_names : (names arr nidx).length = nidx.length :=
  List.length_map _

/-- Where the search has come to: the names in front of `lo` are not above `str`, and those from
`hi` on, counted from one, are. -/
structure Surrounds (names : List CString) (str : CString) (ends : ℕ × ℕ) : Prop where
  lt : ends.1 < ends.2
  le : ends.2 ≤ names.length + 1
  below : ∀ s ∈ names.take ends.1, s ≤ str
  above : ∀ s ∈ names.drop (ends.2 - 1), ¬ s ≤ str

theorem nameAt_names (hindex : Indexes arr nidx) {k : ℕ} (hk : k < (names arr nidx).length) :
    nameAt arr nidx k = .ok (names arr nidx)[k] := by
  have hk' : k < nidx.length := length_names ▸ hk
  rw [nameAt_of_lt hindex hk', name, List.getD_eq_getElem _ _ hk']
  simp only [names, List.getElem_map]

/-- **One round** halves the bracket, or leaves it where nothing is in between. -/
theorem namefindRound_spec (hindex : Indexes arr nidx)
    (hsorted : (names arr nidx).Pairwise (· ≤ ·)) (h : Surrounds (names arr nidx) str (lo, hi)) :
    (∃ next, namefindRound arr nidx str (lo, hi) = .ok (.next next) ∧
      Surrounds (names arr nidx) str next ∧ next.2 - next.1 < hi - lo) ∨
    namefindRound arr nidx str (lo, hi) = .ok (.done (lo, hi)) ∧ hi = lo + 1 := by
  obtain ⟨hlt, hle, hbelow, habove⟩ := h
  simp only at hlt hle hbelow habove
  by_cases hwide : hi - lo > 1
  · have hpos : 1 ≤ (hi + lo) / 2 := by omega
    have hmid : (hi + lo) / 2 - 1 < (names arr nidx).length := by omega
    refine .inl ?_
    simp only [namefindRound, sizeSub_of_le hlt.le, if_pos hwide, sizeSub_of_le hpos,
      nameAt_names hindex hmid]
    by_cases hstr : (names arr nidx)[(hi + lo) / 2 - 1] ≤ str
    · -- All names up to the middle one are not above it.
      have hcmp : CString.strcmp str (names arr nidx)[(hi + lo) / 2 - 1] ≥ 0 := by
        rw [ge_iff_le, ← not_lt, CString.strcmp_neg, not_lt]
        exact hstr
      refine ⟨((hi + lo) / 2, hi), if_pos hcmp, ⟨by simp only; omega, hle, ?_, habove⟩,
        by simp only; omega⟩
      intro s hs
      obtain ⟨k, hk, rfl⟩ := List.mem_take_iff_getElem.1 hs
      simp only at hk
      refine le_trans ?_ hstr
      obtain rfl | hlt' := Nat.eq_or_lt_of_le (show k ≤ (hi + lo) / 2 - 1 by omega)
      · exact le_rfl
      · exact List.pairwise_iff_getElem.1 hsorted k _ (by omega) hmid hlt'
    · have hcmp : ¬ CString.strcmp str (names arr nidx)[(hi + lo) / 2 - 1] ≥ 0 := by
        rw [ge_iff_le, not_le, CString.strcmp_neg]
        exact not_le.1 hstr
      refine ⟨(lo, (hi + lo) / 2), if_neg hcmp, ⟨by simp only; omega, by simp only; omega, hbelow,
        ?_⟩, by simp only; omega⟩
      intro s hs hsle
      obtain ⟨k, hk, rfl⟩ := List.mem_drop_iff_getElem.1 hs
      simp only at hk
      refine hstr (le_trans ?_ hsle)
      obtain rfl | hpos' := Nat.eq_zero_or_pos k
      · exact le_rfl
      · exact List.pairwise_iff_getElem.1 hsorted _ _ hmid (by omega) (by omega)
  · refine .inr ⟨?_, by omega⟩
    simp only [namefindRound, sizeSub_of_le hlt.le, if_neg hwide]
    rfl

/-- **The search** ends, stays within the arrays, and finds the place behind the names that are
not above `str`. -/
theorem namefind_cut (hindex : Indexes arr nidx) (hlength : nidx.length = arr.length)
    (hsorted : (names arr nidx).Pairwise (· ≤ ·)) :
    ∃ i, namefind arr arr.length nidx str = .ok i ∧ Cut (· ≤ ·) (names arr nidx) str i := by
  have hnames : (names arr nidx).length = arr.length := length_names.trans hlength
  have hstart : Surrounds (names arr nidx) str (0, arr.length + 1) :=
    ⟨Nat.succ_pos _, by simp only; omega, by simp, by simp [← hnames]⟩
  obtain ⟨⟨lo, hi⟩, hrun, hends, hhi⟩ : ∃ b, Loop.run (namefindRound arr nidx str) .diverged
      (arr.length + 2) (0, arr.length + 1) = .ok b ∧ Surrounds (names arr nidx) str b ∧
        b.2 = b.1 + 1 := by
    refine Loop.run_total (Surrounds (names arr nidx) str) (fun s => s.2 - s.1) ?_ hstart (by simp)
    rintro ⟨lo, hi⟩ hinv
    obtain hnext | ⟨hdone, hhi⟩ := namefindRound_spec hindex hsorted hinv
    · exact .inl hnext
    · exact .inr ⟨_, hdone, hinv, hhi⟩
  obtain rfl : hi = lo + 1 := hhi
  obtain ⟨-, hle, hbelow, habove⟩ := hends
  simp only [Nat.add_sub_cancel] at hle hbelow habove
  exact ⟨lo, bind_of_eq_ok hrun rfl, Nat.le_of_succ_le_succ hle, hbelow, habove⟩

/-- An index array that is a permutation lists all the strings. -/
theorem names_perm (h : Permutes arr nidx) : (names arr nidx).Perm arr := by
  have hrange : (List.range arr.length).map (fun k => arr.getD k .empty) = arr := by
    refine List.ext_getElem (by simp) fun k hk hk' => ?_
    rw [List.getElem_map, List.getElem_range, List.getD_eq_getElem _ _ hk']
  have hnames : (names arr nidx).Perm ((List.range arr.length).map fun k => arr.getD k .empty) :=
    List.Perm.map _ h
  rwa [hrange] at hnames

/-- A name that is there is the last one that is not above it. -/
theorem get_of_cut {names : List CString} {i : ℕ} (h : Cut (· ≤ ·) names str i)
    (hsorted : names.Pairwise (· ≤ ·)) (hmem : str ∈ names) : 0 < i ∧ names[i - 1]? = some str := by
  -- It is not among the names that are above it.
  have htake : str ∈ names.take i := by
    rw [← List.take_append_drop i names, List.mem_append] at hmem
    exact hmem.resolve_right fun hdrop => h.above str hdrop le_rfl
  obtain ⟨k, hk, hget⟩ := List.mem_take_iff_getElem.1 htake
  have hle := h.le
  have hlast : i - 1 < names.length := by omega
  have hbelow : names[i - 1] ≤ str :=
    h.below _ (List.mem_take_iff_getElem.2 ⟨i - 1, by omega, rfl⟩)
  have habove : str ≤ names[i - 1] := by
    rw [← hget]
    obtain rfl | hlt := Nat.eq_or_lt_of_le (show k ≤ i - 1 by omega)
    · exact le_rfl
    · exact List.pairwise_iff_getElem.1 hsorted k _ (by omega) hlast hlt
  exact ⟨by omega, by rw [List.getElem?_eq_getElem hlast, le_antisymm hbelow habove]⟩

/-- **Sorting and searching.** Where `qisort` sorts the strings, `namefind` returns the number of
those that are not above `str`, and if `str` is one of them, the position in front of the result
is its own. -/
theorem namefind_qisort (hpos : 1 ≤ arr.length) (hn : arr.length < 2 ^ 24)
    (hindx : indx.length = arr.length) (hends : EndsGreatest arr) (str : CString) :
    ∃ indx' i, qisort arr arr.length indx = .ok indx' ∧
      namefind arr arr.length indx' str = .ok i ∧
      i = arr.countP (fun s => CString.strcmp s str ≤ 0) ∧
      (str ∈ arr → ∃ k, indx'[i - 1]? = some k ∧ arr[k]? = some str) := by
  obtain ⟨indx', hrun, hpermutes, houtcome⟩ := qisort_outcome hpos hn hindx Iff.rfl
  have hsorts : SortsBy arr indx' := (sortsBy_iff hpermutes).2 (houtcome.1 hends)
  have hperm : (names arr indx').Perm arr := names_perm hpermutes
  have hsorted : (names arr indx').Pairwise (· ≤ ·) :=
    hsorts.2.imp CString.strcmp_nonpos.1
  obtain ⟨i, hfind, hcut⟩ :
      ∃ i, namefind arr arr.length indx' str = .ok i ∧ Cut (· ≤ ·) (names arr indx') str i :=
    namefind_cut hpermutes.indexes hpermutes.length_eq hsorted
  refine ⟨indx', i, hrun, hfind, ?_, fun hmem => ?_⟩
  · rw [← hcut.countP_eq, hperm.countP_eq]
    simp only [CString.strcmp_nonpos]
  · obtain ⟨-, hget⟩ := get_of_cut hcut hsorted (hperm.mem_iff.2 hmem)
    rw [names, List.getElem?_map, Option.map_eq_some_iff] at hget
    obtain ⟨k, hk, hstr⟩ := hget
    have hlt : k < arr.length := hpermutes.indexes k (List.mem_of_getElem? hk)
    rw [List.getD_eq_getElem _ _ hlt] at hstr
    exact ⟨k, hk, by rw [List.getElem?_eq_getElem hlt, hstr]⟩

/-- The string `a` among `b`, `a` and `b`. -/
theorem namefind_qisort_three : ∃ indx' i,
    qisort [.ofBytes [98], .ofBytes [97], .ofBytes [98]] 3 [0, 0, 0] = .ok indx' ∧
      namefind [.ofBytes [98], .ofBytes [97], .ofBytes [98]] 3 indx' (.ofBytes [97]) = .ok i ∧
      i = 1 := by
  have hends : EndsGreatest [.ofBytes [98], .ofBytes [97], .ofBytes [98]] :=
    .small (by decide) (by decide)
  have hindx : [0, 0, 0].length = 3 := rfl
  obtain ⟨indx', i, hsort, hfind, hcount, -⟩ :=
    namefind_qisort (by decide) (by decide) hindx hends (.ofBytes [97])
  exact ⟨indx', i, hsort, hfind, hcount⟩

end Broker
end Jozabad
