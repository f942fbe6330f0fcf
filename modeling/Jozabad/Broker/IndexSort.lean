import Jozabad.Lib.Brackets
import Jozabad.Lib.CString
import Jozabad.Lib.Loop
import Jozabad.Lib.Rearrange
import Jozabad.Memory

/-!
# The index sort of strings (`sort3`, `iisort` and `qisort` in `lib.c`)

`qisort` puts into `indx` the positions of the array `arr` in the order of the strings there. It
is an iterative quicksort: a bracket of positions is partitioned around one of its strings, the
larger part goes to a stack, and a bracket of at most `M` positions is left to an insertion sort.

The functions come first, then what `sort3` and `iisort` do. `iisort` works on the positions
below its argument `right` (`iisort_spec`), and `qisort` passes it the last position of the
bracket.
-/

namespace Jozabad
namespace Broker

open Brackets Rearrange

/-! ### The functions -/

/-- `arr[indx[i]]`. -/
def nameAt (arr : List CString) (indx : List ℕ) (i : ℕ) : Except Fault CString := do
  readAt arr (← readAt indx i)

/-- `SWAP(indx[i], indx[j])`. -/
def swapAt (indx : List ℕ) (i j : ℕ) : Except Fault (List ℕ) := do
  let tmp ← readAt indx i
  let indx ← writeAt indx i (← readAt indx j)
  writeAt indx j tmp

/-- Swap two elements whose strings are out of order. -/
def orderAt (arr : List CString) (indx : List ℕ) (i j : ℕ) : Except Fault (List ℕ) := do
  if CString.strcmp (← nameAt arr indx i) (← nameAt arr indx j) > 0 then swapAt indx i j
  else return indx

/-- Swap three elements so that their strings are in order. -/
def sort3 (arr : List CString) (indx : List ℕ) (a b c : ℕ) : Except Fault (List ℕ) := do
  let indx ← orderAt arr indx a c
  let indx ← orderAt arr indx b c
  orderAt arr indx a b

/-- The inner loop of `iisort`: it moves the elements whose strings are above `val` up by one, and
returns where it stops. -/
def shiftUp (arr : List CString) (val : CString) (left : ℕ) :
    (i : ℕ) → List ℕ → Except Fault (ℕ × List ℕ)
  | 0, indx => return (0, indx)
  | i + 1, indx => do
    if i + 1 > left then
      if CString.strcmp (← nameAt arr indx i) val > 0 then
        shiftUp arr val left i (← writeAt indx (i + 1) (← readAt indx i))
      else return (i + 1, indx)
    else return (i + 1, indx)

/-- The loop of `iisort` from `j` on, for `count` elements. -/
def iisortFrom (arr : List CString) (left : ℕ) :
    (count j : ℕ) → List ℕ → Except Fault (List ℕ)
  | 0, _, indx => return indx
  | count + 1, j, indx => do
    let index ← readAt indx j
    let val ← readAt arr index
    let (i, indx) ← shiftUp arr val left j indx
    iisortFrom arr left count (j + 1) (← writeAt indx i index)

/-- The insertion sort of the elements from `left` on and below `right`. -/
def iisort (arr : List CString) (indx : List ℕ) (left right : ℕ) : Except Fault (List ℕ) :=
  iisortFrom arr left (right - (left + 1)) (left + 1) indx

/-- Scan up to find a string not below the target. -/
def scanUp (arr : List CString) (indx : List ℕ) (valueCur : CString) (i : ℕ) : Except Fault ℕ :=
  Loop.run (fun i => do
    if CString.strcmp (← nameAt arr indx (i + 1)) valueCur < 0 then return .next (i + 1)
    else return .done (i + 1)) .diverged (indx.length + 1) i

/-- Scan down to find a string not above the target. -/
def scanDown (arr : List CString) (indx : List ℕ) (valueCur : CString) (j : ℕ) : Except Fault ℕ :=
  Loop.run (fun j => do
    if CString.strcmp (← nameAt arr indx (sizeSub j 1)) valueCur > 0 then
      return .next (sizeSub j 1)
    else return .done (sizeSub j 1)) .diverged (indx.length + 1) j

/-- One round of the partitioning: the two scans, and the exchange unless they have crossed. -/
def exchangeRound (arr : List CString) (valueCur : CString) : List ℕ × ℕ × ℕ →
    Except Fault (Loop.Round (List ℕ × ℕ × ℕ) (List ℕ × ℕ × ℕ))
  | (indx, i, j) => do
    let i ← scanUp arr indx valueCur i
    let j ← scanDown arr indx valueCur j
    if j < i then return .done (indx, i, j)
    else return .next (← swapAt indx i j, i, j)

/-- The partitioning of a bracket, with the positions at which the scans have crossed. -/
def partition (arr : List CString) (indx : List ℕ) (left right : ℕ) :
    Except Fault (List ℕ × ℕ × ℕ) := do
  let center := (left + right) / 2
  let indx ← swapAt indx center (left + 1)
  -- The least of the three strings stops the scan down, and the greatest the scan up.
  let indx ← sort3 arr indx left (left + 1) right
  let indexCur ← readAt indx (left + 1)
  let valueCur ← readAt arr indexCur
  let (indx, i, j) ← Loop.run (exchangeRound arr valueCur) .diverged (indx.length + 1)
    (indx, left + 1, right)
  -- The target goes to where the scan down has stopped.
  let indx ← writeAt indx (left + 1) (← readAt indx j)
  let indx ← writeAt indx j indexCur
  return (indx, i, j)

/-- The depth of the stack used to hold brackets. -/
def NSTACK : ℕ := 50

/-- The size of a bracket where the sort switches to the insertion sort. -/
def M : ℕ := 7

/-- The variables of `qisort`. -/
structure QisortState where
  indx : List ℕ
  left : ℕ
  right : ℕ
  stack : List ℤ
  stackSize : ℤ

/-- An access to the stack. -/
def readStack (stack : List ℤ) (i : ℤ) : Except Fault ℕ :=
  if i < 0 then .error .wildRead else toSize <$> readAt stack i.toNat

/-- A write to the stack. -/
def writeStack (stack : List ℤ) (i : ℤ) (x : ℕ) : Except Fault (List ℤ) :=
  if i < 0 then .error .wildRead else writeAt stack i.toNat (toInt x)

/-- One round of `qisort`. -/
def qisortRound (arr : List CString) (s : QisortState) :
    Except Fault (Loop.Round QisortState (List ℕ)) := do
  if sizeSub s.right s.left < M then
    -- `right` is the last position of the bracket, and for `iisort` the one behind it.
    let indx ← iisort arr s.indx s.left s.right
    if s.stackSize = 0 then return .done indx
    -- Pop the stack.
    let right ← readStack s.stack (s.stackSize - 1)
    let left ← readStack s.stack (s.stackSize - 1 - 1)
    return .next { s with indx, left, right, stackSize := s.stackSize - 1 - 1 }
  else
    let (indx, i, j) ← partition arr s.indx s.left s.right
    let stackSize := s.stackSize + 2
    if stackSize > NSTACK then throw .aborted
    -- The larger part goes to the stack, and the smaller one is next.
    if (sizeSub s.right i + 1) % 2 ^ 64 ≥ sizeSub j s.left then
      let stack ← writeStack s.stack (stackSize - 1) s.right
      let stack ← writeStack stack (stackSize - 2) i
      return .next { indx, left := s.left, right := sizeSub j 1, stack, stackSize }
    else
      let stack ← writeStack s.stack (stackSize - 1) (sizeSub j 1)
      let stack ← writeStack stack (stackSize - 2) s.left
      return .next { indx, left := i, right := s.right, stack, stackSize }

/-- The loop that fills `indx`, from `j` on. -/
def fillFrom : (count j : ℕ) → List ℕ → Except Fault (List ℕ)
  | 0, _, indx => return indx
  | count + 1, j, indx => do fillFrom count (j + 1) (← writeAt indx j j)

/-- Create an index array that sorts `arr`. No sort takes more than `n` rounds. -/
def qisort (arr : List CString) (n : ℕ) (indx : List ℕ) : Except Fault (List ℕ) := do
  let indx ← fillFrom n 0 indx
  Loop.run (qisortRound arr) .diverged (n + 1)
    { indx, left := 0, right := sizeSub n 1, stack := List.replicate NSTACK 0, stackSize := 0 }

/-! ### Strings by position -/

/-- The string at a position of the index array. -/
def name (arr : List CString) (indx : List ℕ) (k : ℕ) : CString :=
  arr.getD (indx.getD k 0) .empty

/-- All entries are positions of `arr`. -/
def Indexes (arr : List CString) (indx : List ℕ) : Prop :=
  ∀ x ∈ indx, x < arr.length

section

variable {arr : List CString} {indx indx' : List ℕ} {a b c i j k left right count lo hi : ℕ}
  {val : CString}

theorem Indexes.rearranges (h : Indexes arr indx) (hr : Rearranges a b indx indx') :
    Indexes arr indx' :=
  fun x hx => h x (hr.perm.mem_iff.1 hx)

theorem readAt_of_lt (hi : i < indx.length) : readAt indx i = .ok (indx.getD i 0) := by
  rw [List.getD_eq_getElem _ _ hi]
  exact readAt_of_eq (List.getElem?_eq_getElem hi)

theorem readAt_name (h : Indexes arr indx) (hi : i < indx.length) :
    readAt arr (indx.getD i 0) = .ok (name arr indx i) := by
  have hlt : indx.getD i 0 < arr.length := by
    rw [List.getD_eq_getElem _ _ hi]
    exact h _ (List.getElem_mem hi)
  rw [name, List.getD_eq_getElem _ _ hlt]
  exact readAt_of_eq (List.getElem?_eq_getElem hlt)

theorem nameAt_of_lt (h : Indexes arr indx) (hi : i < indx.length) :
    nameAt arr indx i = .ok (name arr indx i) :=
  bind_of_eq_ok (readAt_of_lt hi) (readAt_name h hi)

theorem swapAt_of_lt (hi : i < indx.length) (hj : j < indx.length) :
    swapAt indx i j = .ok (swapped indx i j 0) := by
  refine bind_of_eq_ok (readAt_of_lt hi) (bind_of_eq_ok (readAt_of_lt hj) ?_)
  exact bind_of_eq_ok (writeAt_of_lt hi) (writeAt_of_lt (by rwa [List.length_set]))

theorem name_swapped (arr : List CString) (k : ℕ) (hi : i < indx.length) (hj : j < indx.length) :
    name arr (swapped indx i j 0) k =
      if k = j then name arr indx i else if k = i then name arr indx j else name arr indx k := by
  rw [name, getD_swapped hi hj]
  split_ifs <;> rfl

/-- A rearrangement of the index array moves the strings. -/
theorem moves_of_rearranges (arr : List CString) (h : Rearranges a (b + 1) indx indx')
    (hb : b < indx.length) :
    Moves (a, b) (name arr indx) (name arr indx') where
  outside k hk := by
    rw [name, h.getD_outside (by unfold Inside at hk; simp only at hk; omega)]
    rfl
  inside k hk := by
    obtain ⟨k', ha, hb', heq⟩ := h.exists_getD (d := 0) hb hk.1 (Nat.lt_succ_of_le hk.2)
    refine ⟨k', ⟨ha, Nat.le_of_lt_succ hb'⟩, ?_⟩
    rw [name, heq]
    rfl

/-! ### `sort3` -/

/-- Two elements with the smaller string first. -/
def ordered (arr : List CString) (indx : List ℕ) (i j : ℕ) : List ℕ :=
  if name arr indx j < name arr indx i then swapped indx i j 0 else indx

theorem orderAt_of_lt (h : Indexes arr indx) (hi : i < indx.length) (hj : j < indx.length) :
    orderAt arr indx i j = .ok (ordered arr indx i j) := by
  refine bind_of_eq_ok (nameAt_of_lt h hi) (bind_of_eq_ok (nameAt_of_lt h hj) ?_)
  unfold ordered
  by_cases hlt : name arr indx j < name arr indx i
  · rw [if_pos (CString.strcmp_pos.2 hlt), if_pos hlt]
    exact swapAt_of_lt hi hj
  · rw [if_neg fun hgt => hlt (CString.strcmp_pos.1 hgt), if_neg hlt]
    rfl

theorem ordered_rearranges (hi : i < indx.length) (hj : j < indx.length) (hai : a ≤ i)
    (hib : i < b) (haj : a ≤ j) (hjb : j < b) : Rearranges a b indx (ordered arr indx i j) := by
  unfold ordered
  split_ifs
  · exact swapped_rearranges hi hj hai hib haj hjb
  · exact .refl indx

theorem length_ordered : (ordered arr indx i j).length = indx.length := by
  unfold ordered
  split_ifs
  · exact length_swapped
  · rfl

theorem name_ordered (hi : i < indx.length) (hj : j < indx.length) :
    name arr (ordered arr indx i j) k =
      if k = j then max (name arr indx i) (name arr indx j)
      else if k = i then min (name arr indx i) (name arr indx j) else name arr indx k := by
  unfold ordered
  split_ifs with hlt hkj hki hkj hki
  · rw [name_swapped arr k hi hj, if_pos hkj, max_eq_left hlt.le]
  · rw [name_swapped arr k hi hj, if_neg hkj, if_pos hki, min_eq_right hlt.le]
  · rw [name_swapped arr k hi hj, if_neg hkj, if_neg hki]
  · rw [hkj, max_eq_right (not_lt.1 hlt)]
  · rw [hki, min_eq_left (not_lt.1 hlt)]
  · rfl

/-- Three elements with their strings in order. -/
def sorted3 (arr : List CString) (indx : List ℕ) (a b c : ℕ) : List ℕ :=
  ordered arr (ordered arr (ordered arr indx a c) b c) a b

/-- **`sort3`** swaps within the three positions, and leaves them in order. -/
theorem sort3_spec (h : Indexes arr indx) (hab : a < b) (hbc : b < c) (hc : c < indx.length)
    (hlo : lo ≤ a) (hhi : c < hi) : sort3 arr indx a b c = .ok (sorted3 arr indx a b c) ∧
      Rearranges lo hi indx (sorted3 arr indx a b c) ∧
      name arr (sorted3 arr indx a b c) a ≤ name arr (sorted3 arr indx a b c) b ∧
      name arr (sorted3 arr indx a b c) b ≤ name arr (sorted3 arr indx a b c) c := by
  have ha : a < indx.length := by omega
  have hb : b < indx.length := by omega
  have h₁ : Rearranges lo hi indx (ordered arr indx a c) :=
    ordered_rearranges ha hc hlo (by omega) (by omega) hhi
  set indx₁ := ordered arr indx a c with hindx₁
  have ha₁ : a < indx₁.length := by rwa [h₁.length_eq]
  have hb₁ : b < indx₁.length := by rwa [h₁.length_eq]
  have hc₁ : c < indx₁.length := by rwa [h₁.length_eq]
  have h₂ : Rearranges lo hi indx₁ (ordered arr indx₁ b c) :=
    ordered_rearranges hb₁ hc₁ (by omega) (by omega) (by omega) hhi
  set indx₂ := ordered arr indx₁ b c with hindx₂
  have ha₂ : a < indx₂.length := by rwa [h₂.length_eq]
  have hb₂ : b < indx₂.length := by rwa [h₂.length_eq]
  have h₃ : Rearranges lo hi indx₂ (ordered arr indx₂ a b) :=
    ordered_rearranges ha₂ hb₂ hlo (by omega) (by omega) (by omega)
  have hsorted : sorted3 arr indx a b c = ordered arr indx₂ a b := rfl
  rw [hsorted]
  refine ⟨?_, (h₁.trans h₂).trans h₃, ?_, ?_⟩
  · refine bind_of_eq_ok (orderAt_of_lt h ha hc) (bind_of_eq_ok
      (orderAt_of_lt (h.rearranges h₁) hb₁ hc₁) ?_)
    exact orderAt_of_lt ((h.rearranges h₁).rearranges h₂) ha₂ hb₂
  · rw [name_ordered ha₂ hb₂, name_ordered ha₂ hb₂, if_pos rfl, if_neg hab.ne,
      if_pos rfl]
    exact min_le_max
  · -- The third string is the greatest after the first two steps.
    have hmax : name arr indx₂ c = max (name arr indx₁ b) (name arr indx₁ c) := by
      rw [hindx₂, name_ordered hb₁ hc₁, if_pos rfl]
    have hle : name arr indx₁ a ≤ name arr indx₁ c := by
      rw [hindx₁, name_ordered ha hc, name_ordered ha hc, if_pos rfl,
        if_neg (by omega), if_pos rfl]
      exact min_le_max
    have hkeep : name arr indx₂ a = name arr indx₁ a := by
      rw [hindx₂, name_ordered hb₁ hc₁, if_neg (by omega), if_neg (by omega)]
    have hmin : name arr indx₂ b = min (name arr indx₁ b) (name arr indx₁ c) := by
      rw [hindx₂, name_ordered hb₁ hc₁, if_neg hbc.ne, if_pos rfl]
    rw [name_ordered ha₂ hb₂, name_ordered ha₂ hb₂, if_pos rfl,
      if_neg (by omega), if_neg (by omega), hmax, hkeep, hmin]
    exact max_le (hle.trans (le_max_right _ _)) min_le_max

/-! ### `iisort` -/

/-- The state of the inner loop of `iisort`, with the element that is inserted put where the loop
stands: the others are in order, and those above are not below it. -/
structure Inserting (arr : List CString) (left j i : ℕ) (indx : List ℕ) : Prop where
  others : ∀ p q, left ≤ p → p < q → q ≤ j → p ≠ i → q ≠ i → name arr indx p ≤ name arr indx q
  above : ∀ q, i < q → q ≤ j → name arr indx i ≤ name arr indx q

/-- The element moves down by one. -/
theorem Inserting.step (h : Inserting arr left j (i + 1) indx) (hleft : left ≤ i) (hij : i < j)
    (hj : j < indx.length) (hlt : name arr indx (i + 1) < name arr indx i) :
    Inserting arr left j i (swapped indx i (i + 1) 0) := by
  have hname (k : ℕ) := name_swapped arr k (hij.trans hj) (Nat.lt_of_le_of_lt hij hj)
  constructor
  · intro p q hp hpq hq hpi hqi
    rw [hname p, hname q, if_neg hpi, if_neg hqi]
    -- The element that has moved up is now at `i + 1`.
    split_ifs with hp' hq' hq'
    · omega
    · exact h.others i q hleft (by omega) hq (by omega) hq'
    · exact h.others p i hp (by omega) (by omega) hp' (by omega)
    · exact h.others p q hp hpq hq hp' hq'
  · intro q hiq hq
    rw [hname i, hname q, if_neg (by omega), if_pos rfl, if_neg (by omega : q ≠ i)]
    split_ifs with hq'
    · exact hlt.le
    · exact h.above q (by omega) hq

/-- The element has reached its place. -/
theorem Inserting.stop (h : Inserting arr left j i indx) (hij : i ≤ j)
    (hplace : left < i → name arr indx (i - 1) ≤ name arr indx i) :
    OrderedOn (left, j) (name arr indx) := by
  intro p q hp hpq hq
  -- Only a pair with the inserted element is not among the others.
  by_cases hpi : p = i
  · rw [hpi]
    exact h.above q (hpi ▸ hpq) hq
  by_cases hqi : q = i
  · rw [hqi] at hpq ⊢
    refine le_trans ?_ (hplace (hp.trans_lt hpq))
    -- What is below its place is below the element next to it.
    obtain heq | hlt := Nat.eq_or_lt_of_le (Nat.le_sub_one_of_lt hpq)
    · rw [heq]
    · exact h.others p (i - 1) hp hlt (by omega) hpi (by omega)
  · exact h.others p q hp hpq hq hpi hqi

/-- The inner loop inserts the element `index`. -/
theorem shiftUp_spec (index : ℕ) (val : CString) (hleft : left ≤ i) (hij : i ≤ j)
    (hj : j < indx.length) (hindx : Indexes arr (indx.set i index))
    (hval : name arr (indx.set i index) i = val)
    (h : Inserting arr left j i (indx.set i index)) :
    ∃ i' indx', shiftUp arr val left i indx = .ok (i', indx') ∧ i' < indx'.length ∧
      Rearranges left (j + 1) (indx.set i index) (indx'.set i' index) ∧
      OrderedOn (left, j) (name arr (indx'.set i' index)) := by
  induction i generalizing indx with
  | zero => exact ⟨0, indx, rfl, by omega, .refl _, h.stop hij fun hlt => absurd hlt (by omega)⟩
  | succ i ih =>
    have hlen : (indx.set (i + 1) index).length = indx.length := List.length_set
    have hget : (indx.set (i + 1) index).getD i 0 = indx.getD i 0 := by
      rw [getD_set (by omega), if_neg (by omega)]
    have hname : nameAt arr indx i = .ok (name arr (indx.set (i + 1) index) i) := by
      refine bind_of_eq_ok (readAt_of_lt (by omega)) ?_
      rw [← hget]
      exact readAt_name hindx (by omega)
    rw [shiftUp]
    by_cases hgt : i + 1 > left
    · rw [if_pos hgt]
      by_cases hlt : val < name arr (indx.set (i + 1) index) i
      · -- The hole moves down, which exchanges two elements once it is filled.
        have hset : (indx.set (i + 1) (indx.getD i 0)).set i index =
            swapped (indx.set (i + 1) index) i (i + 1) 0 :=
          set_set_eq_swapped (by omega) (by omega)
        have hswap : Rearranges left (j + 1) (indx.set (i + 1) index)
            ((indx.set (i + 1) (indx.getD i 0)).set i index) := by
          rw [hset]
          exact swapped_rearranges (by omega) (by omega) (by omega) (by omega) (by omega)
            (by omega)
        obtain ⟨i', indx', hrun, hi', hr, hordered⟩ := @ih (indx.set (i + 1) (indx.getD i 0))
          (by omega) (by omega) (by rwa [List.length_set]) (hindx.rearranges hswap)
          (by rw [hset, name_swapped _ _ (by omega) (by omega), if_neg (by omega), if_pos rfl,
            hval])
          (by rw [hset]; exact h.step (by omega) (by omega) (by omega) (by rwa [hval]))
        refine ⟨i', indx', bind_of_eq_ok hname ?_, hi', hswap.trans hr, hordered⟩
        rw [if_pos (CString.strcmp_pos.2 hlt)]
        exact bind_of_eq_ok (readAt_of_lt (by omega))
          (bind_of_eq_ok (writeAt_of_lt (by omega)) hrun)
      · refine ⟨i + 1, indx, bind_of_eq_ok hname ?_, by omega, .refl _, h.stop hij fun _ => ?_⟩
        · rw [if_neg fun hpos => hlt (CString.strcmp_pos.1 hpos)]
          rfl
        · rw [Nat.add_sub_cancel, hval]
          exact not_lt.1 hlt
    · refine ⟨i + 1, indx, ?_, by omega, .refl _, h.stop hij fun hlt => absurd hlt (by omega)⟩
      rw [if_neg hgt]
      rfl

/-- From `j` on, with the elements below `j` in order. -/
theorem iisortFrom_spec (hleft : left < j) (hcount : j + count ≤ indx.length)
    (hindx : Indexes arr indx) (h : OrderedOn (left, j - 1) (name arr indx)) :
    ∃ indx', iisortFrom arr left count j indx = .ok indx' ∧
      Rearranges left (j + count) indx indx' ∧
      OrderedOn (left, j + count - 1) (name arr indx') := by
  induction count generalizing j indx with
  | zero => exact ⟨indx, rfl, .refl indx, h⟩
  | succ count ih =>
    have hj : j < indx.length := by omega
    have hset : indx.set j (indx.getD j 0) = indx := by
      rw [List.getD_eq_getElem _ _ hj, List.set_getElem_self]
    have hinserting : Inserting arr left j j indx :=
      ⟨fun p q hp hpq hq _ hqj => h p q hp hpq (by simp only; omega), by omega⟩
    obtain ⟨i, indx₁, hshift, hi, hr, hordered⟩ :=
      shiftUp_spec (indx.getD j 0) (name arr indx j) hleft.le le_rfl hj
        (by rwa [hset]) (by rw [hset]) (by rwa [hset])
    -- Filling the hole at `j` with its own element changes nothing.
    rw [hset] at hr
    obtain ⟨indx', hrun, hr', hordered'⟩ := @ih (indx₁.set i (indx.getD j 0)) (j + 1)
      (by omega) (by rw [hr.length_eq]; omega) (hindx.rearranges hr) hordered
    rw [Nat.add_right_comm] at hr' hordered'
    refine ⟨indx', ?_, (hr.mono le_rfl (by omega)).trans hr', hordered'⟩
    exact bind_of_eq_ok (readAt_of_lt hj) (bind_of_eq_ok (readAt_name hindx hj)
      (bind_of_eq_ok hshift (bind_of_eq_ok (writeAt_of_lt hi) hrun)))

/-- **`iisort`** puts the elements from `left` on and below `right` in order. -/
theorem iisort_spec (hle : left ≤ right) (hright : right ≤ indx.length)
    (hindx : Indexes arr indx) : ∃ indx', iisort arr indx left right = .ok indx' ∧
      Rearranges left right indx indx' ∧ OrderedOn (left, right - 1) (name arr indx') := by
  have hone : OrderedOn (left, left + 1 - 1) (name arr indx) :=
    fun p q hp hpq hq => absurd hq (by simp only at *; omega)
  obtain rfl | hlt := hle.eq_or_lt
  · refine ⟨indx, ?_, .refl indx, fun p q hp hpq hq => absurd hq (by simp only at *; omega)⟩
    rw [iisort, Nat.sub_eq_zero_of_le (Nat.le_succ left)]
    rfl
  · have hcount : left + 1 + (right - (left + 1)) = right := Nat.add_sub_cancel' hlt
    have h := iisortFrom_spec (Nat.lt_succ_self left) (hcount.le.trans hright) hindx hone
    rwa [hcount] at h

/-- No string of the bracket is above its last one. -/
def GreatestLast (arr : List CString) (indx : List ℕ) (b : Bracket) : Prop :=
  ∀ k, Inside b k → name arr indx k ≤ name arr indx b.2

/-- **`iisort` with the last position** of a bracket for its argument `right` leaves the last
element where it is. -/
theorem iisort_bracket (hle : left ≤ right) (hright : right < indx.length)
    (hindx : Indexes arr indx) : ∃ indx', iisort arr indx left right = .ok indx' ∧
      Rearranges left (right + 1) indx indx' ∧
      (OrderedOn (left, right) (name arr indx') ↔ GreatestLast arr indx (left, right)) := by
  obtain ⟨indx', hrun, hr, hordered⟩ := iisort_spec hle hright.le hindx
  have hlast : name arr indx' right = name arr indx right := by
    rw [name, hr.getD_outside (.inr le_rfl)]
    rfl
  refine ⟨indx', hrun, hr.mono le_rfl (Nat.le_succ right), ?_, ?_⟩
  · intro h k hk
    -- The others are the same ones before and after.
    obtain heq | hlt := Nat.eq_or_lt_of_le hk.2
    · exact (congrArg _ heq).le
    · obtain ⟨k', hleft, hright', heq⟩ := hr.symm.exists_getD (d := 0)
        (by rw [hr.length_eq]; exact hright.le) hk.1 hlt
      calc name arr indx k = name arr indx' k' := by rw [name, heq]; rfl
        _ ≤ name arr indx' right := h k' right hleft hright' le_rfl
        _ = name arr indx right := hlast
  · intro h p q hp hpq hq
    obtain heq | hlt := Nat.eq_or_lt_of_le hq
    · obtain ⟨p', hleft, hright', heq'⟩ := hr.exists_getD (d := 0) hright.le hp
        (hpq.trans_eq heq)
      calc name arr indx' p = name arr indx p' := by rw [name, heq']; rfl
        _ ≤ name arr indx right := h p' ⟨hleft, hright'.le⟩
        _ = name arr indx' q := by rw [heq, hlast]
    · exact hordered p q hp hpq (Nat.le_sub_one_of_lt hlt)

end

end Broker
end Jozabad
