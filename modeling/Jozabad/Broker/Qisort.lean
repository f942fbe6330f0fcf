import Jozabad.Broker.Partition

/-!
# What `qisort` does

`qisort` ends within `n` rounds, finds room on its stack for each bracket that it puts aside
(`Progress.room`), and leaves a permutation of the positions. It does not always sort, because
`iisort` takes the last position of a bracket for the one behind it: each of the lists that
Hoare's partitioning of the strings comes down to has to end with a greatest one (`EndsGreatest`).
-/

namespace Jozabad
namespace Broker

open Brackets Rearrange Hoare

variable {arr : List CString} {indx indx' : List ℕ} {j : ℕ} {b : Bracket}
  {bs leaves : List Bracket} {l l₁ l₂ : List CString} {cond : Prop}

/-! ### When it sorts -/

/-- **When a list of strings gets sorted.** If it has at most `M` strings, none is above the last
one. If it has more, both parts into which it is split are such lists. -/
inductive EndsGreatest : List CString → Prop where
  | small {l : List CString} : l.length ≤ M → (∀ s ∈ l, s ≤ entry l (l.length - 1)) →
      EndsGreatest l
  | split {l l₁ l₂ : List CString} : M < l.length → Splits l l₁ l₂ → EndsGreatest l₁ →
      EndsGreatest l₂ → EndsGreatest l

theorem endsGreatest_small (h : l.length ≤ M) :
    EndsGreatest l ↔ ∀ s ∈ l, s ≤ entry l (l.length - 1) := by
  refine ⟨fun hends => ?_, .small h⟩
  cases hends with
  | small _ hlast => exact hlast
  | split hlt => exact absurd h hlt.not_ge

theorem endsGreatest_split (h : M < l.length) (hsplits : Splits l l₁ l₂) :
    EndsGreatest l ↔ EndsGreatest l₁ ∧ EndsGreatest l₂ := by
  refine ⟨fun hends => ?_, fun hends => .split h hsplits hends.1 hends.2⟩
  cases hends with
  | small hle => exact absurd h hle.not_gt
  | split _ hsplits' hfirst hsecond =>
    obtain ⟨rfl, rfl⟩ := hsplits.unique hsplits'
    exact ⟨hfirst, hsecond⟩

/-- The strings of a small bracket. -/
theorem endsGreatest_slice (hle : b.1 ≤ b.2) (hsmall : b.2 - b.1 < M) :
    EndsGreatest (slice arr indx b) ↔ GreatestLast arr indx b := by
  have hlast : (slice arr indx b).length - 1 = b.2 - b.1 := by
    rw [length_slice, width]
    omega
  rw [endsGreatest_small (by rw [length_slice, width]; omega), hlast, entry_slice ⟨hle, le_rfl⟩]
  constructor
  · exact fun h k hk => h _ (mem_slice.2 ⟨k, hk, rfl⟩)
  · intro h s hs
    obtain ⟨k, hk, rfl⟩ := mem_slice.1 hs
    exact h k hk

/-- The index array is a permutation of the positions. -/
def Permutes (arr : List CString) (indx : List ℕ) : Prop :=
  indx.Perm (List.range arr.length)

namespace Permutes

theorem indexes (h : Permutes arr indx) : Indexes arr indx :=
  fun _ hx => List.mem_range.1 (h.mem_iff.1 hx)

theorem length_eq (h : Permutes arr indx) : indx.length = arr.length :=
  (List.Perm.length_eq h).trans List.length_range

theorem rearranges {p q : ℕ} (h : Permutes arr indx) (hr : Rearranges p q indx indx') :
    Permutes arr indx' :=
  hr.perm.trans h

end Permutes

/-! ### The brackets at hand -/

/-- The state of the sort, with the brackets it still has to work on and those it has left. All
that `cond` says is said about these. -/
structure Progress (arr : List CString) (cond : Prop) (indx : List ℕ)
    (pending leaves : List Bracket) : Prop where
  permutes : Permutes arr indx
  sorting : Sorting arr.length pending leaves (name arr indx)
  shallow : Shallow arr.length pending
  decides : cond ↔ (∀ b ∈ leaves, OrderedOn b (name arr indx)) ∧
    ∀ b ∈ pending, EndsGreatest (slice arr indx b)

namespace Progress

theorem first_le (h : Progress arr cond indx (b :: bs) leaves) : b.1 ≤ b.2 :=
  (h.sorting.within b (List.mem_append_left _ List.mem_cons_self)).1

theorem first_lt (h : Progress arr cond indx (b :: bs) leaves) : b.2 < indx.length := by
  rw [h.permutes.length_eq]
  exact (h.sorting.within b (List.mem_append_left _ List.mem_cons_self)).2

/-- What is said about the other brackets does not change. -/
theorem others (h : Progress arr cond indx (b :: bs) leaves)
    (hr : Rearranges b.1 (b.2 + 1) indx indx') :
    ((∀ c ∈ leaves, OrderedOn c (name arr indx')) ↔ ∀ c ∈ leaves, OrderedOn c (name arr indx)) ∧
      ((∀ c ∈ bs, EndsGreatest (slice arr indx' c)) ↔
        ∀ c ∈ bs, EndsGreatest (slice arr indx c)) := by
  have hmoves := moves_of_rearranges arr hr h.first_lt
  -- No other bracket has an element that moves.
  refine ⟨forall₂_congr fun c hc => ?_, forall₂_congr fun c hc => ?_⟩
  · have hsame := h.sorting.unchanged hmoves (List.mem_append_right bs hc)
    exact ⟨fun ho => ho.congr fun k hk => (hsame k hk).symm, fun ho => ho.congr hsame⟩
  · have hsame := h.sorting.unchanged hmoves (List.mem_append_left leaves hc)
    rw [slice_congr hsame]

/-- **A small bracket** is left to `iisort`. -/
theorem leaf (h : Progress arr cond indx (b :: bs) leaves) (hsmall : b.2 - b.1 < M) :
    ∃ indx', iisort arr indx b.1 b.2 = .ok indx' ∧ Progress arr cond indx' bs (b :: leaves) := by
  obtain ⟨indx', hrun, hr, hordered⟩ :=
    iisort_bracket h.first_le h.first_lt h.permutes.indexes
  obtain ⟨hleaves, hpending⟩ := h.others hr
  refine ⟨indx', hrun, h.permutes.rearranges hr,
    h.sorting.leaf (moves_of_rearranges arr hr h.first_lt), h.shallow.2, ?_⟩
  rw [h.decides, List.forall_mem_cons, List.forall_mem_cons, hleaves, hpending, hordered,
    ← endsGreatest_slice h.first_le hsmall]
  exact and_left_comm.trans and_assoc.symm

/-- **A larger bracket** is split, and the smaller part comes first. -/
theorem split (h : Progress arr cond indx (b :: bs) leaves) (hge : M ≤ b.2 - b.1) :
    ∃ indx' i j, partition arr indx b.1 b.2 = .ok (indx', i, j) ∧
      (b.1 + 1 ≤ j ∧ j < i ∧ i ≤ b.2) ∧
      (width (b.1, j - 1) ≤ width (i, b.2) →
        Progress arr cond indx' ((b.1, j - 1) :: (i, b.2) :: bs) leaves) ∧
      (width (i, b.2) ≤ width (b.1, j - 1) →
        Progress arr cond indx' ((i, b.2) :: (b.1, j - 1) :: bs) leaves) := by
  have hlt : b.1 + 1 < b.2 := by unfold M at hge; omega
  obtain ⟨indx', i, j, hrun, hr, hparts, hsplits⟩ :=
    partition_spec hlt h.first_lt h.permutes.indexes
  have hbounds := hparts.bounds
  obtain ⟨hleaves, hpending⟩ := h.others hr
  have hmoves := moves_of_rearranges arr hr h.first_lt
  have hpermutes := h.permutes.rearranges hr
  have hsum : width (b.1, j - 1) + width (i, b.2) ≤ width b := by unfold width; simp only; omega
  have hordered (cs : List Bracket) (hc : (b.1, j - 1) ∈ cs) (hd : (i, b.2) ∈ cs) :
      ∀ p q, b.1 ≤ p → p < q → q ≤ b.2 → name arr indx' p ≤ name arr indx' q ∨
        ∃ e ∈ cs, e.1 ≤ p ∧ q ≤ e.2 := by
    intro p q hp hpq hq
    by_cases hin : p < i ∧ j ≤ q
    · -- The string at `j` is in between.
      exact .inl ((hparts.low p hp hin.1).trans (hparts.high q hin.2 hq))
    · by_cases hqj : q < j
      · exact .inr ⟨_, hc, hp, Nat.le_sub_one_of_lt hqj⟩
      · exact .inr ⟨_, hd, by simp only; omega, hq⟩
  have hapart : Apart (b.1, j - 1) (i, b.2) := .inl (by simp only; omega)
  have hfirst : b.1 ≤ b.1 ∧ b.1 ≤ j - 1 ∧ j - 1 ≤ b.2 := by omega
  have hsecond : b.1 ≤ i ∧ i ≤ b.2 ∧ b.2 ≤ b.2 := by omega
  have hdecides : cond ↔ (∀ c ∈ leaves, OrderedOn c (name arr indx')) ∧
      (EndsGreatest (slice arr indx' (b.1, j - 1)) ∧ EndsGreatest (slice arr indx' (i, b.2))) ∧
        ∀ c ∈ bs, EndsGreatest (slice arr indx' c) := by
    rw [h.decides, List.forall_mem_cons, hleaves, hpending,
      ← endsGreatest_split (by rw [length_slice, width]; simp only; omega) hsplits]
  refine ⟨indx', i, j, hrun, hbounds, fun hle => ?_, fun hle => ?_⟩
  · refine ⟨hpermutes, h.sorting.split hmoves hapart hfirst hsecond
      (hordered _ List.mem_cons_self (by simp)), h.shallow.split hsum hle, ?_⟩
    rw [hdecides, List.forall_mem_cons, List.forall_mem_cons, and_assoc]
  · refine ⟨hpermutes, h.sorting.split hmoves hapart.symm hsecond hfirst
      (hordered _ (by simp) List.mem_cons_self), h.shallow.split (by omega) hle, ?_⟩
    rw [hdecides, List.forall_mem_cons, List.forall_mem_cons]
    exact and_congr_right fun _ => and_assoc.trans and_left_comm

end Progress

/-! ### The stack -/

/-- The brackets on the stack, from the top. -/
def Stacked (stack : List ℤ) : List Bracket → Prop
  | [] => True
  | b :: bs => (stack[2 * bs.length]? = some (toInt b.1) ∧
      stack[2 * bs.length + 1]? = some (toInt b.2)) ∧ Stacked stack bs

/-- A write above the brackets. -/
theorem Stacked.set {stack : List ℤ} {k : ℕ} {x : ℤ} (h : Stacked stack bs)
    (hk : 2 * bs.length ≤ k) : Stacked (stack.set k x) bs := by
  induction bs with
  | nil => exact h
  | cons b bs ih =>
    rw [List.length_cons] at hk
    refine ⟨?_, ih h.2 (by omega)⟩
    rw [List.getElem?_set_ne (by omega), List.getElem?_set_ne (by omega)]
    exact h.1

/-- A bracket is pushed. -/
theorem Stacked.push {stack : List ℤ} (h : Stacked stack bs)
    (hroom : 2 * bs.length + 1 < stack.length) (b : Bracket) :
    Stacked ((stack.set (2 * bs.length + 1) (toInt b.2)).set (2 * bs.length) (toInt b.1))
      (b :: bs) := by
  refine ⟨⟨?_, ?_⟩, (h.set (by omega)).set le_rfl⟩
  · rw [List.getElem?_set_self (by rw [List.length_set]; omega)]
  · rw [List.getElem?_set_ne (by omega), List.getElem?_set_self hroom]

/-- The variables that hold the brackets at hand. -/
structure Holds (s : QisortState) (bs : List Bracket) : Prop where
  room : s.stack.length = NSTACK
  size : s.stackSize = 2 * (bs.length : ℤ)
  stacked : Stacked s.stack bs

theorem readStack_natCast {stack : List ℤ} {k x : ℕ} (h : stack[k]? = some (toInt x))
    (hx : x < 2 ^ 31) : readStack stack k = .ok x := by
  rw [readStack, if_neg (by omega), Int.toNat_natCast, readAt_of_eq h]
  exact congrArg Except.ok (toSize_toInt hx)

theorem writeStack_natCast {stack : List ℤ} {k x : ℕ} (h : k < stack.length) :
    writeStack stack k x = .ok (stack.set k (toInt x)) := by
  rw [writeStack, if_neg (by omega), Int.toNat_natCast, writeAt_of_lt h]

/-- The bracket on the top is taken off. -/
theorem Holds.pop {s : QisortState} (h : Holds s (b :: bs)) (hb : b.1 ≤ b.2 ∧ b.2 < 2 ^ 31) :
    readStack s.stack (s.stackSize - 1) = .ok b.2 ∧
      readStack s.stack (s.stackSize - 1 - 1) = .ok b.1 := by
  have hsize := h.size
  rw [List.length_cons] at hsize
  have hright : s.stackSize - 1 = ((2 * bs.length + 1 : ℕ) : ℤ) := by omega
  have hleft : s.stackSize - 1 - 1 = ((2 * bs.length : ℕ) : ℤ) := by omega
  rw [hleft, hright]
  exact ⟨readStack_natCast h.stacked.1.2 hb.2, readStack_natCast h.stacked.1.1 (by omega)⟩

/-- A bracket is put on the top. -/
theorem Holds.push {s : QisortState} (h : Holds s bs) (hroom : 2 * bs.length + 2 ≤ NSTACK)
    (b : Bracket) : ∃ stack stack', writeStack s.stack (s.stackSize + 2 - 1) b.2 = .ok stack ∧
      writeStack stack (s.stackSize + 2 - 2) b.1 = .ok stack' ∧
      ∀ indx left right, Holds ⟨indx, left, right, stack', s.stackSize + 2⟩ (b :: bs) := by
  have hsize := h.size
  have hlength := h.room
  have hright : s.stackSize + 2 - 1 = ((2 * bs.length + 1 : ℕ) : ℤ) := by omega
  have hleft : s.stackSize + 2 - 2 = ((2 * bs.length : ℕ) : ℤ) := by omega
  rw [hleft, hright]
  refine ⟨_, _, writeStack_natCast (by omega),
    writeStack_natCast (by rw [List.length_set]; omega), fun indx left right => ⟨?_, ?_, ?_⟩⟩
  · rw [List.length_set, List.length_set, hlength]
  · rw [List.length_cons]
    simp only
    omega
  · exact h.stacked.push (by omega) b

/-- A bracket that is split has few others behind it. -/
theorem Progress.room (h : Progress arr cond indx (b :: bs) leaves) (hge : M ≤ b.2 - b.1)
    (hn : arr.length < 2 ^ 24) : 2 * bs.length + 2 ≤ NSTACK := by
  have hshallow : width b * 2 ^ bs.length ≤ arr.length := h.shallow.1
  have hwidth : 8 ≤ width b := by
    unfold M at hge
    unfold width
    omega
  -- The bracket in front could be doubled once for each of the others.
  have hdepth : bs.length < 21 := by
    by_contra hdeep
    have hpow : 2 ^ 21 ≤ 2 ^ bs.length := Nat.pow_le_pow_right (by omega) (not_lt.1 hdeep)
    have hmul := Nat.mul_le_mul hwidth hpow
    omega
  unfold NSTACK
  omega

/-! ### The rounds -/

/-- What a run of `qisort` comes to. -/
def Arranged (arr : List CString) (cond : Prop) (indx : List ℕ) : Prop :=
  Permutes arr indx ∧ (cond ↔ OrderedOn (0, arr.length - 1) (name arr indx))

/-- The state of `qisort` between two rounds. -/
def Running (arr : List CString) (cond : Prop) (m : ℕ) (s : QisortState) : Prop :=
  ∃ bs leaves, Progress arr cond s.indx ((s.left, s.right) :: bs) leaves ∧ Holds s bs ∧
    m = total ((s.left, s.right) :: bs)

/-- The last bracket is a small one. -/
theorem qisortRound_last {s : QisortState}
    (h : Progress arr cond s.indx [(s.left, s.right)] leaves) (hholds : Holds s [])
    (hsmall : s.right - s.left < M) :
    ∃ indx, qisortRound arr s = .ok (.done indx) ∧ Arranged arr cond indx := by
  have hsize : s.stackSize = 0 := hholds.size
  obtain ⟨indx, hrun, h'⟩ := h.leaf hsmall
  refine ⟨indx, ?_, h'.permutes, ?_⟩
  · rw [qisortRound, if_pos (by rwa [sizeSub_of_le h.first_le])]
    refine bind_of_eq_ok hrun ?_
    rw [if_pos hsize]
    rfl
  · rw [h'.decides, h'.sorting.done]
    exact and_iff_left fun c hc => absurd hc List.not_mem_nil

/-- A small bracket is followed by the one on the top of the stack. -/
theorem qisortRound_pop {s : QisortState}
    (h : Progress arr cond s.indx ((s.left, s.right) :: b :: bs) leaves)
    (hholds : Holds s (b :: bs)) (hsmall : s.right - s.left < M) (hn : arr.length < 2 ^ 24) :
    ∃ s', qisortRound arr s = .ok (.next s') ∧ Running arr cond (total (b :: bs)) s' := by
  obtain ⟨indx, hrun, h'⟩ := h.leaf hsmall
  have hb := h'.first_lt
  rw [h'.permutes.length_eq] at hb
  obtain ⟨hright, hleft⟩ := hholds.pop ⟨h'.first_le, by omega⟩
  have hsize := hholds.size
  rw [List.length_cons] at hsize
  have hpop : s.stackSize ≠ 0 := by omega
  -- What comes off the stack is the next bracket, as an `int` holds any position.
  refine ⟨{ s with indx, left := b.1, right := b.2, stackSize := s.stackSize - 1 - 1 }, ?_,
    bs, _, h', ⟨hholds.room, ?_, hholds.stacked.2⟩, rfl⟩
  · rw [qisortRound, if_pos (by rwa [sizeSub_of_le h.first_le])]
    refine bind_of_eq_ok hrun ?_
    rw [if_neg hpop]
    exact bind_of_eq_ok hright (bind_of_eq_ok hleft rfl)
  · simp only
    omega

/-- Of a larger bracket, the larger part goes to the stack. -/
theorem qisortRound_push {s : QisortState}
    (h : Progress arr cond s.indx ((s.left, s.right) :: bs) leaves) (hholds : Holds s bs)
    (hge : M ≤ s.right - s.left) (hn : arr.length < 2 ^ 24) :
    ∃ s' m', qisortRound arr s = .ok (.next s') ∧ m' < total ((s.left, s.right) :: bs) ∧
      Running arr cond m' s' := by
  have hle : s.left ≤ s.right := h.first_le
  have hlt := h.first_lt
  rw [h.permutes.length_eq] at hlt
  have hroom := h.room hge hn
  have hsize := hholds.size
  obtain ⟨indx, i, j, hrun, hbounds, hfirst, hsecond⟩ := h.split hge
  simp only at hlt hbounds hfirst hsecond hrun
  have hupper : (sizeSub s.right i + 1) % 2 ^ 64 = width (i, s.right) := by
    rw [sizeSub_of_le hbounds.2.2, Nat.mod_eq_of_lt (by omega), width]
    simp only
    omega
  have hlower : sizeSub j s.left = width (s.left, j - 1) := by
    rw [sizeSub_of_le (by omega), width]
    simp only
    omega
  have hdown : sizeSub j 1 = j - 1 := sizeSub_of_le (by omega)
  have hdepth : ¬ s.stackSize + 2 > NSTACK := by omega
  have htotal :
      total ((s.left, j - 1) :: (i, s.right) :: bs) < total ((s.left, s.right) :: bs) := by
    rw [total_cons, total_cons, total_cons, width, width, width]
    simp only
    omega
  rw [qisortRound, if_neg (by rw [sizeSub_of_le hle]; exact hge.not_gt)]
  by_cases hcmp : width (i, s.right) ≥ width (s.left, j - 1)
  · obtain ⟨stack, stack', hwrite, hwrite', hholds'⟩ := hholds.push hroom (i, s.right)
    refine ⟨⟨indx, s.left, j - 1, stack', s.stackSize + 2⟩, _, bind_of_eq_ok hrun ?_, htotal,
      _, leaves, hfirst hcmp, hholds' _ _ _, rfl⟩
    dsimp only
    rw [if_neg hdepth, hupper, hlower, if_pos hcmp, hdown]
    exact bind_of_eq_ok hwrite (bind_of_eq_ok hwrite' rfl)
  · obtain ⟨stack, stack', hwrite, hwrite', hholds'⟩ := hholds.push hroom (s.left, j - 1)
    refine ⟨⟨indx, i, s.right, stack', s.stackSize + 2⟩,
      total ((i, s.right) :: (s.left, j - 1) :: bs), bind_of_eq_ok hrun ?_, ?_,
      _, leaves, hsecond (not_le.1 hcmp).le, hholds' _ _ _, rfl⟩
    · dsimp only
      rw [if_neg hdepth, hupper, hlower, if_neg hcmp, hdown]
      exact bind_of_eq_ok hwrite (bind_of_eq_ok hwrite' rfl)
    · rwa [total_cons, total_cons, Nat.add_left_comm, ← total_cons, ← total_cons]

/-- **One round** of `qisort`. -/
theorem qisortRound_spec {m : ℕ} {s : QisortState} (hn : arr.length < 2 ^ 24)
    (h : Running arr cond m s) :
    (∃ s' m', qisortRound arr s = .ok (.next s') ∧ m' < m ∧ Running arr cond m' s') ∨
      ∃ indx, qisortRound arr s = .ok (.done indx) ∧ Arranged arr cond indx := by
  obtain ⟨bs, leaves, hprogress, hholds, rfl⟩ := h
  obtain hsmall | hge := Nat.lt_or_ge (s.right - s.left) M
  · cases bs with
    | nil => exact .inr (qisortRound_last hprogress hholds hsmall)
    | cons b bs =>
      have hle : s.left ≤ s.right := hprogress.first_le
      have hlt : total (b :: bs) < total ((s.left, s.right) :: b :: bs) := by
        rw [total_cons (b := (s.left, s.right)), width]
        simp only
        omega
      obtain ⟨s', hrun, hrunning⟩ := qisortRound_pop hprogress hholds hsmall hn
      exact .inl ⟨s', _, hrun, hlt, hrunning⟩
  · exact .inl (qisortRound_push hprogress hholds hge hn)

/-! ### The whole of it -/

/-- The loop in front fills the index array with the positions. -/
theorem fillFrom_spec {count : ℕ} (hlength : indx.length = j + count) :
    fillFrom count j indx = .ok (indx.take j ++ List.range' j count) := by
  induction count generalizing j indx with
  | zero =>
    rw [Nat.add_zero] at hlength
    rw [List.range'_zero, List.append_nil, ← hlength, List.take_length]
    rfl
  | succ count ih =>
    refine bind_of_eq_ok (writeAt_of_lt (by omega)) ?_
    -- The part that is filled grows by `j`.
    have htake : (indx.set j j).take (j + 1) = indx.take j ++ [j] := by
      rw [List.take_add_one, List.take_set_of_le le_rfl,
        List.getElem?_set_self (by omega), Option.toList_some]
    rw [ih (by rw [List.length_set]; omega), htake, List.append_assoc, List.range'_succ]
    rfl

/-- The strings of the whole array at the start. -/
theorem slice_range (hpos : 0 < arr.length) :
    slice arr (List.range arr.length) (0, arr.length - 1) = arr := by
  refine List.ext_getElem ?_ fun k hk hk' => ?_
  · rw [length_slice, width]
    simp only
    omega
  · have hget : (List.range arr.length).getD k 0 = k := by
      rw [List.getD_eq_getElem _ _ (by rwa [List.length_range]), List.getElem_range]
    rw [getElem_slice, Nat.zero_add, name, hget, List.getD_eq_getElem _ _ hk']

/-- The whole of `qisort`, with any condition that says what the first bracket decides. -/
theorem qisort_outcome (hpos : 0 < arr.length) (hn : arr.length < 2 ^ 24)
    (hindx : indx.length = arr.length)
    (hcond : cond ↔ EndsGreatest arr) :
    ∃ indx', qisort arr arr.length indx = .ok indx' ∧ Arranged arr cond indx' := by
  have hfill : fillFrom arr.length 0 indx = .ok (List.range arr.length) := by
    rw [fillFrom_spec (by omega), List.take_zero, List.nil_append, List.range_eq_range']
  have hprogress : Progress arr cond (List.range arr.length) [(0, arr.length - 1)] [] := by
    refine ⟨.refl _, .start hpos, ⟨?_, trivial⟩, ?_⟩
    · rw [List.length_nil, pow_zero, mul_one, width]
      simp only
      omega
    · rw [List.forall_mem_singleton, slice_range hpos, hcond]
      exact (and_iff_right fun c hc => absurd hc List.not_mem_nil).symm
  have htotal : total [(0, arr.length - 1)] < arr.length + 1 := by
    rw [total_cons, width]
    simp only [total, List.map_nil, List.sum_nil]
    omega
  have hrunning : Running arr cond (total [(0, arr.length - 1)])
      ⟨List.range arr.length, 0, arr.length - 1, List.replicate NSTACK 0, 0⟩ :=
    ⟨[], [], hprogress, ⟨List.length_replicate, rfl, trivial⟩, rfl⟩
  obtain ⟨indx', hrun, houtcome⟩ :=
    Loop.run_variant (Running arr cond) (fun _ _ => qisortRound_spec hn) hrunning htotal
  refine ⟨indx', bind_of_eq_ok hfill ?_, houtcome⟩
  rw [sizeSub_of_le hpos]
  exact hrun

/-- The array `indx` lists the strings in order, and each position once. -/
def SortsBy (arr : List CString) (indx : List ℕ) : Prop :=
  indx.Perm (List.range arr.length) ∧
    (indx.map fun k => arr.getD k .empty).Pairwise fun s t => CString.strcmp s t ≤ 0

theorem sortsBy_iff (hindx : Permutes arr indx) :
    SortsBy arr indx ↔ OrderedOn (0, arr.length - 1) (name arr indx) := by
  have hlength := hindx.length_eq
  have hname (k : ℕ) (hk : k < indx.length) : name arr indx k = arr.getD indx[k] .empty := by
    rw [name, List.getD_eq_getElem _ _ hk]
  refine (and_iff_right hindx).trans ?_
  rw [List.pairwise_map, List.pairwise_iff_getElem]
  constructor
  · intro h p q _ hpq hq
    simp only at hq
    rw [hname p (by omega), hname q (by omega)]
    exact CString.strcmp_nonpos.1 (h p q (by omega) (by omega) hpq)
  · intro h p q hp hq hpq
    rw [CString.strcmp_nonpos, ← hname p hp, ← hname q hq]
    exact h p q (Nat.zero_le p) hpq (by simp only; omega)

/-- **`qisort`** ends with a permutation of the positions, and it is one that sorts the strings
exactly if each list that the partitioning comes down to ends with a greatest one. -/
theorem qisort_sorts_iff {indx : List ℕ} (hpos : 1 ≤ arr.length) (hn : arr.length < 2 ^ 24)
    (hindx : indx.length = arr.length) :
    (∃ indx', qisort arr arr.length indx = .ok indx' ∧ indx'.Perm (List.range arr.length)) ∧
      ((∃ indx', qisort arr arr.length indx = .ok indx' ∧ SortsBy arr indx') ↔
        EndsGreatest arr) := by
  obtain ⟨indx', hrun, hpermutes, hends⟩ := qisort_outcome hpos hn hindx Iff.rfl
  refine ⟨⟨indx', hrun, hpermutes⟩, ?_⟩
  rw [hends, ← sortsBy_iff hpermutes]
  constructor
  · rintro ⟨indx'', hrun', hsorts⟩
    cases hrun.symm.trans hrun'
    exact hsorts
  · exact fun hsorts => ⟨indx', hrun, hsorts⟩

/-- The strings `b`, `a` and `b` are sorted. -/
theorem qisort_sorts_iff_three :
    ∃ indx', qisort [.ofBytes [98], .ofBytes [97], .ofBytes [98]] 3 [0, 0, 0] = .ok indx' ∧
      SortsBy [.ofBytes [98], .ofBytes [97], .ofBytes [98]] indx' := by
  have hends : EndsGreatest [.ofBytes [98], .ofBytes [97], .ofBytes [98]] :=
    .small (by decide) (by decide)
  exact (qisort_sorts_iff (by decide) (by decide) (by rfl)).2.2 hends

/-- **Two strings** that are not in order stay so. -/
theorem qisort_two : ¬ ∀ (arr : List CString) (indx : List ℕ), 1 ≤ arr.length →
    arr.length < 2 ^ 24 → indx.length = arr.length →
      ∃ indx', qisort arr arr.length indx = .ok indx' ∧ SortsBy arr indx' := by
  intro h
  obtain ⟨indx', hrun, -, hsorted⟩ :=
    h [.ofBytes [98], .ofBytes [97]] [0, 0] (by decide) (by decide) rfl
  have hleft : qisort [.ofBytes [98], .ofBytes [97]] 2 [0, 0] = .ok [0, 1] := rfl
  cases hleft.symm.trans hrun
  revert hsorted
  decide

end Broker
end Jozabad
