import Jozabad.Broker.Call
import Jozabad.Broker.Poll
import Jozabad.Lib.Probe
import Mathlib.Data.Finset.Card

/-!
# The search for a free number (`channels_table_find_free_lcn`)

The search is meant to go round the numbers from its start to the first one that is not
in the table. `FirstFree` is that number, and a table with fewer channels than there are
numbers always leaves one (`existsUnique_firstFree`).

The loop asks the table for the address of its own parameter, which is no number that a
channel can have, so that it never goes round: it gives back the start
(`channelsTableFindFreeLcn_start`), whether a channel has it or not. `allocates_iff` is
the exact condition under which this is the first free number.
-/

namespace Jozabad
namespace Broker

variable {t : ChannelsTable} {start l : Lcn}

/-- The largest valid Logical Channel Number. -/
def LCN_MAX : Lcn := 65535

/-- The number after `l`, and after the largest one the smallest. -/
def nextLcn (l : Lcn) : Lcn :=
  if l = LCN_MAX then LCN_MIN else l + 1

/-- The first number from `start` on, in cyclic order, that no channel has. -/
def FirstFree (t : ChannelsTable) (start l : Lcn) : Prop :=
  Probe.First nextLcn (fun l => t.get? l.toNat = none) start l

/-- The search for a free number stops, at the first free number from `start` on. -/
def Allocates (t : ChannelsTable) (lcnAddr : ℕ) (start : Lcn) : Prop :=
  ∃ l, channelsTableFindFreeLcn t lcnAddr start = .ok l ∧ FirstFree t start l ∧
    LCN_MIN ≤ l ∧ l ≤ LCN_MAX ∧ l ≠ 0 ∧ t.get? l.toNat = none

/-! ### Going round the numbers -/

theorem LCN_MIN_le_iff : LCN_MIN ≤ l ↔ 1 ≤ l.toNat :=
  UInt16.le_iff_toNat_le

theorem le_LCN_MAX : l ≤ LCN_MAX := by
  have := l.toNat_lt
  exact UInt16.le_iff_toNat_le.2 (by change l.toNat ≤ 65535; omega)

theorem toNat_nextLcn (h : LCN_MIN ≤ l) : (nextLcn l).toNat = 1 + l.toNat % 65535 := by
  have hlt := l.toNat_lt
  have hpos := LCN_MIN_le_iff.1 h
  unfold nextLcn
  split_ifs with hmax
  · rw [hmax]
    rfl
  · have hne : l.toNat ≠ 65535 := fun heq => hmax (UInt16.toNat_inj.1 heq)
    rw [UInt16.toNat_add, UInt16.toNat_one, Nat.mod_eq_of_lt (a := l.toNat + 1) (by omega),
      Nat.mod_eq_of_lt (by omega)]
    omega

theorem LCN_MIN_le_nextLcn (h : LCN_MIN ≤ l) : LCN_MIN ≤ nextLcn l := by
  rw [LCN_MIN_le_iff, toNat_nextLcn h]
  omega

theorem LCN_MIN_le_iterate (h : LCN_MIN ≤ l) (k : ℕ) : LCN_MIN ≤ nextLcn^[k] l := by
  induction k with
  | zero => exact h
  | succ k ih =>
    rw [Function.iterate_succ_apply']
    exact LCN_MIN_le_nextLcn ih

/-- Going on by `k` numbers. -/
theorem toNat_iterate_nextLcn (h : LCN_MIN ≤ l) (k : ℕ) :
    (nextLcn^[k] l).toNat = 1 + (l.toNat - 1 + k) % 65535 := by
  have hpos := LCN_MIN_le_iff.1 h
  induction k with
  | zero =>
    have hlt := l.toNat_lt
    rw [Function.iterate_zero_apply, Nat.mod_eq_of_lt (by omega)]
    omega
  | succ k ih =>
    rw [Function.iterate_succ_apply', toNat_nextLcn (LCN_MIN_le_iterate h k), ih]
    omega

/-- One round visits each number once. -/
theorem iterate_nextLcn_injOn (h : LCN_MIN ≤ l) :
    Set.InjOn (fun k => nextLcn^[k] l) (Finset.range 65535 : Set ℕ) := by
  intro j hj k hk heq
  have heq' := congrArg UInt16.toNat heq
  simp only [toNat_iterate_nextLcn h] at heq'
  simp only [Finset.coe_range, Set.mem_Iio] at hj hk
  omega

/-! ### The first free number -/

/-- The numbers that channels have. -/
def takenLcns (t : ChannelsTable) : Finset Lcn :=
  (t.entries.map fun e => UInt16.ofNat e.1).toFinset

theorem card_takenLcns_le : (takenLcns t).card ≤ t.size := by
  refine (List.toFinset_card_le _).trans ?_
  rw [List.length_map]
  rfl

theorem get?_eq_none_of_notMem (h : l ∉ takenLcns t) : t.get? l.toNat = none := by
  cases hc : t.get? l.toNat with
  | none => rfl
  | some c =>
    refine absurd (List.mem_toFinset.2 (List.mem_map.2 ⟨_, Table.get?_eq_some.1 hc, ?_⟩)) h
    exact UInt16.ofNat_toNat

theorem existsUnique_firstFree (hsize : t.size < 65535) (hstart : LCN_MIN ≤ start) :
    ∃! l, FirstFree t start l := by
  have hex : ∃ l, FirstFree t start l :=
    Probe.exists_first (fun _ => get?_eq_none_of_notMem) (iterate_nextLcn_injOn hstart)
      (card_takenLcns_le.trans_lt hsize)
  obtain ⟨l, hl⟩ := hex
  exact ⟨l, hl, fun l' hl' => hl'.unique hl⟩

/-- The first free number is a valid one, and no channel has it. -/
theorem FirstFree.valid (h : FirstFree t start l) (hstart : LCN_MIN ≤ start) :
    LCN_MIN ≤ l ∧ l ≤ LCN_MAX ∧ l ≠ 0 ∧ t.get? l.toNat = none := by
  have hmin : LCN_MIN ≤ l := Probe.First.of_kept h (fun _ => LCN_MIN_le_nextLcn) hstart
  have hfree : t.get? l.toNat = none := h.isFree
  refine ⟨hmin, le_LCN_MAX, ?_, hfree⟩
  rintro rfl
  exact absurd (LCN_MIN_le_iff.1 hmin) (by decide)

/-! ### What the search returns -/

/-- No channel is stored under an address, so that the search returns its start. -/
theorem channelsTableFindFreeLcn_start (env : Env)
    (hkeys : ∀ l c, t.get? l = some c → l ≤ LCN_MAX.toNat) :
    channelsTableFindFreeLcn t env.lcnAddr start = .ok start := by
  unfold channelsTableFindFreeLcn
  cases hc : t.get? env.lcnAddr with
  | none => rfl
  | some c =>
    have hle : env.lcnAddr ≤ 65535 := hkeys _ c hc
    have hge := env.lcnAddr_ge
    omega

/-- **Allocation.** In a table with channels under valid numbers only, and fewer of them
than there are numbers, there is exactly one first free number from `start` on, and the
search returns it exactly if no channel has the number `start`. -/
theorem allocates_iff (env : Env)
    (hkeys : ∀ l c, t.get? l = some c → LCN_MIN.toNat ≤ l ∧ l ≤ LCN_MAX.toNat)
    (hsize : t.size < LCN_MAX.toNat - LCN_MIN.toNat + 1)
    (hstart : LCN_MIN ≤ start ∧ start ≤ LCN_MAX) :
    (∃! l, FirstFree t start l) ∧
      (Allocates t env.lcnAddr start ↔ t.get? start.toNat = none) := by
  refine ⟨existsUnique_firstFree hsize hstart.1, ?_⟩
  have hfind : channelsTableFindFreeLcn t env.lcnAddr start = .ok start :=
    channelsTableFindFreeLcn_start env fun l c hc => (hkeys l c hc).2
  constructor
  · rintro ⟨l, hl, -, -, -, -, hfree⟩
    rw [hfind, Except.ok.injEq] at hl
    rwa [hl]
  · intro hfree
    have hfirst : FirstFree t start start := Probe.First.self_iff.2 hfree
    exact ⟨start, hfind, hfirst, hfirst.valid hstart.1⟩

/-- A table with one call, under the number 1. -/
def oneCall : ChannelsTable :=
  (∅ : ChannelsTable).set LCN_MIN.toNat newCall

theorem oneCall_keys {k : ℕ} {c : Channel} (h : oneCall.get? k = some c) :
    LCN_MIN.toNat ≤ k ∧ k ≤ LCN_MAX.toNat := by
  unfold oneCall at h
  rw [Table.get?_set] at h
  split_ifs at h with hk
  · subst hk
    decide
  · cases h

/-- From 2 on, the search of this table returns 2. -/
theorem allocates_two : Allocates oneCall quietEnv.lcnAddr 2 :=
  (allocates_iff quietEnv (fun _ _ => oneCall_keys) (by decide) (by decide)).2.2 rfl

/-- **No allocation.** From 1 on, 2 is the first free number, and the search returns the
number of the call. -/
theorem not_allocates_oneCall :
    ¬ ∀ (env : Env) (t : ChannelsTable) (start : Lcn),
      (∀ l c, t.get? l = some c → LCN_MIN.toNat ≤ l ∧ l ≤ LCN_MAX.toNat) →
      t.size < LCN_MAX.toNat - LCN_MIN.toNat + 1 → LCN_MIN ≤ start ∧ start ≤ LCN_MAX →
      Allocates t env.lcnAddr start := by
  intro hclaim
  obtain ⟨l, hl, -, -, -, -, hfree⟩ :=
    hclaim quietEnv oneCall LCN_MIN (fun _ _ => oneCall_keys) (by decide) (by decide)
  have hstart : Except.ok LCN_MIN = Except.ok (ε := Fault) l := hl
  cases hstart
  cases hfree

end Broker
end Jozabad
