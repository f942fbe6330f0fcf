import Mathlib.Data.List.AList

/-!
# Hash tables with a traversal order

A `Table κ α` is a finite map whose entries are visited in some order, as the
buckets of a hash table are. It is Mathlib's association list at a constant
family, under the operations a hash table has: `get?`, `set`, `remove`, `modify`
(a write through a pointer that a lookup returned, which leaves the entry where
it is), `find` (the first entry, in traversal order, that meets a predicate) and
`size`. Two tables with the same entries in another order are `SameEntries`;
everything but `find` gives the same answer on both.

Each operation has one lemma that says what `get?` returns after it, and what
`find` finds is specified through `get?` by `find_eq_some`.
-/

universe u v

/-- A hash table: entries with pairwise different keys, in traversal order. -/
abbrev Table (κ : Type u) (α : Type v) := AList (fun _ : κ => α)

namespace Table

variable {κ : Type u} {α : Type v}

/-- The number of entries. -/
def size (t : Table κ α) : ℕ :=
  t.entries.length

/-- The first entry, in traversal order, that meets `p`. -/
def find (t : Table κ α) (p : κ → α → Bool) : Option (κ × α) :=
  (t.entries.find? fun e => p e.1 e.2).map fun e => (e.1, e.2)

/-- The same entries, visited in another order. -/
def SameEntries (t t' : Table κ α) : Prop :=
  t.entries.Perm t'.entries

variable [DecidableEq κ]

/-- The value stored under `k`. -/
def get? (t : Table κ α) (k : κ) : Option α :=
  AList.lookup k t

/-- Store `a` under `k`, in place of whatever was there. -/
def set (t : Table κ α) (k : κ) (a : α) : Table κ α :=
  AList.insert k a t

/-- Remove the entry of `k`. -/
def remove (t : Table κ α) (k : κ) : Table κ α :=
  AList.erase k t

/-- Rewrite the value stored under `k`, leaving the entry where it is. -/
def modify (t : Table κ α) (k : κ) (f : α → α) : Table κ α where
  entries := t.entries.map fun e => ⟨e.1, if e.1 = k then f e.2 else e.2⟩
  nodupKeys := by
    have hkeys : (t.entries.map fun e : (_ : κ) × α =>
        (⟨e.1, if e.1 = k then f e.2 else e.2⟩ : (_ : κ) × α)).keys = t.entries.keys := by
      simp [List.keys, Function.comp_def]
    rw [List.NodupKeys, hkeys]
    exact t.nodupKeys

variable {t t' : Table κ α} {k k' : κ} {a b : α} {f : α → α} {p : κ → α → Bool}

/-! ### Lookups -/

theorem get?_eq_some : t.get? k = some a ↔ (⟨k, a⟩ : (_ : κ) × α) ∈ t.entries :=
  AList.mem_lookup_iff

theorem ext_get? {o : Option α} (h : ∀ a, t.get? k = some a ↔ o = some a) : t.get? k = o :=
  Option.ext h

@[simp] theorem get?_empty : (∅ : Table κ α).get? k = none := rfl

theorem get?_set : (t.set k a).get? k' = if k' = k then some a else t.get? k' := by
  by_cases h : k' = k
  · subst h
    rw [if_pos rfl]
    exact AList.lookup_insert t
  · rw [if_neg h]
    exact AList.lookup_insert_ne h

theorem get?_remove : (t.remove k).get? k' = if k' = k then none else t.get? k' := by
  by_cases h : k' = k
  · subst h
    rw [if_pos rfl]
    exact AList.lookup_erase k' t
  · rw [if_neg h]
    exact AList.lookup_erase_ne h

theorem get?_modify : (t.modify k f).get? k' = if k' = k then (t.get? k').map f else t.get? k' := by
  refine ext_get? fun a => ?_
  rw [get?_eq_some]
  by_cases h : k' = k
  · subst h
    simp only [modify, List.mem_map, Sigma.mk.injEq, heq_eq_eq, if_true, Option.map_eq_some_iff,
      get?_eq_some]
    constructor
    · rintro ⟨⟨k₀, a₀⟩, hmem, rfl, rfl⟩
      exact ⟨a₀, hmem, by simp⟩
    · rintro ⟨a₀, hmem, rfl⟩
      exact ⟨⟨k', a₀⟩, hmem, rfl, by simp⟩
  · simp only [modify, List.mem_map, Sigma.mk.injEq, heq_eq_eq, if_neg h, get?_eq_some]
    constructor
    · rintro ⟨⟨k₀, a₀⟩, hmem, rfl, rfl⟩
      rwa [if_neg h]
    · intro hmem
      exact ⟨⟨k', a⟩, hmem, rfl, if_neg h⟩

@[simp] theorem get?_set_self : (t.set k a).get? k = some a := by simp [get?_set]

@[simp] theorem get?_remove_self : (t.remove k).get? k = none := by simp [get?_remove]

theorem get?_set_of_ne (h : k' ≠ k) : (t.set k a).get? k' = t.get? k' := by simp [get?_set, h]

theorem get?_remove_of_ne (h : k' ≠ k) : (t.remove k).get? k' = t.get? k' := by
  simp [get?_remove, h]

theorem get?_modify_of_ne (h : k' ≠ k) : (t.modify k f).get? k' = t.get? k' := by
  simp [get?_modify, h]

theorem get?_modify_self (h : t.get? k = some a) : (t.modify k f).get? k = some (f a) := by
  simp [get?_modify, h]

/-! The lookups of a table as a function. -/

theorem get?_set_eq_update : (t.set k a).get? = Function.update t.get? k (some a) := by
  funext k'
  rw [get?_set, Function.update_apply]

theorem get?_modify_eq_update (h : t.get? k = some a) :
    (t.modify k f).get? = Function.update t.get? k (some (f a)) := by
  funext k'
  rw [get?_modify, Function.update_apply]
  split_ifs with hk
  · rw [hk, h]
    rfl
  · rfl

/-- Writing back the stored value changes nothing. -/
theorem modify_eq_self (h : t.get? k = some a) : (t.modify k fun _ => a) = t := by
  refine AList.ext ?_
  refine (List.map_congr_left fun e he => ?_).trans (List.map_id _)
  by_cases hk : e.1 = k
  · have hmem : (⟨k, e.2⟩ : (_ : κ) × α) ∈ t.entries := hk ▸ he
    have ha : e.2 = a := by
      rw [← get?_eq_some, h, Option.some.injEq] at hmem
      exact hmem.symm
    rw [if_pos hk, ← ha]
    rfl
  · rw [if_neg hk]
    rfl

/-- The keys of a table are those that it has an entry for. -/
theorem mem_keys : k ∈ t.keys ↔ (t.get? k).isSome := by
  rw [← AList.mem_keys, ← AList.lookup_isSome, get?]

/-! ### The first entry that meets a predicate -/

theorem find_eq_some (h : t.find p = some (k, a)) : t.get? k = some a ∧ p k a = true := by
  simp only [find, Option.map_eq_some_iff, Prod.mk.injEq] at h
  obtain ⟨e, he, rfl, rfl⟩ := h
  have hp := List.find?_some he
  exact ⟨get?_eq_some.2 (List.mem_of_find?_eq_some he), hp⟩

theorem find_eq_none : t.find p = none ↔ ∀ k a, t.get? k = some a → p k a = false := by
  simp only [find, Option.map_eq_none_iff, List.find?_eq_none, get?_eq_some, Bool.not_eq_true]
  exact ⟨fun h k a hmem => h ⟨k, a⟩ hmem, fun h e he => h e.1 e.2 he⟩

/-- A rewrite that the predicate does not see leaves the search where it was. -/
theorem find_modify (hp : ∀ k a, p k (f a) = p k a) :
    (t.modify k f).find p = (t.find p).map fun e => (e.1, if e.1 = k then f e.2 else e.2) := by
  have hcomp : (fun e : (_ : κ) × α => p e.1 e.2) ∘ (fun e : (_ : κ) × α =>
      (⟨e.1, if e.1 = k then f e.2 else e.2⟩ : (_ : κ) × α)) = fun e => p e.1 e.2 := by
    funext e
    rw [Function.comp_apply]
    split_ifs
    · exact hp e.1 e.2
    · rfl
  simp only [find, modify, List.find?_map, hcomp, Option.map_map]
  rfl

/-! ### The number of entries -/

theorem size_set_le : (t.set k a).size ≤ t.size + 1 := by
  have hle := (List.kerase_sublist k t.entries).length_le
  simp only [size, set, AList.entries_insert, List.length_cons]
  omega

theorem size_remove_le : (t.remove k).size ≤ t.size :=
  (List.kerase_sublist k t.entries).length_le

@[simp] theorem size_modify : (t.modify k f).size = t.size := by
  simp [size, modify]

theorem size_eq_zero : t.size = 0 ↔ ∀ k, t.get? k = none := by
  rw [size, List.length_eq_zero_iff, List.eq_nil_iff_forall_not_mem]
  constructor
  · intro h k
    refine ext_get? fun a => ?_
    exact iff_of_false (fun hget => h _ (get?_eq_some.1 hget)) (by simp)
  · rintro h ⟨k, a⟩ hmem
    rw [← get?_eq_some, h k] at hmem
    cases hmem

/-! ### Reordering -/

theorem SameEntries.get? (h : t.SameEntries t') : t.get? k = t'.get? k :=
  AList.perm_lookup h

omit [DecidableEq κ] in
theorem SameEntries.size (h : SameEntries t t') : t.size = t'.size :=
  h.length_eq

end Table
