import Jozabad.Lib.Wire

/-!
# Records of plain and counted pieces

A record is laid out as a list of pieces: a number of some bytes, or a length of some
bytes and as many bytes as it says. `Spells fs bs` says that `bs` are the bytes of such a
record. `Breaks fs taken left` says where the reading of a record comes to a stop: after
`taken`, at `left`, which is too short for what is wanted there.

`scan` reads a record off the front of a byte list, and it comes to one of the two ends
(`scan_eq_true`, `scan_eq_false`). A reader of the record follows it
(`Reader.Follows`), and readers are put together as layouts are (`Follows.bind`).
-/

namespace Layout

/-- A piece of a record. -/
inductive Piece where
  /-- A number of `n` bytes. -/
  | number (n : ℕ)
  /-- A length of `n` bytes, and as many bytes as it says. -/
  | counted (n : ℕ)
  deriving DecidableEq, Repr

/-- `bs` are the bytes of one piece. -/
inductive Piece.Spells : Piece → List UInt8 → Prop
  | number {n bs} (h : bs.length = n) : Spells (.number n) bs
  | counted {n len bs} (hlen : len.length = n) (hbs : bs.length = toNumber len) :
    Spells (.counted n) (len ++ bs)

/-- `bs` are the bytes of the pieces, one after the other. -/
inductive Spells : List Piece → List UInt8 → Prop
  | nil : Spells [] []
  | cons {f fs a b} (hf : f.Spells a) (hfs : Spells fs b) : Spells (f :: fs) (a ++ b)

/-- The pieces are read off `taken ++ left` as far as `left`, which is too short for the
number, the length, or the bytes that a length announces. -/
inductive Breaks : List Piece → List UInt8 → List UInt8 → Prop
  | number {n fs left} (h : left.length < n) : Breaks (.number n :: fs) [] left
  | length {n fs left} (h : left.length < n) : Breaks (.counted n :: fs) [] left
  | content {n fs len left} (hlen : len.length = n) (h : left.length < toNumber len) :
    Breaks (.counted n :: fs) len left
  | next {f fs a b left} (hf : f.Spells a) (hfs : Breaks fs b left) :
    Breaks (f :: fs) (a ++ b) left

/-- Read the pieces off the front of a byte list, as far as this goes. The result says
whether all of them were there, and what is left. -/
def scan : List Piece → List UInt8 → Bool × List UInt8
  | [], bs => (true, bs)
  | .number n :: fs, bs => if bs.length < n then (false, bs) else scan fs (bs.drop n)
  | .counted n :: fs, bs =>
    if bs.length < n then (false, bs)
    else if (bs.drop n).length < toNumber (bs.take n) then (false, bs.drop n)
    else scan fs ((bs.drop n).drop (toNumber (bs.take n)))

variable {fs gs : List Piece} {f : Piece} {a b bs rest : List UInt8}

/-! ### Where the scan ends -/

theorem scan_piece (hf : f.Spells a) : scan (f :: fs) (a ++ rest) = scan fs rest := by
  cases hf with
  | number h =>
    subst h
    rw [scan, if_neg (by simp), List.drop_left]
  | @counted n len bs hlen hbs =>
    subst hlen
    rw [scan, List.append_assoc, List.drop_left, List.take_left, if_neg (by simp), ← hbs,
      if_neg (by simp), List.drop_left]

theorem Spells.scan (h : Spells fs a) (rest : List UInt8) :
    Layout.scan fs (a ++ rest) = (true, rest) := by
  induction h with
  | nil => rfl
  | cons hf hfs ih => rw [List.append_assoc, scan_piece hf, ih]

theorem Breaks.scan (h : Breaks fs a rest) : Layout.scan fs (a ++ rest) = (false, rest) := by
  induction h with
  | number h | length h => rw [List.nil_append, Layout.scan, if_pos h]
  | content hlen h =>
    subst hlen
    rw [Layout.scan, List.drop_left, List.take_left, if_neg (by simp), if_pos h]
  | next hf hfs ih => rw [List.append_assoc, scan_piece hf, ih]

/-- The scan comes to one of the two ends. -/
theorem scan_cases (fs : List Piece) (bs : List UInt8) :
    (∃ a rest, bs = a ++ rest ∧ Spells fs a) ∨ ∃ a rest, bs = a ++ rest ∧ Breaks fs a rest := by
  -- Behind the first piece `a`, the induction hypothesis says how it goes on.
  have hnext {f : Piece} {fs : List Piece} {a b bs : List UInt8} (hbs : bs = a ++ b)
      (hf : f.Spells a) (ih : (∃ c rest, b = c ++ rest ∧ Spells fs c) ∨
        ∃ c rest, b = c ++ rest ∧ Breaks fs c rest) :
      (∃ c rest, bs = c ++ rest ∧ Spells (f :: fs) c) ∨
        ∃ c rest, bs = c ++ rest ∧ Breaks (f :: fs) c rest := by
    subst hbs
    obtain ⟨c, rest, rfl, hc⟩ | ⟨c, rest, rfl, hc⟩ := ih
    · exact .inl ⟨a ++ c, rest, (List.append_assoc a c rest).symm, .cons hf hc⟩
    · exact .inr ⟨a ++ c, rest, (List.append_assoc a c rest).symm, .next hf hc⟩
  induction fs generalizing bs with
  | nil => exact .inl ⟨[], bs, rfl, .nil⟩
  | cons f fs ih =>
    cases f with
    | number n =>
      by_cases hlen : bs.length < n
      · exact .inr ⟨[], bs, rfl, .number hlen⟩
      · have htake : (bs.take n).length = n := List.length_take_of_le (not_lt.1 hlen)
        exact hnext (List.take_append_drop n bs).symm (.number htake) (ih _)
    | counted n =>
      by_cases hlen : bs.length < n
      · exact .inr ⟨[], bs, rfl, .length hlen⟩
      · have htake : (bs.take n).length = n := List.length_take_of_le (not_lt.1 hlen)
        by_cases hcontent : (bs.drop n).length < toNumber (bs.take n)
        · exact .inr ⟨_, _, (List.take_append_drop n bs).symm, .content htake hcontent⟩
        · have hbytes := List.length_take_of_le (not_lt.1 hcontent)
          refine hnext ?_ (.counted htake hbytes) (ih ((bs.drop n).drop (toNumber (bs.take n))))
          rw [List.append_assoc, List.take_append_drop, List.take_append_drop]

theorem scan_eq_true :
    scan fs bs = (true, rest) ↔ ∃ a, bs = a ++ rest ∧ Spells fs a := by
  constructor
  · intro h
    obtain ⟨a, rest', rfl, ha⟩ | ⟨a, rest', rfl, ha⟩ := scan_cases fs bs
    · rw [ha.scan rest', Prod.mk.injEq] at h
      exact ⟨a, by rw [h.2], ha⟩
    · rw [ha.scan] at h
      cases h
  · rintro ⟨a, rfl, ha⟩
    exact ha.scan rest

theorem scan_eq_false :
    scan fs bs = (false, rest) ↔ ∃ a, bs = a ++ rest ∧ Breaks fs a rest := by
  constructor
  · intro h
    obtain ⟨a, rest', rfl, ha⟩ | ⟨a, rest', rfl, ha⟩ := scan_cases fs bs
    · rw [ha.scan rest'] at h
      cases h
    · rw [ha.scan, Prod.mk.injEq] at h
      exact ⟨a, by rw [h.2], h.2 ▸ ha⟩
  · rintro ⟨a, rfl, ha⟩
    exact ha.scan

/-- A scan without a rest has read all bytes, or has come to a stop behind them. -/
theorem scan_snd_eq_nil : (scan fs bs).2 = [] ↔ Spells fs bs ∨ Breaks fs bs [] := by
  constructor
  · intro h
    cases hscan : scan fs bs with
    | mk whole rest =>
      rw [hscan] at h
      cases h
      cases whole with
      | true =>
        obtain ⟨a, rfl, ha⟩ := scan_eq_true.1 hscan
        rw [List.append_nil]
        exact .inl ha
      | false =>
        obtain ⟨a, rfl, ha⟩ := scan_eq_false.1 hscan
        rw [List.append_nil]
        exact .inr ha
  · rintro (h | h)
    · have hscan := h.scan []
      rw [List.append_nil] at hscan
      rw [hscan]
    · have hscan := h.scan
      rw [List.append_nil] at hscan
      rw [hscan]

/-! ### One layout behind another -/

theorem Spells.append (ha : Spells fs a) (hb : Spells gs b) : Spells (fs ++ gs) (a ++ b) := by
  induction ha with
  | nil => exact hb
  | cons hf hfs ih =>
    rw [List.append_assoc]
    exact .cons hf ih

theorem spells_append :
    Spells (fs ++ gs) bs ↔ ∃ a b, bs = a ++ b ∧ Spells fs a ∧ Spells gs b := by
  constructor
  · intro h
    induction fs generalizing bs with
    | nil => exact ⟨[], bs, rfl, .nil, h⟩
    | cons f fs ih =>
      cases h with
      | @cons _ _ a₀ b₀ hf hfs =>
        obtain ⟨a, b, rfl, ha, hb⟩ := ih hfs
        exact ⟨a₀ ++ a, b, (List.append_assoc a₀ a b).symm, .cons hf ha, hb⟩
  · rintro ⟨a, b, rfl, ha, hb⟩
    exact ha.append hb

theorem scan_append : scan (fs ++ gs) bs =
    if (scan fs bs).1 then scan gs (scan fs bs).2 else scan fs bs := by
  induction fs generalizing bs with
  | nil => rfl
  | cons f fs ih =>
    cases f with
    | number n =>
      rw [List.cons_append, scan, scan]
      split_ifs with hlen hwhole hwhole
      · cases hwhole
      · rfl
      · rw [ih, if_pos hwhole]
      · rw [ih, if_neg hwhole]
    | counted n =>
      rw [List.cons_append, scan, scan]
      split_ifs with hlen hwhole hcontent hwhole hwhole
      · cases hwhole
      · rfl
      · cases hwhole
      · rfl
      · rw [ih, if_pos hwhole]
      · rw [ih, if_neg hwhole]

theorem length_scan_le (fs : List Piece) (bs : List UInt8) :
    (scan fs bs).2.length ≤ bs.length := by
  obtain ⟨a, rest, rfl, ha⟩ | ⟨a, rest, rfl, ha⟩ := scan_cases fs bs
  · rw [ha.scan, List.length_append]
    exact Nat.le_add_left _ _
  · rw [ha.scan, List.length_append]
    exact Nat.le_add_left _ _

/-- Numbers are spelled by all bytes of their total length. -/
theorem spells_numbers {ns : List ℕ} : Spells (ns.map .number) bs ↔ bs.length = ns.sum := by
  constructor
  · intro h
    induction ns generalizing bs with
    | nil =>
      cases h
      rfl
    | cons n ns ih =>
      cases h with
      | cons hf hfs =>
        cases hf with
        | number hlen => rw [List.length_append, ih hfs, hlen, List.sum_cons]
  · intro h
    induction ns generalizing bs with
    | nil =>
      rw [List.length_eq_zero_iff.1 h]
      exact .nil
    | cons n ns ih =>
      rw [List.sum_cons] at h
      rw [List.map_cons, ← List.take_append_drop n bs]
      refine .cons (.number (List.length_take_of_le (by omega))) (ih ?_)
      rw [List.length_drop]
      omega

end Layout

/-! ### Readers -/

namespace Reader

open Layout

variable {ε α β : Type} {max : ℕ} {fs gs : List Piece}

/-- On inputs of up to `max` bytes, `r` succeeds where the scan of the pieces does, and it
leaves what the scan leaves. -/
def Follows (max : ℕ) (r : Reader ε α) (fs : List Piece) : Prop :=
  ∀ input : List UInt8, input.length ≤ max →
    (r.on input).1.toOption.isSome = (scan fs input).1 ∧ (r.on input).2 = (scan fs input).2

theorem on_bind (r : Reader ε α) (f : α → Reader ε β) (input : List UInt8) :
    (r >>= f).on input = match r.on input with
      | (.ok a, mid) => (f a).on mid
      | (.error e, mid) => (.error e, mid) := by
  unfold on
  rw [ExceptT.run_bind, StateT.run_bind]
  cases h : StateT.run (ExceptT.run r) input with
  | mk result mid => cases result <;> rfl

theorem Follows.pure (max : ℕ) (a : α) : Follows max (Pure.pure a : Reader ε α) [] :=
  fun _ _ => ⟨rfl, rfl⟩

/-- Layouts are put together as their readers are. -/
theorem Follows.bind {r : Reader ε α} {f : α → Reader ε β} (hr : Follows max r fs)
    (hf : ∀ a, Follows max (f a) gs) : Follows max (r >>= f) (fs ++ gs) := by
  intro input hmax
  obtain ⟨hok, hleft⟩ := hr input hmax
  have hmid : (scan fs input).2.length ≤ max := (length_scan_le fs input).trans hmax
  rw [on_bind, scan_append]
  cases hread : r.on input with
  | mk result mid =>
    rw [hread] at hok hleft
    cases result with
    | error e =>
      have hstop : (scan fs input).1 = false := hok.symm
      rw [hstop, if_neg Bool.false_ne_true]
      exact ⟨hstop.symm, hleft⟩
    | ok a =>
      have hwhole : (scan fs input).1 = true := hok.symm
      rw [hwhole, if_pos rfl, ← hleft]
      refine hf a mid ?_
      rw [show mid = (scan fs input).2 from hleft]
      exact hmid

/-- What is made of the value does not matter. -/
theorem Follows.map {r : Reader ε α} (g : α → β) (hr : Follows max r fs) :
    Follows max (r >>= fun a => Pure.pure (g a)) fs := by
  have h := hr.bind fun a => Follows.pure (ε := ε) max (g a)
  rwa [List.append_nil] at h

section Pieces

variable (premature : ε)

theorem on_getNumber (n : ℕ) (input : List UInt8) : (getNumber premature n).on input =
    if input.length < n then (.error premature, input)
    else (.ok (toNumber (input.take n)), input.drop n) := by
  have hbytes : (getBytes premature n).on input =
      if input.length < n then (.error premature, input)
      else (.ok (input.take n), input.drop n) := rfl
  rw [getNumber, on_bind, hbytes]
  split_ifs <;> rfl

theorem follows_getBytes (n : ℕ) : Follows max (getBytes premature n) [.number n] := by
  intro input _
  change (if input.length < n then (Except.error premature, input) else
    (Except.ok (input.take n), input.drop n)).1.toOption.isSome = _ ∧
    (if input.length < n then (Except.error premature, input) else
      (Except.ok (input.take n), input.drop n)).2 = _
  rw [scan]
  split_ifs <;> exact ⟨rfl, rfl⟩

theorem follows_getNumber (n : ℕ) : Follows max (getNumber premature n) [.number n] :=
  (follows_getBytes premature n).map toNumber

/-- A length, and what is read by it. -/
theorem Follows.counted {n : ℕ} {r : ℕ → Reader ε α} (hr : ∀ k, Follows max (r k) [.number k]) :
    Follows max (getNumber premature n >>= r) [.counted n] := by
  intro input hmax
  rw [on_bind, on_getNumber, scan]
  split_ifs with hlen hcontent
  · exact ⟨rfl, rfl⟩
  · have hread := hr (toNumber (input.take n)) (input.drop n)
      (by rw [List.length_drop]; exact (Nat.sub_le _ _).trans hmax)
    rwa [scan, if_pos hcontent] at hread
  · have hread := hr (toNumber (input.take n)) (input.drop n)
      (by rw [List.length_drop]; exact (Nat.sub_le _ _).trans hmax)
    rwa [scan, if_neg hcontent] at hread

end Pieces

end Reader
