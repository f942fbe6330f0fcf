import Mathlib.Data.List.Infix

/-!
# Parsing a stream that arrives in chunks

A parser looks at the front of a buffer and finds an item, or a reason to stop, or that
more is needed. A receiver with a buffer of `cap` elements appends what arrives, as long
as there is room, and takes items off the front until more is needed.

`Stable p` says that `p` does not change its mind: an item or a reason to stop that it
finds in a buffer is what it finds in any longer one. Then what a receiver takes out of a
stream depends on the stream alone. `decode` is that result, said without chunks, and
`feed_eq_decode` is the theorem. A chunk may also be refused, with a reason of its own.
Then what has been taken before is a prefix of the result (`feed_log_prefix`).

`Position p cap s s'` says that a receiver of `s` comes to a point where `s'` is left.
-/

namespace Incremental

variable {α β τ : Type}

/-- What a parser finds at the front of a buffer. -/
inductive Found (β τ : Type) where
  /-- There is not enough yet. -/
  | more
  /-- An item, and how much it takes. -/
  | item (b : β) (n : ℕ)
  /-- A reason to stop. -/
  | halt (t : τ)

/-- A parser that looks at a longer buffer finds the same, unless it wanted more. An item
takes something, and no more than there is. -/
structure Stable (p : List α → Found β τ) : Prop where
  bounds : ∀ ⦃buf b n⦄, buf ≠ [] → p buf = .item b n → 0 < n ∧ n ≤ buf.length
  append : ∀ ⦃buf⦄, buf ≠ [] → p buf ≠ .more → ∀ rest, p (buf ++ rest) = p buf

/-- The items that have been taken, and what is left for later or the reason to stop. -/
structure Outcome (α β τ : Type) where
  log : List β
  result : Except τ (List α)

/-- The outcome when `log` has been taken before. -/
def Outcome.after (log : List β) (o : Outcome α β τ) : Outcome α β τ :=
  { o with log := log ++ o.log }

@[simp] theorem Outcome.after_nil (o : Outcome α β τ) : o.after [] = o := rfl

theorem Outcome.after_after (log log' : List β) (o : Outcome α β τ) :
    (o.after log').after log = o.after (log ++ log') :=
  congrArg (Outcome.mk · o.result) (List.append_assoc log log' o.log).symm

/-- Take items off the front until more is needed. More than `cap` elements are never
looked at, and `full` is the reason to stop when that is not enough. -/
def take (p : List α → Found β τ) (cap : ℕ) (full : τ) : ℕ → List α → Outcome α β τ
  | 0, s => ⟨[], .ok s⟩
  | fuel + 1, s =>
    if s.isEmpty then ⟨[], .ok []⟩
    else match p (s.take cap) with
      | .more => if s.length ≤ cap then ⟨[], .ok s⟩ else ⟨[], .error full⟩
      | .item b n => (take p cap full fuel (s.drop n)).after [b]
      | .halt t => ⟨[], .error t⟩

/-- What a receiver makes of a stream. -/
def decode (p : List α → Found β τ) (cap : ℕ) (full : τ) (s : List α) : Outcome α β τ :=
  take p cap full s.length s

/-- The points that a receiver comes to. -/
inductive Position (p : List α → Found β τ) (cap : ℕ) : List α → List α → Prop
  | here (s) : Position p cap s s
  | next {s s' b n} : s ≠ [] → p (s.take cap) = .item b n → Position p cap (s.drop n) s' →
      Position p cap s s'

section Decode

variable {p : List α → Found β τ} {cap : ℕ} {full : τ} {s s' buf c : List α} {b : β} {n : ℕ}
  {t : τ} {log : List β}

/-! ### The steps of `decode` -/

private theorem take_ne_nil (hcap : 0 < cap) (hs : s ≠ []) : s.take cap ≠ [] := by
  rw [Ne, List.take_eq_nil_iff, not_or]
  exact ⟨hcap.ne', hs⟩

/-- Something is taken in each step, and no more than there is. -/
theorem Stable.bounds_take (hp : Stable p) (hcap : 0 < cap) (hs : s ≠ [])
    (h : p (s.take cap) = .item b n) : 0 < n ∧ n ≤ s.length := by
  obtain ⟨hpos, hle⟩ := hp.bounds (take_ne_nil hcap hs) h
  exact ⟨hpos, le_trans hle (List.length_take_le' _ _)⟩

/-- Fuel for every element is enough, since each step leaves less than before. -/
private theorem take_fuel (hp : Stable p) (hcap : 0 < cap) {fuel fuel' : ℕ}
    (h : s.length ≤ fuel) (h' : s.length ≤ fuel') :
    take p cap full fuel s = take p cap full fuel' s := by
  induction fuel generalizing s fuel' with
  | zero =>
    obtain rfl := List.eq_nil_of_length_eq_zero (Nat.le_zero.1 h)
    cases fuel' <;> rfl
  | succ fuel ih =>
    by_cases hs : s = []
    · subst hs
      cases fuel' <;> rfl
    · have hlen := List.length_pos_of_ne_nil hs
      obtain ⟨fuel', rfl⟩ := Nat.exists_eq_succ_of_ne_zero (by omega : fuel' ≠ 0)
      rw [take, take, List.isEmpty_eq_false_iff.2 hs]
      cases hfound : p (s.take cap) with
      | more => rfl
      | halt t => rfl
      | item b n =>
        have hpos := (hp.bounds_take hcap hs hfound).1
        have hdrop : (s.drop n).length = s.length - n := List.length_drop
        exact congrArg (Outcome.after [b]) (ih (by omega) (by omega))

@[simp] theorem decode_nil : decode p cap full [] = ⟨[], .ok []⟩ := rfl

private theorem decode_eq_take (p : List α → Found β τ) (cap : ℕ) (full : τ) (hs : s ≠ []) :
    ∃ fuel, s.length = fuel + 1 ∧ decode p cap full s = take p cap full (fuel + 1) s := by
  obtain ⟨fuel, hfuel⟩ := Nat.exists_eq_succ_of_ne_zero (List.length_pos_of_ne_nil hs).ne'
  exact ⟨fuel, hfuel, by rw [decode, hfuel]⟩

theorem decode_item (hp : Stable p) (hcap : 0 < cap) (hs : s ≠ [])
    (h : p (s.take cap) = .item b n) :
    decode p cap full s = (decode p cap full (s.drop n)).after [b] := by
  obtain ⟨fuel, hfuel, hdecode⟩ := decode_eq_take p cap full hs
  have hpos := (hp.bounds_take hcap hs h).1
  have hdrop : (s.drop n).length ≤ fuel := by
    rw [List.length_drop]
    omega
  rw [hdecode, take, List.isEmpty_eq_false_iff.2 hs, h]
  exact congrArg (Outcome.after [b]) (take_fuel hp hcap hdrop le_rfl)

theorem decode_more (hs : s ≠ []) (h : p (s.take cap) = .more) :
    decode p cap full s = if s.length ≤ cap then ⟨[], .ok s⟩ else ⟨[], .error full⟩ := by
  obtain ⟨fuel, -, hdecode⟩ := decode_eq_take p cap full hs
  rw [hdecode, take, List.isEmpty_eq_false_iff.2 hs, h]
  rfl

theorem decode_halt (hs : s ≠ []) (h : p (s.take cap) = .halt t) :
    decode p cap full s = ⟨[], .error t⟩ := by
  obtain ⟨fuel, -, hdecode⟩ := decode_eq_take p cap full hs
  rw [hdecode, take, List.isEmpty_eq_false_iff.2 hs, h]
  rfl

/-- Induction along the items of a stream. -/
theorem Stable.rec_drop (hp : Stable p) (hcap : 0 < cap) {motive : List α → Prop}
    (nil : motive [])
    (more : ∀ s, s ≠ [] → p (s.take cap) = .more → motive s)
    (item : ∀ s b n, s ≠ [] → p (s.take cap) = .item b n → motive (s.drop n) → motive s)
    (halt : ∀ s t, s ≠ [] → p (s.take cap) = .halt t → motive s) (s : List α) : motive s := by
  induction hk : s.length using Nat.strong_induction_on generalizing s with
  | _ k ih =>
    by_cases hs : s = []
    · exact hs ▸ nil
    · cases hfound : p (s.take cap) with
      | more => exact more s hs hfound
      | halt t => exact halt s t hs hfound
      | item b n =>
        obtain ⟨hpos, hle⟩ := hp.bounds_take hcap hs hfound
        refine item s b n hs hfound (ih _ ?_ (s.drop n) rfl)
        rw [List.length_drop]
        omega

/-! ### Appending -/

/-- What is found in the first `cap` elements does not depend on what is appended. -/
private theorem take_append (hp : Stable p) (hcap : 0 < cap) (hs : s ≠ [])
    (h : p (s.take cap) ≠ .more) (c : List α) : p ((s ++ c).take cap) = p (s.take cap) := by
  rw [List.take_append]
  exact hp.append (take_ne_nil hcap hs) h _

private theorem decode_append_item (hp : Stable p) (hcap : 0 < cap) (hs : s ≠ [])
    (h : p (s.take cap) = .item b n) (c : List α) :
    decode p cap full (s ++ c) = (decode p cap full (s.drop n ++ c)).after [b] := by
  have hc : p ((s ++ c).take cap) = .item b n :=
    (take_append hp hcap hs (by rw [h]; nofun) c).trans h
  rw [decode_item hp hcap (List.append_ne_nil_of_left_ne_nil hs c) hc,
    List.drop_append_of_le_length (hp.bounds_take hcap hs h).2]

/-- **A stream can be taken in two parts.** What is left of the first is put before the
second. -/
theorem decode_append_ok (hp : Stable p) (hcap : 0 < cap)
    (h : (decode p cap full s).result = .ok buf) (c : List α) :
    decode p cap full (s ++ c) =
      (decode p cap full (buf ++ c)).after (decode p cap full s).log := by
  induction s using hp.rec_drop hcap with
  | nil =>
    cases h
    rfl
  | more s hs hfound =>
    rw [decode_more hs hfound] at h ⊢
    split_ifs at h with hlen
    cases h
    rw [if_pos hlen, Outcome.after_nil]
  | item s b n hs hfound ih =>
    rw [decode_item hp hcap hs hfound] at h ⊢
    rw [decode_append_item hp hcap hs hfound, ih h, Outcome.after_after]
    rfl
  | halt s t hs hfound =>
    rw [decode_halt hs hfound] at h
    cases h

/-- A stream is over where there is a reason to stop. -/
theorem decode_append_error (hp : Stable p) (hcap : 0 < cap)
    (h : (decode p cap full s).result = .error t) (c : List α) :
    decode p cap full (s ++ c) = decode p cap full s := by
  induction s using hp.rec_drop hcap with
  | nil => cases h
  | more s hs hfound =>
    -- The buffer is full, so that nothing of `c` is looked at.
    rw [decode_more hs hfound] at h ⊢
    split_ifs at h with hlen
    have hc : (s ++ c).take cap = s.take cap :=
      List.take_append_of_le_length (le_of_not_ge hlen)
    have hlong : ¬ (s ++ c).length ≤ cap := by
      rw [List.length_append]
      omega
    rw [decode_more (List.append_ne_nil_of_left_ne_nil hs c) (by rw [hc, hfound]), if_neg hlong,
      if_neg hlen]
  | item s b n hs hfound ih =>
    rw [decode_item hp hcap hs hfound] at h ⊢
    rw [decode_append_item hp hcap hs hfound, ih h]
  | halt s t hs hfound =>
    have hc : p ((s ++ c).take cap) = .halt t :=
      (take_append hp hcap hs (by rw [hfound]; nofun) c).trans hfound
    rw [decode_halt hs hfound, decode_halt (List.append_ne_nil_of_left_ne_nil hs c) hc]

/-! ### What is left -/

/-- What a receiver keeps in its buffer while it waits. -/
structure Resting (p : List α → Found β τ) (cap : ℕ) (buf : List α) : Prop where
  length_le : buf.length ≤ cap
  more : buf ≠ [] → p buf = .more

theorem resting_nil : Resting p cap [] :=
  ⟨Nat.zero_le cap, fun h => absurd rfl h⟩

theorem resting_of_decode (hp : Stable p) (hcap : 0 < cap)
    (h : (decode p cap full s).result = .ok buf) : Resting p cap buf := by
  induction s using hp.rec_drop hcap with
  | nil =>
    cases h
    exact resting_nil
  | more s hs hfound =>
    rw [decode_more hs hfound] at h
    split_ifs at h with hlen
    cases h
    exact ⟨hlen, fun _ => by rw [← hfound, List.take_of_length_le hlen]⟩
  | item s b n hs hfound ih =>
    rw [decode_item hp hcap hs hfound] at h
    exact ih h
  | halt s t hs hfound =>
    rw [decode_halt hs hfound] at h
    cases h

theorem Resting.decode_eq (h : Resting p cap buf) : decode p cap full buf = ⟨[], .ok buf⟩ := by
  by_cases hbuf : buf = []
  · subst hbuf
    rfl
  · have htake := List.take_of_length_le h.length_le
    rw [decode_more hbuf (by rw [htake, h.more hbuf]), if_pos h.length_le]

/-- Nothing more fits into a full buffer. -/
theorem Resting.decode_full (h : Resting p cap buf) (hcap : 0 < cap) (hfull : cap ≤ buf.length)
    (hc : c ≠ []) : decode p cap full (buf ++ c) = ⟨[], .error full⟩ := by
  have hbuf : buf ≠ [] := List.ne_nil_of_length_pos (lt_of_lt_of_le hcap hfull)
  have hlen : buf.length = cap := le_antisymm h.length_le hfull
  have htake : (buf ++ c).take cap = buf := List.take_left' hlen
  have hlong : ¬ (buf ++ c).length ≤ cap := by
    have := List.length_pos_of_ne_nil hc
    rw [List.length_append]
    omega
  rw [decode_more (List.append_ne_nil_of_left_ne_nil hbuf c) (by rw [htake, h.more hbuf]),
    if_neg hlong]

/-! ### The points on the way -/

theorem Position.suffix (h : Position p cap s s') : s' <:+ s := by
  induction h with
  | here s => exact List.suffix_rfl
  | next hs hfound _ ih => exact ih.trans (List.drop_suffix _ _)

/-- From every point on the way the receiver comes to the same end. -/
theorem Position.result_eq (hp : Stable p) (hcap : 0 < cap) (h : Position p cap s s') :
    (decode p cap full s).result = (decode p cap full s').result := by
  induction h with
  | here s => rfl
  | next hs hfound _ ih =>
    rw [decode_item hp hcap hs hfound]
    exact ih

/-- The point where nothing more is taken. -/
theorem exists_last (hp : Stable p) (hcap : 0 < cap) (s : List α) :
    ∃ s', Position p cap s s' ∧ (s' = [] ∨ p (s'.take cap) = .more ∨
      ∃ t, p (s'.take cap) = .halt t) := by
  induction s using hp.rec_drop hcap with
  | nil => exact ⟨[], .here [], .inl rfl⟩
  | more s hs hfound => exact ⟨s, .here s, .inr (.inl hfound)⟩
  | halt s t hs hfound => exact ⟨s, .here s, .inr (.inr ⟨t, hfound⟩)⟩
  | item s b n hs hfound ih =>
    obtain ⟨s', hposition, hlast⟩ := ih
    exact ⟨s', .next hs hfound hposition, hlast⟩

end Decode

/-! ### Chunks -/

/-- A chunk of a stream. A receiver may refuse to read from it. -/
structure Chunk (α τ : Type) where
  refused : Option τ := none
  bytes : List α

/-- The stream that the chunks make up. -/
def stream (chunks : List (Chunk α τ)) : List α :=
  chunks.flatMap Chunk.bytes

/-- Go on after an outcome, unless there was a reason to stop. -/
def Outcome.andThen (o : Outcome α β τ) (f : List α → Outcome α β τ) : Outcome α β τ :=
  match o.result with
  | .ok buf => (f buf).after o.log
  | .error _ => o

section Feed

variable (p : List α → Found β τ) (cap : ℕ) (full : τ)

/-- Read what there is room for and take items off the front, until the chunk is
empty. -/
def feedChunk : ℕ → List α → List α → Outcome α β τ
  | 0, _, buf => ⟨[], .ok buf⟩
  | fuel + 1, bytes, buf =>
    if bytes.isEmpty then ⟨[], .ok buf⟩
    else if cap ≤ buf.length then ⟨[], .error full⟩
    else
      let room := cap - buf.length
      (decode p cap full (buf ++ bytes.take room)).andThen
        (feedChunk fuel (bytes.drop room))

/-- Receive a stream in chunks. -/
def feed : List (Chunk α τ) → List α → Outcome α β τ
  | [], buf => ⟨[], .ok buf⟩
  | chunk :: chunks, buf =>
    if chunk.bytes.isEmpty then feed chunks buf
    else match chunk.refused with
      | some t => ⟨[], .error t⟩
      | none => (feedChunk p cap full chunk.bytes.length chunk.bytes buf).andThen (feed chunks)

end Feed

section Chunks

variable {p : List α → Found β τ} {cap : ℕ} {full : τ} {buf : List α}
  {chunks : List (Chunk α τ)}

/-- A reason to stop is one for what comes after. -/
theorem Outcome.result_ne_of_andThen {o : Outcome α β τ} {f : List α → Outcome α β τ} {t : τ}
    (h : (o.andThen f).result ≠ .error t) : o.result ≠ .error t := by
  intro ho
  unfold Outcome.andThen at h
  rw [ho] at h
  exact h ho

/-- A stream is decoded up to some point, and from there. -/
theorem decode_append (hp : Stable p) (hcap : 0 < cap) (s c : List α) :
    decode p cap full (s ++ c) =
      (decode p cap full s).andThen fun buf => decode p cap full (buf ++ c) := by
  unfold Outcome.andThen
  cases h : (decode p cap full s).result with
  | ok buf => exact decode_append_ok hp hcap h c
  | error t => exact decode_append_error hp hcap h c

theorem Outcome.andThen_congr {o : Outcome α β τ} {f g : List α → Outcome α β τ}
    (h : ∀ buf, o.result = .ok buf → f buf = g buf) : o.andThen f = o.andThen g := by
  unfold Outcome.andThen
  cases hres : o.result with
  | ok buf => exact congrArg (Outcome.after o.log) (h buf hres)
  | error t => rfl

theorem feedChunk_eq_decode (hp : Stable p) (hcap : 0 < cap) {fuel : ℕ} {bytes : List α}
    (hfuel : bytes.length ≤ fuel) (hbuf : Resting p cap buf) :
    feedChunk p cap full fuel bytes buf = decode p cap full (buf ++ bytes) := by
  induction fuel generalizing bytes buf with
  | zero =>
    obtain rfl := List.eq_nil_of_length_eq_zero (Nat.le_zero.1 hfuel)
    rw [List.append_nil, hbuf.decode_eq]
    rfl
  | succ fuel ih =>
    by_cases hbytes : bytes = []
    · rw [hbytes, List.append_nil, hbuf.decode_eq]
      rfl
    · rw [feedChunk, List.isEmpty_eq_false_iff.2 hbytes]
      by_cases hfull : cap ≤ buf.length
      · rw [hbuf.decode_full hcap hfull hbytes, if_pos hfull]
        rfl
      · -- There is room, so that the rest of the chunk is shorter.
        have hrest : (bytes.drop (cap - buf.length)).length ≤ fuel := by
          have := List.length_pos_of_ne_nil hbytes
          rw [List.length_drop]
          omega
        have hsplit : buf ++ bytes = (buf ++ bytes.take (cap - buf.length)) ++
            bytes.drop (cap - buf.length) := by
          rw [List.append_assoc, List.take_append_drop]
        rw [hsplit, decode_append hp hcap, if_neg Bool.false_ne_true, if_neg hfull]
        exact Outcome.andThen_congr fun buf' hok => ih hrest (resting_of_decode hp hcap hok)

/-- **What is received does not depend on the chunks.** -/
theorem feed_eq_decode (hp : Stable p) (hcap : 0 < cap)
    (hchunks : ∀ chunk ∈ chunks, chunk.refused = none) (hbuf : Resting p cap buf) :
    feed p cap full chunks buf = decode p cap full (buf ++ stream chunks) := by
  induction chunks generalizing buf with
  | nil => rw [stream, List.flatMap_nil, List.append_nil, hbuf.decode_eq, feed]
  | cons chunk chunks ih =>
    obtain ⟨hchunk, hchunks⟩ := List.forall_mem_cons.1 hchunks
    rw [feed, stream, List.flatMap_cons, ← List.append_assoc]
    by_cases hbytes : chunk.bytes = []
    · rw [hbytes, List.append_nil]
      exact ih hchunks hbuf
    · rw [List.isEmpty_eq_false_iff.2 hbytes, hchunk, decode_append hp hcap,
        feedChunk_eq_decode hp hcap le_rfl hbuf]
      exact Outcome.andThen_congr fun buf' hok =>
        ih hchunks (resting_of_decode hp hcap hok)

theorem Outcome.log_prefix_andThen {o : Outcome α β τ} {f g : List α → Outcome α β τ}
    (h : ∀ buf, o.result = .ok buf → (f buf).log <+: (g buf).log) :
    (o.andThen f).log <+: (o.andThen g).log := by
  unfold Outcome.andThen
  cases hres : o.result with
  | ok buf => exact (List.prefix_append_right_inj o.log).2 (h buf hres)
  | error t => exact List.prefix_rfl

theorem Outcome.log_prefix_self {o : Outcome α β τ} {f : List α → Outcome α β τ} :
    o.log <+: (o.andThen f).log := by
  unfold Outcome.andThen
  cases hres : o.result with
  | ok buf => exact List.prefix_append _ _
  | error t => exact List.prefix_rfl

/-- What is received before a chunk is refused is a part of what could be received. -/
theorem feed_log_prefix (hp : Stable p) (hcap : 0 < cap) (hbuf : Resting p cap buf) :
    (feed p cap full chunks buf).log <+: (decode p cap full (buf ++ stream chunks)).log := by
  induction chunks generalizing buf with
  | nil => exact List.nil_prefix
  | cons chunk chunks ih =>
    rw [feed, stream, List.flatMap_cons, ← List.append_assoc]
    by_cases hbytes : chunk.bytes = []
    · rw [hbytes, List.append_nil]
      exact ih hbuf
    · rw [List.isEmpty_eq_false_iff.2 hbytes]
      cases hchunk : chunk.refused with
      | some t => exact List.nil_prefix
      | none =>
        rw [decode_append hp hcap]
        change (Outcome.andThen (feedChunk _ _ _ _ _ _) _).log <+: _
        rw [feedChunk_eq_decode hp hcap le_rfl hbuf]
        exact Outcome.log_prefix_andThen fun buf' hok => ih (resting_of_decode hp hcap hok)

end Chunks

end Incremental
