import Jozabad.Broker.Msg
import Mathlib.Data.List.GetD
import Mathlib.Data.List.TakeWhile

/-!
# Names (`safeascii` in `lib.c`)

A name starts and ends with an alphanumeric character or one of `%&+,.:=_`, and may also have
hyphens and spaces in between (`SafeName`). `safeascii` is to accept a character array if the
characters up to the first NUL are a name.

The code looks at the last character only if a NUL comes behind it, and then only for a space.
`safeascii_eq_true_iff` says what it answers, and `safeascii_iff` for which arrays this is right.
-/

namespace Jozabad
namespace Broker

/-- A character that a name may start or end with. -/
def NameEnd (c : UInt8) : Prop :=
  isalnum c ∨ c ∈ p_ini

/-- **A name.** -/
structure SafeName (s : List UInt8) : Prop where
  nonempty : s ≠ []
  first : ∀ c, s.head? = some c → NameEnd c
  last : ∀ c, s.getLast? = some c → NameEnd c
  between : ∀ c ∈ s, NameEnd c ∨ c = 45 ∨ c = 32

/-- The characters of an array up to the first NUL. -/
def content (mem : List UInt8) : List UInt8 :=
  (CString.ofBytes mem).bytes

/-- The code has no objection to the characters one by one. -/
inductive Plain : List UInt8 → Prop
  | mk {first : UInt8} {rest : List UInt8} (hfirst : valInit first)
    (hrest : ∀ c ∈ rest, valMid c) :
    Plain (first :: rest)

/-- The position of a character that makes the code give up is -1 as an `int`. -/
inductive Far (mem : List UInt8) : Prop
  /-- It is that of a character that no name has. -/
  | bad {first c : UInt8} {tail rest : List UInt8} (hmem : mem = first :: tail)
    (hrest : tail.dropWhile valMid = c :: rest) (hc : c ≠ 0)
    (hfar : toInt (1 + (tail.takeWhile valMid).length) = -1)
  /-- It is that of a space in front of the NUL. -/
  | space {first : UInt8} {tail rest : List UInt8} (hmem : mem = first :: tail)
    (hrest : tail.dropWhile valMid = 0 :: rest)
    (hlast : (first :: tail.takeWhile valMid).getLast? = some 32)
    (hfar : toInt (tail.takeWhile valMid).length = -1)

/-- **Where the code errs.** -/
inductive Misjudged (mem : List UInt8) : Prop
  /-- It takes a hyphen at the end. -/
  | hyphen (hplain : Plain (content mem)) (hlast : (content mem).getLast? = some 45)
  /-- It takes a space at the end of an array without a NUL. -/
  | space (hplain : Plain mem) (hlast : mem.getLast? = some 32)
  /-- It takes the position of a bad character for that of none. -/
  | far (hfar : Far mem)

variable {mem run rest tail s : List UInt8} {first c : UInt8} {left i m : ℕ} {bad : ℤ}

/-! ### Characters -/

theorem valInit_iff : valInit c = true ↔ NameEnd c := by
  have hzero : ¬ NameEnd 0 := by
    unfold NameEnd
    decide
  simp only [valInit, decide_eq_true_eq]
  constructor
  · exact fun h => h.2
  · intro h
    refine ⟨?_, h⟩
    rintro rfl
    exact hzero h

theorem valMid_iff : valMid c = true ↔ NameEnd c ∨ c = 45 ∨ c = 32 := by
  have hmid : valMid c = true ↔ c ≠ 0 ∧ (NameEnd c ∨ c = 45 ∨ c = 32) := by
    simp only [valMid, NameEnd, p_mid, decide_eq_true_eq, List.mem_append, List.mem_cons,
      List.not_mem_nil, or_false, or_assoc]
  rw [hmid, and_iff_right_iff_imp]
  rintro h rfl
  revert h
  unfold NameEnd
  decide

theorem not_nameEnd_hyphen : ¬ NameEnd 45 := by
  unfold NameEnd
  decide

theorem not_nameEnd_space : ¬ NameEnd 32 := by
  unfold NameEnd
  decide

theorem ne_zero_of_valMid (h : valMid c = true) : c ≠ 0 := by
  rintro rfl
  cases h

theorem ne_zero_of_valInit (h : valInit c = true) : c ≠ 0 := by
  rintro rfl
  cases h

/-! ### Contents -/

theorem content_append (h : ∀ c ∈ s, c ≠ 0) : content (s ++ rest) = s ++ content rest :=
  List.takeWhile_append_of_pos fun c hc => by simpa using h c hc

theorem content_zero : content (0 :: rest) = [] := rfl

theorem ne_zero_of_plain (h : Plain s) : ∀ c ∈ s, c ≠ 0 := by
  obtain ⟨hfirst, hrest⟩ := h
  intro c hc
  obtain rfl | hc := List.mem_cons.1 hc
  · exact ne_zero_of_valInit hfirst
  · exact ne_zero_of_valMid (hrest c hc)

/-- An array of such characters is its own content. -/
theorem Plain.content_eq (h : Plain s) : content s = s := by
  have happend : content (s ++ []) = s ++ content [] := content_append (ne_zero_of_plain h)
  rwa [List.append_nil, show content [] = [] from rfl, List.append_nil] at happend

theorem valMid_of_dropWhile (h : tail.dropWhile valMid = c :: rest) : valMid c = false := by
  have hne : tail.dropWhile valMid ≠ [] := by rw [h]; exact List.cons_ne_nil c rest
  have hhead := List.head_dropWhile_not valMid hne
  simpa only [h, List.head_cons] using hhead

theorem content_run (rest : List UInt8) :
    content (tail.takeWhile valMid ++ rest) = tail.takeWhile valMid ++ content rest :=
  content_append fun _ hc => ne_zero_of_valMid (List.mem_takeWhile_imp hc)

/-- The characters that may go on with a name end at the end of the array, or at a NUL. -/
def RunsOut (tail : List UInt8) : Prop :=
  tail.dropWhile valMid = [] ∨ ∃ rest, tail.dropWhile valMid = 0 :: rest

/-- The content then. -/
theorem RunsOut.content_eq (h : RunsOut tail) (hfirst : valInit first = true) :
    content (first :: tail) = first :: tail.takeWhile valMid := by
  have hnil : content (tail.dropWhile valMid) = [] := by
    obtain h | ⟨rest, h⟩ := h <;> rw [h] <;> rfl
  have htail : content tail = tail.takeWhile valMid := by
    conv_lhs => rw [← List.takeWhile_append_dropWhile (p := valMid) (l := tail)]
    rw [content_run, hnil, List.append_nil]
  have hcons : content ([first] ++ tail) = [first] ++ content tail := by
    refine content_append fun c hc => ?_
    rw [List.mem_singleton.1 hc]
    exact ne_zero_of_valInit hfirst
  rw [← List.singleton_append, hcons, htail]
  rfl

/-- **When the code has no objection** to the characters of the content. -/
theorem plain_content_iff :
    Plain (content (first :: tail)) ↔ valInit first = true ∧ RunsOut tail := by
  constructor
  · intro hplain
    by_cases hzero : first = 0
    · subst hzero
      cases hplain
    · have hcons : content (first :: tail) = first :: content tail :=
        content_append (s := [first]) fun c hc => (List.mem_singleton.1 hc) ▸ hzero
      rw [hcons] at hplain
      obtain ⟨hfirst, hrest⟩ := hplain
      refine ⟨hfirst, ?_⟩
      cases hdrop : tail.dropWhile valMid with
      | nil => exact .inl hdrop
      | cons c rest =>
        refine .inr ⟨rest, ?_⟩
        rw [hdrop, List.cons.injEq, and_iff_left rfl]
        -- Another character than NUL would be part of the content.
        by_contra hc
        have hmem : c ∈ content tail := by
          rw [← List.takeWhile_append_dropWhile (p := valMid) (l := tail), content_run, hdrop]
          refine List.mem_append_right _ ?_
          rw [show content (c :: rest) = c :: content rest from content_append (s := [c])
            fun d hd => (List.mem_singleton.1 hd) ▸ hc]
          exact List.mem_cons_self
        have hbad := valMid_of_dropWhile hdrop
        rw [hrest c hmem] at hbad
        cases hbad
  · rintro ⟨hfirst, hruns⟩
    rw [hruns.content_eq hfirst]
    exact ⟨hfirst, fun c hc => List.mem_takeWhile_imp hc⟩

/-- Such a content is a name unless it ends in a hyphen or a space. -/
theorem Plain.safeName_iff (h : Plain s) :
    SafeName s ↔ s.getLast? ≠ some 45 ∧ s.getLast? ≠ some 32 := by
  constructor
  · intro hname
    constructor
    · intro hlast
      exact not_nameEnd_hyphen (hname.last _ hlast)
    · intro hlast
      exact not_nameEnd_space (hname.last _ hlast)
  · rintro ⟨hhyphen, hspace⟩
    obtain @⟨first, rest, hfirst, hrest⟩ := h
    have hall : ∀ c ∈ first :: rest, NameEnd c ∨ c = 45 ∨ c = 32 := by
      intro c hc
      obtain rfl | hc := List.mem_cons.1 hc
      · exact .inl (valInit_iff.1 hfirst)
      · exact valMid_iff.1 (hrest c hc)
    refine ⟨List.cons_ne_nil _ _, ?_, ?_, hall⟩
    · rintro c ⟨⟩
      exact valInit_iff.1 hfirst
    · intro c hc
      obtain hend | rfl | rfl := hall c (List.mem_of_getLast? hc)
      · exact hend
      · exact absurd hc hhyphen
      · exact absurd hc hspace

/-- A name has only characters that the code takes. -/
theorem SafeName.plain (h : SafeName s) : Plain s := by
  obtain ⟨hne, hfirst, -, hbetween⟩ := h
  cases s with
  | nil => exact absurd rfl hne
  | cons first rest =>
    exact ⟨valInit_iff.2 (hfirst first rfl),
      fun c hc => valMid_iff.2 (hbetween c (List.mem_cons_of_mem first hc))⟩

/-! ### What the code answers -/


/-- The loop passes the characters that may go on with a name. -/
theorem safeasciiFrom_run (h : ∀ j < m, valMid (mem.getD (i + j) 0) = true) :
    safeasciiFrom mem (m + left) i 2 bad = safeasciiFrom mem left (i + m) 2 bad := by
  induction m generalizing i with
  | zero => rw [Nat.zero_add, Nat.add_zero]
  | succ m ih =>
    have hfirst : valMid (mem.getD i 0) = true := h 0 (Nat.succ_pos m)
    have hrest : ∀ j < m, valMid (mem.getD (i + 1 + j) 0) = true := by
      intro j hj
      rw [Nat.add_assoc, Nat.add_comm 1 j]
      exact h (j + 1) (by omega)
    rw [Nat.add_right_comm, safeasciiFrom, hfirst]
    simp only [show ¬ (2 : ℕ) = 1 by omega, show ¬ (2 : ℕ) = 3 by omega, Bool.not_true,
      Bool.false_eq_true, and_false, false_and, if_false]
    rw [ih hrest, Nat.add_right_comm, Nat.add_assoc]

/-- It stops at the first other one. -/
theorem safeasciiFrom_stop (h : valMid (mem.getD i 0) = false) :
    safeasciiFrom mem (left + 1) i 2 bad =
      if mem.getD i 0 ≠ 0 then toInt i
      else if mem.getD (i - 1) 0 = 32 then toInt (i - 1) else bad := by
  rw [safeasciiFrom, h]
  simp

/-- The first character is remembered if it is bad. -/
theorem safeasciiFrom_first (first : UInt8) (mem : List UInt8) (left : ℕ) :
    ∃ bad : ℤ, (bad = -1 ↔ valInit first = true) ∧
    safeasciiFrom (first :: mem) (left + 1) 0 1 (-1) =
      safeasciiFrom (first :: mem) left 1 2 bad := by
  have hzero : toInt 0 = 0 := rfl
  cases h : valInit first with
  | true =>
    refine ⟨-1, iff_of_true rfl rfl, ?_⟩
    rw [safeasciiFrom]
    simp [h]
  | false =>
    refine ⟨0, by decide, ?_⟩
    rw [safeasciiFrom]
    simp [h, hzero]

/-- The loop comes to the end of the run behind the first character. -/
theorem safeascii_run (first : UInt8) (tail : List UInt8) :
    ∃ bad : ℤ, (bad = -1 ↔ valInit first = true) ∧
    (safeascii (first :: tail) (first :: tail).length = true ↔
      safeasciiFrom (first :: tail) (tail.dropWhile valMid).length
        (1 + (tail.takeWhile valMid).length) 2 bad = -1) := by
  have hsplit : tail = tail.takeWhile valMid ++ tail.dropWhile valMid :=
    List.takeWhile_append_dropWhile.symm
  have hpass : ∀ j < (tail.takeWhile valMid).length,
      valMid ((first :: tail).getD (1 + j) 0) = true := by
    intro j hj
    rw [Nat.add_comm, List.getD_cons_succ, hsplit, List.getD_append _ _ _ _ hj,
      List.getD_eq_getElem _ _ hj]
    exact List.mem_takeWhile_imp (List.getElem_mem hj)
  have hlength : tail.length = (tail.takeWhile valMid).length + (tail.dropWhile valMid).length := by
    rw [← List.length_append, ← hsplit]
  obtain ⟨bad, hbad, hfirst⟩ := safeasciiFrom_first first tail tail.length
  refine ⟨bad, hbad, ?_⟩
  rw [safeascii, decide_eq_true_iff, List.length_cons, hfirst, ← safeasciiFrom_run hpass, ← hlength]

/-- **The answer of the code** for an array without a NUL or a bad character. -/
theorem safeascii_full (h : tail.dropWhile valMid = []) :
    safeascii (first :: tail) (first :: tail).length = true ↔ valInit first = true := by
  obtain ⟨bad, hbad, hrun⟩ := safeascii_run first tail
  rw [hrun, h]
  exact hbad

/-- **The answer of the code** if it stops at a character. -/
theorem safeascii_stopped (h : tail.dropWhile valMid = c :: rest) :
    safeascii (first :: tail) (first :: tail).length = true ↔
      if c ≠ 0 then toInt (1 + (tail.takeWhile valMid).length) = -1
      else if (first :: tail.takeWhile valMid).getLast? = some 32 then
        toInt (tail.takeWhile valMid).length = -1
      else valInit first = true := by
  have hsplit : first :: tail = (first :: tail.takeWhile valMid) ++ c :: rest := by
    rw [List.cons_append, ← h, List.takeWhile_append_dropWhile]
  have hlt : (tail.takeWhile valMid).length < (first :: tail.takeWhile valMid).length :=
    Nat.lt_succ_self _
  have hget : (first :: tail).getD (1 + (tail.takeWhile valMid).length) 0 = c := by
    rw [hsplit, List.getD_append_right _ _ _ _ (by rw [List.length_cons, Nat.add_comm]),
      List.length_cons, Nat.add_comm, Nat.sub_self]
    rfl
  have hprev : (first :: tail).getD (tail.takeWhile valMid).length 0 = 32 ↔
      (first :: tail.takeWhile valMid).getLast? = some 32 := by
    rw [hsplit, List.getD_append _ _ _ _ hlt, List.getD_eq_getElem _ _ hlt,
      List.getLast?_eq_getElem?, List.length_cons, Nat.add_sub_cancel,
      List.getElem?_eq_getElem hlt, Option.some.injEq]
  obtain ⟨bad, hbad, hrun⟩ := safeascii_run first tail
  rw [hrun, h, List.length_cons, safeasciiFrom_stop (by rw [hget]; exact valMid_of_dropWhile h),
    hget, Nat.add_sub_cancel_left]
  simp only [hprev]
  by_cases hc : c = 0
  · rw [if_neg (not_not.2 hc), if_neg (not_not.2 hc)]
    by_cases hspace : (first :: tail.takeWhile valMid).getLast? = some 32
    · rw [if_pos hspace, if_pos hspace]
    · rw [if_neg hspace, if_neg hspace, hbad]
  · rw [if_pos hc, if_pos hc]

/-- **When the code takes an array.** -/
theorem safeascii_eq_true_iff : safeascii (first :: tail) (first :: tail).length = true ↔
    Far (first :: tail) ∨ Plain (content (first :: tail)) ∧
      (tail.dropWhile valMid = [] ∨ (content (first :: tail)).getLast? ≠ some 32) := by
  constructor
  · intro h
    cases hrest : tail.dropWhile valMid with
    | nil =>
      refine .inr ⟨plain_content_iff.2 ⟨(safeascii_full hrest).1 h, .inl hrest⟩, .inl rfl⟩
    | cons c rest =>
      rw [safeascii_stopped hrest] at h
      split_ifs at h with hc hlast
      · exact .inl (.bad rfl hrest hc h)
      · obtain rfl := not_not.1 hc
        exact .inl (.space rfl hrest hlast h)
      · obtain rfl := not_not.1 hc
        have hruns : RunsOut tail := .inr ⟨rest, hrest⟩
        refine .inr ⟨plain_content_iff.2 ⟨h, hruns⟩, .inr ?_⟩
        rwa [hruns.content_eq h]
  · rintro (hfar | ⟨hplain, hend⟩)
    · cases hfar with
      | bad hmem hrest hc hfar =>
        cases hmem
        rw [safeascii_stopped hrest, if_pos hc]
        exact hfar
      | space hmem hrest hlast hfar =>
        cases hmem
        rw [safeascii_stopped hrest, if_neg (not_not.2 rfl), if_pos hlast]
        exact hfar
    · obtain ⟨hfirst, hruns⟩ := plain_content_iff.1 hplain
      rw [hruns.content_eq hfirst] at hend
      obtain hrest | ⟨rest, hrest⟩ := hruns
      · exact (safeascii_full hrest).2 hfirst
      · have hlast : (first :: tail.takeWhile valMid).getLast? ≠ some 32 := by
          refine hend.resolve_left fun hnil => ?_
          rw [hnil] at hrest
          cases hrest
        rw [safeascii_stopped hrest, if_neg (not_not.2 rfl), if_neg hlast]
        exact hfirst

/-- Such an array holds no name. -/
theorem Far.not_safeName (h : Far mem) : ¬ SafeName (content mem) := by
  intro hname
  cases h with
  | bad hmem hrest hc =>
    cases hmem
    obtain ⟨-, hnil | ⟨rest, hzero⟩⟩ := plain_content_iff.1 hname.plain
    · rw [hrest] at hnil
      cases hnil
    · rw [hrest] at hzero
      cases hzero
      exact hc rfl
  | space hmem hrest hlast =>
    cases hmem
    obtain ⟨hfirst, hruns⟩ := plain_content_iff.1 hname.plain
    rw [hruns.content_eq hfirst] at hname
    exact not_nameEnd_space (hname.last _ hlast)

/-- An array without a NUL, as far as the code looks. -/
theorem full_iff (h : Plain (content (first :: tail))) :
    tail.dropWhile valMid = [] ↔ Plain (first :: tail) := by
  constructor
  · intro hrest
    have hcontent := (plain_content_iff.1 h).2.content_eq (plain_content_iff.1 h).1
    rw [List.takeWhile_eq_self_iff.2 (List.dropWhile_eq_nil_iff.1 hrest)] at hcontent
    rwa [hcontent] at h
  · rintro ⟨-, hrest⟩
    exact List.dropWhile_eq_nil_iff.2 hrest

/-- **The names that the code judges right.** -/
theorem safeascii_iff (hne : 1 ≤ mem.length) :
    (safeascii mem mem.length = true ↔ SafeName (content mem)) ↔ ¬ Misjudged mem := by
  obtain ⟨first, tail, rfl⟩ := List.exists_cons_of_length_pos hne
  rw [safeascii_eq_true_iff]
  by_cases hfar : Far (first :: tail)
  · exact iff_of_false (fun h => hfar.not_safeName (h.1 (.inl hfar))) (not_not.2 (.far hfar))
  by_cases hplain : Plain (content (first :: tail))
  · rw [hplain.safeName_iff, full_iff hplain]
    constructor
    · rintro h (⟨-, hhyphen⟩ | ⟨hmem, hspace⟩ | hfar')
      · refine (h.1 (.inr ⟨hplain, .inr ?_⟩)).1 hhyphen
        rw [hhyphen]
        decide
      · rw [← hmem.content_eq] at hspace
        exact (h.1 (.inr ⟨hplain, .inl hmem⟩)).2 hspace
      · exact hfar hfar'
    · intro h
      constructor
      · rintro (hfar' | ⟨-, hend⟩)
        · exact absurd hfar' hfar
        · refine ⟨fun hhyphen => h (.hyphen hplain hhyphen), fun hspace => ?_⟩
          obtain hmem | hnot := hend
          · exact h (.space hmem (hmem.content_eq ▸ hspace))
          · exact hnot hspace
      · rintro ⟨-, hspace⟩
        exact .inr ⟨hplain, .inr hspace⟩
  · refine iff_of_true (iff_of_false ?_ fun hname => hplain hname.plain) ?_
    · rintro (hfar' | ⟨hplain', -⟩)
      · exact hfar hfar'
      · exact hplain hplain'
    · rintro (⟨hplain', -⟩ | ⟨hmem, -⟩ | hfar')
      · exact hplain hplain'
      · exact hplain (hmem.content_eq.symm ▸ hmem)
      · exact hfar hfar'

example : safeascii [65, 45, 66, 0, 0] 5 = true := by decide

/-- `A` is judged right. -/
theorem safeascii_iff_letter : (safeascii [65, 0] 2 = true ↔ SafeName (content [65, 0])) ↔
    ¬ Misjudged [65, 0] :=
  safeascii_iff (by decide)

/-- **A hyphen at the end.** The code takes `A-`. -/
theorem safeascii_hyphen : ¬ ∀ mem : List UInt8, 1 ≤ mem.length → (∀ c ∈ mem, c < 128) →
    (safeascii mem mem.length = true ↔ SafeName (content mem)) := by
  intro h
  have hname := (h [65, 45, 0] (by decide) (by simp)).1 (by decide)
  exact not_nameEnd_hyphen (hname.last 45 rfl)

end Broker
end Jozabad
