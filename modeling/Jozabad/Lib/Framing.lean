import Mathlib.Data.List.Basic

/-!
# Reassembly of a byte stream

Frames are sent one after the other as one stream and arrive in pieces that know nothing
of the frames. A receiver has a buffer, appends what arrives, and takes whole frames off
its front.

`Pending enc todo buf left` is what a correct receiver keeps: the buffer and the bytes
that have not arrived yet together are the encodings of the frames `todo`. Reading more
keeps it. As long as it holds, the buffer either begins with the first frame of `todo` or
is a proper part of it (`Pending.front`), and in the second case it is shorter than that
frame (`Partial.length_lt`). When everything has arrived and no whole frame is left in the
buffer, all frames have been taken (`Pending.finished`).
-/

namespace Framing

variable {α μ : Type} {enc : μ → List α} {todo : List μ} {buf left : List α}

/-- The frames `todo` are still to be taken. -/
def Pending (enc : μ → List α) (todo : List μ) (buf left : List α) : Prop :=
  buf ++ left = todo.flatMap enc

/-- No whole frame is in the buffer. -/
def Partial (enc : μ → List α) (todo : List μ) (buf : List α) : Prop :=
  (todo = [] ∧ buf = []) ∨ ∃ m ms rest, todo = m :: ms ∧ enc m = buf ++ rest ∧ rest ≠ []

theorem Pending.read {a : List α} (h : Pending enc todo buf (a ++ left)) :
    Pending enc todo (buf ++ a) left := by
  unfold Pending
  rw [List.append_assoc]
  exact h

/-- **What a receiver finds at the front of its buffer.** -/
theorem Pending.front (h : Pending enc todo buf left) : Partial enc todo buf ∨
    ∃ m ms buf', todo = m :: ms ∧ buf = enc m ++ buf' ∧ Pending enc ms buf' left := by
  cases todo with
  | nil => exact .inl (.inl ⟨rfl, (List.append_eq_nil_iff.1 h).1⟩)
  | cons m ms =>
    have heq : buf ++ left = enc m ++ ms.flatMap enc := h
    obtain ⟨buf', hbuf, hrest⟩ | ⟨rest, hm, hleft⟩ := List.append_eq_append_iff.1 heq
    · cases buf' with
      | nil =>
        -- The buffer is exactly the frame.
        refine .inr ⟨m, ms, [], rfl, ?_, hrest⟩
        rw [List.append_nil] at hbuf ⊢
        exact hbuf.symm
      | cons b bs => exact .inl (.inr ⟨m, ms, b :: bs, rfl, hbuf, List.cons_ne_nil b bs⟩)
    · exact .inr ⟨m, ms, rest, rfl, hm, hleft.symm⟩

/-- A part of a frame leaves room in a buffer that is large enough for the frame. -/
theorem Partial.length_lt {capacity : ℕ} (h : Partial enc todo buf) (hpos : 0 < capacity)
    (hfit : ∀ m ∈ todo, (enc m).length ≤ capacity) : buf.length < capacity := by
  obtain ⟨-, rfl⟩ | ⟨m, ms, rest, rfl, hm, hrest⟩ := h
  · exact hpos
  · have hlen := hfit m List.mem_cons_self
    rw [hm, List.length_append] at hlen
    have := List.length_pos_of_ne_nil hrest
    omega

/-- **When everything has arrived, everything has been taken.** -/
theorem Pending.finished (h : Pending enc todo buf []) (hp : Partial enc todo buf) :
    todo = [] ∧ buf = [] := by
  obtain h' | ⟨m, ms, rest, rfl, hm, hrest⟩ := hp
  · exact h'
  · have heq : buf ++ [] = (buf ++ rest) ++ ms.flatMap enc := by
      rw [← hm]
      exact h
    rw [List.append_assoc, List.append_cancel_left_eq] at heq
    exact absurd (List.append_eq_nil_iff.1 heq.symm).1 hrest

end Framing
