import Mathlib.Data.Nat.ModEq

/-!
# Sequence numbers on a circle and the window between two of them

A protocol that numbers its messages `0, 1, …, n - 1, 0, 1, …` keeps only
residues modulo `n`. This module relates residues to the counts they stand for.

* `Cyclic.dist n lo x` is the number of steps forward from `lo` to `x` on a circle
  of `n` positions.
* `Ledger` holds the true counts of one direction of a window protocol: how many
  messages were sent, and up to which count they are acknowledged. `Ledger.ack`
  moves the acknowledged count forward to the next count with a given residue.
* `Ledger.Within w` says that the acknowledged count has not passed the sent count
  and that at most `w` messages are outstanding. As long as `w < n`, the residues
  determine the outstanding number (`Ledger.Within.dist_eq`), and a residue names
  an acknowledgeable count exactly if it lies on the arc from the one to the other
  (`Ledger.Within.acknowledges_iff`).
-/

namespace Cyclic

/-- Steps forward from `lo` to `x` on a circle of `n` positions. -/
def dist (n lo x : ℕ) : ℕ :=
  (x + (n - lo)) % n

variable {n lo x : ℕ}

theorem dist_of_le (h : lo ≤ x) (hx : x < n) : dist n lo x = x - lo := by
  have : x + (n - lo) = x - lo + n := by omega
  rw [dist, this, Nat.add_mod_right, Nat.mod_eq_of_lt (by omega)]

theorem dist_of_lt (h : x < lo) (hlo : lo ≤ n) : dist n lo x = x + n - lo := by
  rw [dist, Nat.mod_eq_of_lt (by omega)]
  omega

theorem dist_lt (hn : 0 < n) : dist n lo x < n :=
  Nat.mod_lt _ hn

@[simp] theorem dist_self (hx : x < n) : dist n x x = 0 := by
  rw [dist_of_le le_rfl hx, Nat.sub_self]

/-- Going round from the residue of `A` to `x` lands on a count with residue `x`. -/
theorem add_dist_mod {A : ℕ} (hn : 0 < n) (hx : x < n) : (A + dist n (A % n) x) % n = x := by
  have hA : A % n < n := Nat.mod_lt A hn
  have hsum : A + (x + (n - A % n)) = x + n * (A / n + 1) := by
    have := Nat.div_add_mod A n
    rw [Nat.mul_add]
    omega
  calc (A + dist n (A % n) x) % n
      = (A + (x + (n - A % n))) % n := by rw [dist, Nat.add_mod_mod]
    _ = x := by rw [hsum, Nat.add_mul_mod_self_left, Nat.mod_eq_of_lt hx]

/-- Two counts less than a turn apart are as far apart as their residues. -/
theorem dist_mod {A S : ℕ} (hAS : A ≤ S) (hlt : S < A + n) : dist n (A % n) (S % n) = S - A := by
  have hn : 0 < n := by omega
  have hdiff : (A + dist n (A % n) (S % n)) % n = (A + (S - A)) % n := by
    rw [add_dist_mod hn (Nat.mod_lt S hn)]
    congr 1
    omega
  have hmod : dist n (A % n) (S % n) % n = (S - A) % n := Nat.ModEq.add_left_cancel' A hdiff
  rwa [Nat.mod_eq_of_lt (dist_lt hn), Nat.mod_eq_of_lt (show S - A < n by omega)] at hmod

end Cyclic

open Cyclic

/-- The counts of one direction of a window protocol. -/
@[ext] structure Ledger where
  /-- Messages sent so far. -/
  sent : ℕ := 0
  /-- The count up to which they are acknowledged. -/
  acked : ℕ := 0
  deriving DecidableEq, Repr

namespace Ledger

variable {n w p : ℕ} {L : Ledger}

/-- Messages sent and not acknowledged. -/
def outstanding (L : Ledger) : ℕ :=
  L.sent - L.acked

/-- One more message is sent. -/
def send (L : Ledger) : Ledger :=
  { L with sent := L.sent + 1 }

/-- The residue `p` is acknowledged: the acknowledged count moves forward to the
next count with this residue. -/
def ack (n : ℕ) (L : Ledger) (p : ℕ) : Ledger :=
  { L with acked := L.acked + dist n (L.acked % n) p }

@[simp] theorem send_sent : L.send.sent = L.sent + 1 := rfl

@[simp] theorem send_acked : L.send.acked = L.acked := rfl

@[simp] theorem ack_sent : (L.ack n p).sent = L.sent := rfl

theorem ack_acked_mod (hp : p < n) : (L.ack n p).acked % n = p :=
  add_dist_mod (by omega) hp

theorem le_ack_acked : L.acked ≤ (L.ack n p).acked :=
  Nat.le_add_right _ _

/-- Acknowledgements have not run ahead of the messages, and at most `w` messages
are outstanding. -/
structure Within (L : Ledger) (w : ℕ) : Prop where
  le : L.acked ≤ L.sent
  bound : L.sent ≤ L.acked + w

theorem within_zero : ({} : Ledger).Within w :=
  ⟨le_rfl, Nat.zero_le _⟩

namespace Within

theorem outstanding_le (h : L.Within w) : L.outstanding ≤ w := by
  have := h.bound
  simp only [outstanding]
  omega

theorem mono {w' : ℕ} (h : L.Within w) (hw : w ≤ w') : L.Within w' :=
  ⟨h.le, h.bound.trans (by omega)⟩

/-- The residues of the two counts determine how many messages are outstanding. -/
theorem dist_eq (h : L.Within w) (hw : w < n) :
    dist n (L.acked % n) (L.sent % n) = L.outstanding :=
  dist_mod h.le (by have := h.bound; omega)

theorem send (h : L.Within w) (hlt : L.outstanding < w) : L.send.Within w := by
  have := h.le
  simp only [outstanding] at hlt
  exact ⟨by simp only [send_acked, send_sent]; omega, by simp only [send_acked, send_sent]; omega⟩

theorem ack (h : L.Within w) (hp : dist n (L.acked % n) p ≤ L.outstanding) :
    (L.ack n p).Within w := by
  have hle := h.le
  have hbound := h.bound
  simp only [outstanding] at hp
  refine ⟨?_, ?_⟩
  · simp only [Ledger.ack]
    omega
  · simp only [Ledger.ack]
    omega

/-- **Acknowledgeable residues.** A residue is that of a count between the
acknowledged and the sent one exactly if it is no further from the former than
the latter is. -/
theorem acknowledges_iff (h : L.Within w) (hw : w < n) (hp : p < n) :
    dist n (L.acked % n) p ≤ L.outstanding ↔ ∃ a, L.acked ≤ a ∧ a ≤ L.sent ∧ p = a % n := by
  have hle := h.le
  have hbound := h.bound
  simp only [outstanding]
  constructor
  · intro hd
    exact ⟨L.acked + dist n (L.acked % n) p, by omega, by omega, (add_dist_mod (by omega) hp).symm⟩
  · rintro ⟨a, hlo, hhi, rfl⟩
    rw [dist_mod hlo (by omega)]
    omega

end Within

end Ledger
