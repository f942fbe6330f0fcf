import Jozabad.Facility

/-!
# Arrays and machine integers

An access to an array outside its bounds is a `Fault.wildRead`. Positions and lengths are of type
`size_t`. No array is so long that the sum of two positions in it is out of range, so that they
are natural numbers here, and only a difference can go round (`sizeSub`). A `size_t` that is kept
in an `int` loses its upper half (`toInt`).
-/

namespace Jozabad

variable {α : Type}

/-- `l[i]`. -/
def readAt (l : List α) (i : ℕ) : Except Fault α :=
  match l[i]? with
  | some a => .ok a
  | none => .error .wildRead

/-- `l[i] = a`. -/
def writeAt (l : List α) (i : ℕ) (a : α) : Except Fault (List α) :=
  if i < l.length then .ok (l.set i a) else .error .wildRead

/-- `a - b` of two `size_t`. -/
def sizeSub (a b : ℕ) : ℕ :=
  if b ≤ a then a - b else 2 ^ 64 + a - b

/-- A `size_t` as an `int`. -/
def toInt (x : ℕ) : ℤ :=
  (x : ℤ).bmod (2 ^ 32)

/-- An `int` as a `size_t`. -/
def toSize (z : ℤ) : ℕ :=
  (z % 2 ^ 64).toNat

variable {l : List α} {i : ℕ} {a : α}

theorem readAt_of_eq (h : l[i]? = some a) : readAt l i = .ok a := by
  rw [readAt, h]

theorem writeAt_of_lt (h : i < l.length) : writeAt l i a = .ok (l.set i a) :=
  if_pos h

theorem sizeSub_of_le {a b : ℕ} (h : b ≤ a) : sizeSub a b = a - b :=
  if_pos h

/-- A `size_t` that fits into an `int` comes back. -/
theorem toSize_toInt {x : ℕ} (h : x < 2 ^ 31) : toSize (toInt x) = x := by
  have hint : toInt x = x := Int.bmod_eq_of_le (by omega) (by omega)
  rw [hint, toSize]
  omega

end Jozabad
