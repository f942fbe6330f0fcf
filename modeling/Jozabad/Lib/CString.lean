import Mathlib.Data.List.Lex
import Mathlib.Data.List.TakeWhile
import Mathlib.Order.Lattice.Nat

/-!
# C strings

A `CString` is what a `char *` points at: the bytes before the terminating NUL,
none of which is NUL. `CString.ofBytes` is the string that a byte array holds, and
`CString.memory` is the array itself, terminator included.

Strings are ordered by their bytes, from the first one on. `strcmp` compares in this order.
-/

/-- The bytes of a string, without its terminator. -/
@[ext] structure CString where
  /-- The bytes before the terminator. -/
  bytes : List UInt8
  /-- None of them is NUL. -/
  nulFree : 0 ∉ bytes
  deriving DecidableEq, Repr

namespace CString

/-- The string that a byte array holds: its bytes up to the first NUL. -/
def ofBytes (l : List UInt8) : CString where
  bytes := l.takeWhile (· ≠ 0)
  nulFree h := by simpa using List.mem_takeWhile_imp h

/-- The string without bytes. -/
def empty : CString := ⟨[], List.not_mem_nil⟩

instance : Inhabited CString := ⟨empty⟩

/-- `strlen`. -/
def length (s : CString) : ℕ :=
  s.bytes.length

/-- `strnlen_s`: the lesser of the string length and `maxsize`. -/
def nlength (s : CString) (maxsize : ℕ) : ℕ :=
  min s.length maxsize

/-- The array that holds the string, with its terminator. -/
def memory (s : CString) : List UInt8 :=
  s.bytes ++ [0]

/-- A NUL-free array holds exactly the string of its bytes. -/
@[simp] theorem ofBytes_bytes (s : CString) : ofBytes s.bytes = s := by
  ext1
  refine List.takeWhile_eq_self_iff.2 fun b hb => ?_
  have hne : b ≠ 0 := by
    rintro rfl
    exact s.nulFree hb
  simpa using hne

/-! ### Order -/

theorem map_toNat_injective : Function.Injective fun s : CString => s.bytes.map UInt8.toNat := by
  intro s t h
  exact CString.ext (List.map_injective_iff.2 (fun _ _ => UInt8.toNat_inj.1) h)

/-- The order of the bytes, the first one first. -/
instance : LinearOrder CString :=
  LinearOrder.lift' (fun s => s.bytes.map UInt8.toNat) map_toNat_injective

/-- The difference of the first bytes that differ, where one that is not there counts as NUL. -/
def compareBytes : List UInt8 → List UInt8 → ℤ
  | [], [] => 0
  | [], b :: _ => -b.toNat
  | a :: _, [] => a.toNat
  | a :: s, b :: t => if a = b then compareBytes s t else (a.toNat : ℤ) - b.toNat

/-- `strcmp`. -/
def strcmp (s t : CString) : ℤ :=
  compareBytes s.bytes t.bytes

theorem compareBytes_swap (s t : List UInt8) : compareBytes t s = -compareBytes s t := by
  fun_induction compareBytes s t with
  | case1 => rfl
  | case2 b t => exact (neg_neg _).symm
  | case3 a s => rfl
  | case4 s a t ih => rw [compareBytes, if_pos rfl, ih]
  | case5 a s b t hne =>
    rw [compareBytes, if_neg (Ne.symm hne)]
    omega

theorem compareBytes_neg {s t : List UInt8} (ht : 0 ∉ t) :
    compareBytes s t < 0 ↔ s.map UInt8.toNat < t.map UInt8.toNat := by
  fun_induction compareBytes s t with
  | case1 => exact iff_of_false (lt_irrefl 0) (lt_irrefl _)
  | case2 b t =>
    have hb : b.toNat ≠ 0 := by
      intro hb
      obtain rfl : b = 0 := UInt8.toNat_inj.1 hb
      exact ht List.mem_cons_self
    exact iff_of_true (by omega) (List.nil_lt_cons _ _)
  | case3 a s => exact iff_of_false (by omega) (List.not_lt_nil _)
  | case4 s a t ih =>
    rw [ih fun h => ht (List.mem_cons_of_mem a h), List.map_cons, List.map_cons,
      List.cons_lt_cons_iff, and_iff_right rfl, or_iff_right (lt_irrefl _)]
  | case5 a s b t hne =>
    have hne' : a.toNat ≠ b.toNat := fun h => hne (UInt8.toNat_inj.1 h)
    rw [List.map_cons, List.map_cons, List.cons_lt_cons_iff, or_iff_left fun h => hne' h.1]
    omega

theorem strcmp_neg {s t : CString} : strcmp s t < 0 ↔ s < t :=
  compareBytes_neg t.nulFree

theorem strcmp_pos {s t : CString} : 0 < strcmp s t ↔ t < s := by
  rw [strcmp, compareBytes_swap, Int.neg_pos]
  exact compareBytes_neg s.nulFree

theorem strcmp_nonpos {s t : CString} : strcmp s t ≤ 0 ↔ s ≤ t := by
  rw [← not_lt, strcmp_pos, not_lt]

end CString
