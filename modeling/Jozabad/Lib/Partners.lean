import Mathlib.Data.Option.Basic
import Mathlib.Logic.Basic

/-!
# Objects that point at partners

Objects live at places `κ`, and an object may point at the place of another, its partner:
`p X` is the place that `X` points at, if it does. Two objects are `Joined` if they point
at each other. Three properties of all objects `L` matter.

* `Apart`: no object points at itself.
* `Agree R`: joined objects stand in the relation `R`.
* `Mutual`: whoever points at an object is joined to it.

Two objects are `Exclusive` if only they point at each other.

An object is `Stale` if what it points at points at a third one. Operations on such an
object may break the agreement of the two others.

An operation on one object reaches this object and the one it points at. The rules of the
last section say which operations keep the three properties. They ask nothing about what
happens on the way: only the objects before and after are compared.
-/

universe u v

namespace Partners

variable {κ : Type u} {α : Type v} {p : α → Option κ} {R : α → α → Prop}
  {L L' L'' : κ → Option α} {x y z : κ} {X X' Y Y' : α}

/-! ### The properties -/

variable (p) in
/-- `x` points at `y`. -/
def Points (L : κ → Option α) (x y : κ) : Prop :=
  ∃ X, L x = some X ∧ p X = some y

variable (p) in
/-- `x` and `y` point at each other. -/
def Joined (L : κ → Option α) (x y : κ) : Prop :=
  Points p L x y ∧ Points p L y x

variable (p) in
/-- No object points at itself. -/
def Apart (L : κ → Option α) : Prop :=
  ∀ x, ¬ Points p L x x

variable (p) in
/-- Joined objects are related. -/
def Agree (R : α → α → Prop) (L : κ → Option α) : Prop :=
  ∀ x y X Y, Joined p L x y → L x = some X → L y = some Y → R X Y

variable (p) in
/-- Whoever points at an object is joined to it. -/
def Mutual (L : κ → Option α) : Prop :=
  ∀ x y, Points p L x y → Points p L y x

variable (p) in
/-- Nobody else points at `x` or at `y`. -/
def Exclusive (L : κ → Option α) (x y : κ) : Prop :=
  ∀ w, (Points p L w x → w = y) ∧ (Points p L w y → w = x)

variable (p) in
/-- `x` points at an object that points at a third one. -/
def Stale (L : κ → Option α) (x : κ) : Prop :=
  ∃ y z, Points p L x y ∧ Points p L y z ∧ z ≠ x

theorem Points.intro (hX : L x = some X) (hp : p X = some y) : Points p L x y :=
  ⟨X, hX, hp⟩

theorem points_iff (hX : L x = some X) : Points p L x y ↔ p X = some y := by
  constructor
  · rintro ⟨X₀, hX₀, hp⟩
    rw [hX, Option.some.injEq] at hX₀
    rwa [hX₀]
  · exact .intro hX

theorem points_congr (h : L' x = L x) : Points p L' x y ↔ Points p L x y := by
  rw [Points, h, Points]

theorem not_points_of_none (hX : L x = none) : ¬ Points p L x y := by
  rintro ⟨X, hX', -⟩
  rw [hX] at hX'
  cases hX'

theorem Joined.symm (h : Joined p L x y) : Joined p L y x :=
  ⟨h.2, h.1⟩

theorem Points.unique (h : Points p L x y) (h' : Points p L x z) : y = z := by
  obtain ⟨X, hX, hp⟩ := h
  exact Option.some.inj (hp.symm.trans ((points_iff hX).1 h'))

theorem Mutual.joined (h : Mutual p L) (hxy : Points p L x y) : Joined p L x y :=
  ⟨hxy, h x y hxy⟩

theorem Exclusive.symm (h : Exclusive p L x y) : Exclusive p L y x :=
  fun w => (h w).symm

/-- Where pointers are mutual, joined objects are exclusive. -/
theorem Mutual.exclusive (h : Mutual p L) (hxy : Joined p L x y) : Exclusive p L x y :=
  fun w => ⟨fun hwx => (h w x hwx).unique hxy.1, fun hwy => (h w y hwy).unique hxy.2⟩

/-- Where pointers are mutual, none is stale. -/
theorem Mutual.not_stale (h : Mutual p L) : ¬ Stale p L x := by
  rintro ⟨y, z, hxy, hyz, hne⟩
  exact hne (hyz.unique (h x y hxy))

/-! ### Fewer pointers -/

variable (p) in
/-- No object points at one at which it did not point. -/
def Shrinks (L L' : κ → Option α) : Prop :=
  ∀ x y, Points p L' x y → Points p L x y

theorem Shrinks.refl (L : κ → Option α) : Shrinks p L L :=
  fun _ _ h => h

theorem Shrinks.trans (h : Shrinks p L L') (h' : Shrinks p L' L'') : Shrinks p L L'' :=
  fun x y hxy => h x y (h' x y hxy)

theorem Shrinks.joined (h : Shrinks p L L') (hxy : Joined p L' x y) : Joined p L x y :=
  ⟨h x y hxy.1, h y x hxy.2⟩

theorem Shrinks.stale (h : Shrinks p L L') (hx : Stale p L' x) : Stale p L x := by
  obtain ⟨y, z, hxy, hyz, hne⟩ := hx
  exact ⟨y, z, h x y hxy, h y z hyz, hne⟩

theorem Shrinks.exclusive (h : Shrinks p L L') (hL : Exclusive p L x y) : Exclusive p L' x y :=
  fun w => ⟨fun hw => (hL w).1 (h w x hw), fun hw => (hL w).2 (h w y hw)⟩

theorem Shrinks.apart (h : Shrinks p L L') (hL : Apart p L) : Apart p L' :=
  fun x hx => hL x (h x x hx)

/-! ### Operations -/

/-- Nothing changes but `x` and what `x` points at. -/
def Reaches (p : α → Option κ) (x : κ) (L L' : κ → Option α) : Prop :=
  ∀ z, z ≠ x → ¬ Points p L x z → L' z = L z

/-- **An operation on `x` keeps agreement**, if it keeps that of `x` with the object that
it is joined to, and if what `x` points at does not point at a third. -/
theorem Agree.reaches (hL : Agree p R L) (hreach : Reaches p x L L') (hshrinks : Shrinks p L L')
    (hown : ¬ Stale p L x)
    (hpair : ∀ y X' Y', Joined p L x y → Joined p L' x y → L' x = some X' → L' y = some Y' →
      R X' Y' ∧ R Y' X') : Agree p R L' := by
  intro a b A' B' hab hA' hB'
  have hab₀ : Joined p L a b := hshrinks.joined hab
  by_cases hax : a = x
  · subst hax
    exact (hpair b A' B' hab₀ hab hA' hB').1
  by_cases hbx : b = x
  · subst hbx
    exact (hpair a B' A' hab₀.symm hab.symm hB' hA').2
  -- If `x` points at one of the two, then that one is joined to `x`.
  have ha : L' a = L a := hreach a hax fun hxa => hown ⟨a, b, hxa, hab₀.1, hbx⟩
  have hb : L' b = L b := hreach b hbx fun hxb => hown ⟨b, a, hxb, hab₀.2, hax⟩
  exact hL a b A' B' hab₀ (ha ▸ hA') (hb ▸ hB')

/-- **An operation on `x` keeps mutuality**, if it takes away the pointers on both sides or
on neither, and gives no pointer to an object without. -/
theorem Mutual.reaches (hL : Mutual p L) (hreach : Reaches p x L L') (hshrinks : Shrinks p L L')
    (hpair : ∀ y, Joined p L x y → (Points p L' x y ↔ Points p L' y x)) : Mutual p L' := by
  intro a b hab
  have hab₀ : Joined p L a b := hL.joined (hshrinks a b hab)
  by_cases hax : a = x
  · subst hax
    exact (hpair b hab₀).1 hab
  by_cases hbx : b = x
  · subst hbx
    exact (hpair a hab₀.symm).2 hab
  have hb : L' b = L b := by
    refine hreach b hbx fun hxb => hax ?_
    exact hab₀.2.unique (hL x b hxb)
  exact (points_congr hb).2 hab₀.2

/-- Nothing changes but an object that neither before nor after points at another. -/
def Alone (p : α → Option κ) (x : κ) (L L' : κ → Option α) : Prop :=
  (∀ y, ¬ Points p L x y) ∧ (∀ y, ¬ Points p L' x y) ∧ ∀ z, z ≠ x → L' z = L z

theorem Alone.shrinks (h : Alone p x L L') : Shrinks p L L' := by
  intro a b hab
  by_cases ha : a = x
  · subst ha
    exact absurd hab (h.2.1 b)
  · exact (points_congr (h.2.2 a ha)).1 hab

theorem Alone.reaches (h : Alone p x L L') : Reaches p x L L' :=
  fun z hz _ => h.2.2 z hz

theorem Alone.agree (h : Alone p x L L') (hL : Agree p R L) : Agree p R L' :=
  hL.reaches h.reaches h.shrinks (fun ⟨y, _, hxy, _⟩ => h.1 y hxy)
    fun y _ _ hxy _ _ _ => absurd hxy.1 (h.1 y)

theorem Alone.mutual (h : Alone p x L L') (hL : Mutual p L) : Mutual p L' :=
  hL.reaches h.reaches h.shrinks fun y hxy => absurd hxy.1 (h.1 y)

/-- `x` and `y` are joined, and nothing else changes. -/
def Joins (p : α → Option κ) (x y : κ) (L L' : κ → Option α) : Prop :=
  Joined p L' x y ∧ ∀ z, z ≠ x → z ≠ y → L' z = L z

/-- After a join, `x` points at `y` only. -/
theorem Joined.eq_of_points (h : Joined p L x y) (hxz : Points p L x z) : z = y :=
  hxz.unique h.1

theorem Joins.apart (h : Joins p x y L L') (hne : x ≠ y) (hL : Apart p L) : Apart p L' := by
  intro z hz
  by_cases hzx : z = x
  · subst hzx
    exact hne (h.1.eq_of_points hz)
  by_cases hzy : z = y
  · subst hzy
    exact hne (h.1.symm.eq_of_points hz).symm
  exact hL z ((points_congr (h.2 z hzx hzy)).1 hz)

theorem Joins.agree (h : Joins p x y L L') (hL : Agree p R L)
    (hpair : ∀ X' Y', L' x = some X' → L' y = some Y' → R X' Y' ∧ R Y' X') : Agree p R L' := by
  intro a b A' B' hab hA' hB'
  by_cases hax : a = x
  · subst hax
    obtain rfl := h.1.eq_of_points hab.1
    exact (hpair A' B' hA' hB').1
  by_cases hay : a = y
  · subst hay
    obtain rfl := h.1.symm.eq_of_points hab.1
    exact (hpair B' A' hB' hA').2
  -- The two joined objects are joined to each other, so `a` is joined to a third one.
  have hbx : b ≠ x := by
    rintro rfl
    exact hay (h.1.eq_of_points hab.2)
  have hby : b ≠ y := by
    rintro rfl
    exact hax (h.1.symm.eq_of_points hab.2)
  have ha : L' a = L a := h.2 a hax hay
  have hb : L' b = L b := h.2 b hbx hby
  exact hL a b A' B' ⟨(points_congr ha).1 hab.1, (points_congr hb).1 hab.2⟩ (ha ▸ hA') (hb ▸ hB')

theorem Joins.mutual (h : Joins p x y L L') (hL : Mutual p L) (hx : ∀ z, ¬ Points p L x z)
    (hy : ∀ z, ¬ Points p L y z) : Mutual p L' := by
  intro a b hab
  by_cases hax : a = x
  · subst hax
    obtain rfl := h.1.eq_of_points hab
    exact h.1.2
  by_cases hay : a = y
  · subst hay
    obtain rfl := h.1.symm.eq_of_points hab
    exact h.1.1
  have hab₀ : Points p L a b := (points_congr (h.2 a hax hay)).1 hab
  have hba₀ : Points p L b a := hL a b hab₀
  have hbx : b ≠ x := by
    rintro rfl
    exact hx a hba₀
  have hby : b ≠ y := by
    rintro rfl
    exact hy a hba₀
  exact (points_congr (h.2 b hbx hby)).2 hba₀

/-- Two other objects are joined. -/
theorem Joins.exclusive {a b : κ} (h : Joins p a b L L') (hx : x ≠ a ∧ x ≠ b) (hy : y ≠ a ∧ y ≠ b)
    (hL : Exclusive p L x y) : Exclusive p L' x y := by
  intro w
  by_cases hwa : w = a
  · subst hwa
    exact ⟨fun hw => absurd (h.1.eq_of_points hw) hx.2, fun hw => absurd (h.1.eq_of_points hw) hy.2⟩
  by_cases hwb : w = b
  · subst hwb
    exact ⟨fun hw => absurd (h.1.symm.eq_of_points hw) hx.1,
      fun hw => absurd (h.1.symm.eq_of_points hw) hy.1⟩
  · simp only [points_congr (h.2 w hwa hwb)]
    exact hL w

end Partners
