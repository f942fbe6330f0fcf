import Mathlib.Data.List.Basic

/-!
# Labelled transition systems, their runs and their reachable states

A system `Lts σ ℓ` is a set of initial states and a relation that says which
state a label leads to. Labels carry whatever an observer can see of a step:
what was received, and what was sent in answer.

* `Lts.Run` is a finite run with the list of its labels, oldest first. Facts
  about a run that speak of its past are proved with `Lts.Run.history`, whose
  invariant may read the labels seen so far.
* `Lts.Reachable` is the set of states met on runs from an initial state, with
  the induction rule `Lts.Reachable.invariant`.
* `Lts.Run.simulate` carries a run over to another system with the same labels,
  `Lts.Run.simulate_runs` to one that takes several steps for each of them.
* `Lts.traced` puts the state before a step into its label, so that what is read off the
  labels of a run may depend on the states passed through.
* `Lts.restrict` keeps the steps that meet a condition on the state before and
  the label. A property that holds only as long as no step does a certain thing
  is a property of the restricted system.
-/

universe u u' v v'

/-- A labelled transition system: where it may start, and how it may move. -/
structure Lts (σ : Type u) (ℓ : Type v) where
  /-- The initial states. -/
  Init : σ → Prop
  /-- `Step s l s'`: the label `l` may lead from `s` to `s'`. -/
  Step : σ → ℓ → σ → Prop

namespace Lts

variable {σ : Type u} {ℓ : Type v}

/-! ### Runs and reachable states -/

/-- `T.Run s ls s'`: the labels `ls`, in this order, lead from `s` to `s'`. -/
inductive Run (T : Lts σ ℓ) : σ → List ℓ → σ → Prop
  | nil (s : σ) : Run T s [] s
  | cons {s l s' ls s''} : T.Step s l s' → Run T s' ls s'' → Run T s (l :: ls) s''

/-- The states met on runs from an initial state. -/
inductive Reachable (T : Lts σ ℓ) : σ → Prop
  | init {s} : T.Init s → Reachable T s
  | step {s l s'} : Reachable T s → T.Step s l s' → Reachable T s'

variable {T : Lts σ ℓ} {s s' s'' : σ} {l : ℓ} {ls ls' : List ℓ}

namespace Run

theorem single (h : T.Step s l s') : T.Run s [l] s' :=
  .cons h (.nil s')

theorem append (h : T.Run s ls s') (h' : T.Run s' ls' s'') : T.Run s (ls ++ ls') s'' := by
  induction h with
  | nil => exact h'
  | cons hstep _ ih => exact .cons hstep (ih h')

/-- A run over a concatenation passes through a state between the two parts. -/
theorem split (h : T.Run s (ls ++ ls') s'') : ∃ s', T.Run s ls s' ∧ T.Run s' ls' s'' := by
  induction ls generalizing s with
  | nil => exact ⟨s, .nil s, h⟩
  | cons l ls ih =>
    cases h with
    | cons hstep hrest =>
      obtain ⟨m, h₁, h₂⟩ := ih hrest
      exact ⟨m, .cons hstep h₁, h₂⟩

/-- **Invariants with a past.** A relation between the labels seen so far and
the state, true at the start and kept by every step, holds along the run. -/
theorem history (Inv : List ℓ → σ → Prop) (h : Inv [] s)
    (hstep : ∀ past s l s', Inv past s → T.Step s l s' → Inv (past ++ [l]) s')
    (hrun : T.Run s ls s') : Inv ls s' := by
  suffices hpast : ∀ past, Inv past s → Inv (past ++ ls) s' from hpast [] h
  clear h
  induction hrun with
  | nil =>
    intro past h
    rwa [List.append_nil]
  | @cons s l s' ls s'' hs _ ih =>
    intro past h
    have := ih (past ++ [l]) (hstep past s l s' h hs)
    rwa [List.append_assoc] at this

/-- The rule for an invariant of the state alone. -/
theorem preserves (Inv : σ → Prop) (h : Inv s)
    (hstep : ∀ s l s', Inv s → T.Step s l s' → Inv s') (hrun : T.Run s ls s') : Inv s' := by
  induction hrun with
  | nil => exact h
  | cons hs _ ih => exact ih (hstep _ _ _ h hs)

/-- Where a label leads to one state at most, so do the labels of a run. -/
theorem deterministic (hdet : ∀ s l s₁ s₂, T.Step s l s₁ → T.Step s l s₂ → s₁ = s₂)
    (h : T.Run s ls s') (h' : T.Run s ls s'') : s' = s'' := by
  induction h with
  | nil =>
    cases h'
    rfl
  | cons hstep _ ih =>
    cases h' with
    | cons hstep' hrest' => exact ih (hdet _ _ _ _ hstep hstep' ▸ hrest')

@[simp] theorem nil_iff : T.Run s [] s' ↔ s' = s := by
  constructor
  · intro h
    cases h
    rfl
  · rintro rfl
    exact .nil s'

@[simp] theorem cons_iff : T.Run s (l :: ls) s'' ↔ ∃ s', T.Step s l s' ∧ T.Run s' ls s'' := by
  constructor
  · intro h
    cases h with
    | cons hstep hrest => exact ⟨_, hstep, hrest⟩
  · rintro ⟨s', hstep, hrest⟩
    exact .cons hstep hrest

/-- **Simulation.** A relation that every step keeps, together with a step of the other
system under the same label, is kept by every run. -/
theorem simulate {τ : Type v'} {T' : Lts τ ℓ} (R : σ → τ → Prop)
    (hstep : ∀ s l s' t, R s t → T.Step s l s' → ∃ t', T'.Step t l t' ∧ R s' t')
    (hrun : T.Run s ls s') {t : τ} (h : R s t) : ∃ t', T'.Run t ls t' ∧ R s' t' := by
  induction hrun generalizing t with
  | nil => exact ⟨t, .nil t, h⟩
  | cons hs _ ih =>
    obtain ⟨t₁, ht₁, hR₁⟩ := hstep _ _ _ _ h hs
    obtain ⟨t', hrun', hR'⟩ := ih hR₁
    exact ⟨t', .cons ht₁ hrun', hR'⟩

/-- **Simulation by runs.** Each step is matched by a run of the other system, with labels that
stand in a relation to its label. So is a whole run, by these runs one after the other. -/
theorem simulate_runs {τ : Type u'} {ℓ' : Type v'} {T' : Lts τ ℓ'} (R : σ → τ → Prop)
    (E : ℓ → List ℓ' → Prop)
    (hstep : ∀ s l s' t, R s t → T.Step s l s' → ∃ ks t', T'.Run t ks t' ∧ E l ks ∧ R s' t')
    (hrun : T.Run s ls s') {t : τ} (h : R s t) :
    ∃ kss t', T'.Run t kss.flatten t' ∧ List.Forall₂ E ls kss ∧ R s' t' := by
  induction hrun generalizing t with
  | nil => exact ⟨[], t, .nil t, .nil, h⟩
  | cons hs _ ih =>
    obtain ⟨ks, t₁, ht₁, hE, hR₁⟩ := hstep _ _ _ _ h hs
    obtain ⟨kss, t', hrun', hEs, hR'⟩ := ih hR₁
    exact ⟨ks :: kss, t', ht₁.append hrun', .cons hE hEs, hR'⟩

end Run

/-! ### The invariant rule of reachable states -/

namespace Reachable

/-- **Invariant rule.** What holds initially and is kept by every step from a
reachable state holds of every reachable state. -/
theorem invariant (Inv : σ → Prop) (hinit : ∀ s, T.Init s → Inv s)
    (hstep : ∀ s l s', T.Reachable s → Inv s → T.Step s l s' → Inv s')
    (h : T.Reachable s) : Inv s := by
  induction h with
  | init h => exact hinit _ h
  | step hr hs ih => exact hstep _ _ _ hr ih hs

theorem run (h : T.Reachable s) (hrun : T.Run s ls s') : T.Reachable s' := by
  induction hrun with
  | nil => exact h
  | cons hstep _ ih => exact ih (.step h hstep)

end Reachable

/-! ### Runs with their states -/

/-- The steps of `T`, each labelled with the state before it as well. -/
def traced (T : Lts σ ℓ) : Lts σ (σ × ℓ) where
  Init := T.Init
  Step s p s' := p.1 = s ∧ T.Step s p.2 s'

theorem Run.traced (h : T.Run s ls s') :
    ∃ ps : List (σ × ℓ), T.traced.Run s ps s' ∧ ps.map Prod.snd = ls := by
  induction h with
  | nil => exact ⟨[], .nil _, rfl⟩
  | @cons s l _ _ _ hs _ ih =>
    obtain ⟨ps, hrun, hps⟩ := ih
    exact ⟨(s, l) :: ps, .cons ⟨rfl, hs⟩ hrun, congrArg (l :: ·) hps⟩

/-! ### Restriction to the steps that meet a condition -/

/-- The steps of `T` that meet `ok`, a condition on the state before the step and
the label. -/
def restrict (T : Lts σ ℓ) (ok : σ → ℓ → Prop) : Lts σ ℓ where
  Init := T.Init
  Step s l s' := ok s l ∧ T.Step s l s'

variable {ok : σ → ℓ → Prop}

@[simp] theorem restrict_init : (T.restrict ok).Init = T.Init := rfl

@[simp] theorem restrict_step : (T.restrict ok).Step s l s' ↔ ok s l ∧ T.Step s l s' := Iff.rfl

theorem Reachable.of_restrict (h : (T.restrict ok).Reachable s) : T.Reachable s := by
  induction h with
  | init h => exact .init h
  | step _ hs ih => exact .step ih hs.2

/-- A condition that is weaker in the states reached leaves these states reachable. -/
theorem Reachable.restrict_mono {ok' : σ → ℓ → Prop}
    (hok : ∀ s l, (T.restrict ok).Reachable s → ok s l → ok' s l)
    (h : (T.restrict ok).Reachable s) : (T.restrict ok').Reachable s := by
  induction h with
  | init h => exact .init h
  | step hr hs ih => exact .step ih ⟨hok _ _ hr hs.1, hs.2⟩

theorem Run.of_restrict (h : (T.restrict ok).Run s ls s') : T.Run s ls s' := by
  induction h with
  | nil => exact .nil _
  | cons hs _ ih => exact .cons hs.2 ih

/-- A run whose labels meet a condition in every state is one of the restricted
system. -/
theorem Run.restrict (h : T.Run s ls s') (hok : ∀ l ∈ ls, ∀ s, ok s l) :
    (T.restrict ok).Run s ls s' := by
  induction h with
  | nil => exact .nil _
  | cons hs _ ih =>
    rw [List.forall_mem_cons] at hok
    exact .cons ⟨hok.1 _, hs⟩ (ih hok.2)

/-- A condition that can be read off the labels alone holds along a run exactly if it
holds of its labels. -/
theorem Run.restrict_iff {P : ℓ → Prop} (hP : ∀ s l s', T.Step s l s' → (ok s l ↔ P l))
    (h : T.Run s ls s') : (T.restrict ok).Run s ls s' ↔ ∀ l ∈ ls, P l := by
  constructor
  · intro hrun
    clear h
    induction hrun with
    | nil => simp
    | cons hs _ ih => exact List.forall_mem_cons.2 ⟨(hP _ _ _ hs.2).1 hs.1, ih⟩
  · intro hall
    induction h with
    | nil => exact .nil _
    | cons hs _ ih =>
      rw [List.forall_mem_cons] at hall
      exact .cons ⟨(hP _ _ _ hs).2 hall.1, hs⟩ (ih hall.2)

end Lts
