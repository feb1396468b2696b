import Mathlib.Data.List.Basic
import Mathlib.Tactic.Common

/-!
# `Lib.Lts` — runs of a labelled transition relation

`Runs step p ls q`: the labels `ls`, one after the other, lead from `p` to `q`. `runs_append` splits and
joins runs, what a step keeps a run keeps (`Runs.invariant`), and a simulation of every step is one of
every run (`Runs.simulate`).
-/

namespace Lts

variable {Q L : Type} {step : Q → L → Q → Prop}

/-- The labels lead from one state to the other. -/
inductive Runs (step : Q → L → Q → Prop) : Q → List L → Q → Prop
  | nil {q} : Runs step q [] q
  | cons {p q r l ls} (hstep : step p l q) (hrest : Runs step q ls r) : Runs step p (l :: ls) r

theorem Runs.single {p q : Q} {l : L} (h : step p l q) : Runs step p [l] q := .cons h .nil

theorem runs_append {p r : Q} {ls ls' : List L} :
    Runs step p (ls ++ ls') r ↔ ∃ q, Runs step p ls q ∧ Runs step q ls' r := by
  induction ls generalizing p with
  | nil =>
      constructor
      · exact fun h => ⟨p, .nil, h⟩
      · rintro ⟨q, hnil, h⟩
        cases hnil
        exact h
  | cons l ls ih =>
      constructor
      · intro h
        cases h with
        | cons hstep hrest =>
            obtain ⟨q, hfirst, hsecond⟩ := ih.mp hrest
            exact ⟨q, .cons hstep hfirst, hsecond⟩
      · rintro ⟨q, hfirst, hsecond⟩
        cases hfirst with
        | cons hstep hrest => exact .cons hstep (ih.mpr ⟨q, hrest, hsecond⟩)

/-- One more step. -/
theorem Runs.snoc {p q r : Q} {ls : List L} {l : L} (h : Runs step p ls q) (hstep : step q l r) :
    Runs step p (ls ++ [l]) r :=
  runs_append.mpr ⟨q, h, .single hstep⟩

/-- **What a step keeps, a run keeps.** -/
theorem Runs.invariant (I : Q → Prop) (hI : ∀ p l q, I p → step p l q → I q) {p q : Q} {ls : List L}
    (hp : I p) (h : Runs step p ls q) : I q := by
  induction h with
  | nil => exact hp
  | cons hstep _ ih => exact ih (hI _ _ _ hp hstep)

/-- The step of one label of a run, with the runs in front of it and behind it. -/
theorem Runs.at_label {p r : Q} {ls ls' : List L} {l : L} (h : Runs step p (ls ++ l :: ls') r) :
    ∃ q q', Runs step p ls q ∧ step q l q' ∧ Runs step q' ls' r := by
  obtain ⟨q, hbefore, hrest⟩ := runs_append.mp h
  cases hrest with
  | cons hstep hbehind => exact ⟨q, _, hbefore, hstep, hbehind⟩

/-- **Simulation.** If the second relation can follow every step of the first with the same label, it can
    follow every run. -/
theorem Runs.simulate {Q' : Type} {step' : Q' → L → Q' → Prop} (R : Q → Q' → Prop)
    (hR : ∀ p l q p', R p p' → step p l q → ∃ q', step' p' l q' ∧ R q q') {p q : Q} {p' : Q'}
    {ls : List L} (hp : R p p') (h : Runs step p ls q) : ∃ q', Runs step' p' ls q' ∧ R q q' := by
  induction h generalizing p' with
  | nil => exact ⟨p', .nil, hp⟩
  | cons hstep _ ih =>
      obtain ⟨q', hstep', hq⟩ := hR _ _ _ _ hp hstep
      obtain ⟨r', hrest, hr⟩ := ih hq
      exact ⟨r', .cons hstep' hrest, hr⟩

end Lts
