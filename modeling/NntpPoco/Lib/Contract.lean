import NntpPoco.Lib.Prog

/-!
# `Lib.Contract` — contracts with both exits, and termination

`Prog.Triple` speaks of the runs that return. A `Contract` speaks of every run that ends: `Q` of what it
returns, `E` of what it throws. `Total` says in addition that the run does end; since a program has at
most one result it implies the contract (`Total.contract`), and the rules for atomic programs are stated
for it alone. The loop rule of `Total` takes a measure.
-/

namespace Prog

variable {ε σ τ α β : Type}

/-- `Q` where the program returned, `E` where it threw. -/
def Exit (Q : α → σ → Prop) (E : ε → σ → Prop) : Except ε α → σ → Prop
  | .ok a, t => Q a t
  | .error e, t => E e t

theorem Exit.imp {Q Q' : α → σ → Prop} {E E' : ε → σ → Prop} (hQ : ∀ a t, Q a t → Q' a t)
    (hE : ∀ e t, E e t → E' e t) {r : Except ε α} {t : σ} (h : Exit Q E r t) : Exit Q' E' r t := by
  cases r with
  | ok a => exact hQ a t h
  | error e => exact hE e t h

/-- Every run from `P` that ends, ends in `Q` or `E`. -/
def Contract (P : σ → Prop) (p : Prog ε σ α) (Q : α → σ → Prop) (E : ε → σ → Prop) : Prop :=
  ∀ s r t, P s → p.Evals s r t → Exit Q E r t

/-- Every run from `P` ends, in `Q` or `E`. -/
def Total (P : σ → Prop) (p : Prog ε σ α) (Q : α → σ → Prop) (E : ε → σ → Prop) : Prop :=
  ∀ s, P s → ∃ r t, p.Evals s r t ∧ Exit Q E r t

variable {P : σ → Prop} {Q : α → σ → Prop} {R : β → σ → Prop} {E : ε → σ → Prop}

/-- **A total contract is a contract.** -/
theorem Total.contract {p : Prog ε σ α} (h : Total P p Q E) : Contract P p Q E := by
  intro s r t hs heval
  obtain ⟨r', t', heval', hexit⟩ := h s hs
  obtain ⟨rfl, rfl⟩ := heval.unique heval'
  exact hexit

theorem Contract.imp {P' : σ → Prop} {Q' : α → σ → Prop} {E' : ε → σ → Prop} {p : Prog ε σ α}
    (h : Contract P p Q E) (hP : ∀ s, P' s → P s) (hQ : ∀ a t, Q a t → Q' a t)
    (hE : ∀ e t, E e t → E' e t) : Contract P' p Q' E' :=
  fun s r t hs heval => (h s r t (hP s hs) heval).imp hQ hE

theorem Total.imp {P' : σ → Prop} {Q' : α → σ → Prop} {E' : ε → σ → Prop} {p : Prog ε σ α}
    (h : Total P p Q E) (hP : ∀ s, P' s → P s) (hQ : ∀ a t, Q a t → Q' a t)
    (hE : ∀ e t, E e t → E' e t) : Total P' p Q' E' := by
  intro s hs
  obtain ⟨r, t, heval, hexit⟩ := h s (hP s hs)
  exact ⟨r, t, heval, hexit.imp hQ hE⟩

/-- What is kept whichever way the program ends. -/
theorem Keeps.contract {p : Prog ε σ α} (h : Keeps P p) : Contract P p (fun _ => P) fun _ => P := by
  intro s r t hs heval
  have ht := h s r t hs heval
  cases r with
  | ok a => exact ht
  | error e => exact ht

/-! ## Atomic programs -/

theorem total_lift {f : σ → Except ε α × σ} (h : ∀ s, P s → Exit Q E (f s).1 (f s).2) :
    Total P (lift f) Q E :=
  fun s hs => ⟨(f s).1, (f s).2, evals_lift.mpr rfl, h s hs⟩

theorem total_pure {a : α} (h : ∀ s, P s → Q a s) : Total P (pure a : Prog ε σ α) Q E :=
  total_lift h

theorem contract_pure {a : α} (h : ∀ s, P s → Q a s) : Contract P (pure a : Prog ε σ α) Q E :=
  (total_pure h).contract

theorem total_modify {f : σ → σ} {Q : Unit → σ → Prop} (h : ∀ s, P s → Q () (f s)) :
    Total P (modify f : Prog ε σ Unit) Q E :=
  total_lift h

theorem total_ofExcept {x : Except ε α} (h : ∀ s, P s → Exit Q E x s) :
    Total P (ofExcept x : Prog ε σ α) Q E :=
  total_lift h

/-! ## Sequencing -/

theorem Contract.bind {p : Prog ε σ α} {f : α → Prog ε σ β} (hp : Contract P p Q E)
    (hf : ∀ a, Contract (Q a) (f a) R E) : Contract P (p >>= f) R E := by
  intro s r t hs heval
  rcases evals_bind.mp heval with ⟨e, he, rfl⟩ | ⟨a, s', ha, hrest⟩
  · exact hp s _ t hs he
  · exact hf a s' r t (hp s _ s' hs ha) hrest

theorem Total.bind {p : Prog ε σ α} {f : α → Prog ε σ β} (hp : Total P p Q E)
    (hf : ∀ a, Total (Q a) (f a) R E) : Total P (p >>= f) R E := by
  intro s hs
  obtain ⟨r, s', heval, hexit⟩ := hp s hs
  cases r with
  | error e => exact ⟨_, s', heval.bind_error, hexit⟩
  | ok a =>
      obtain ⟨r, t, hrest, hend⟩ := hf a s' hexit
      exact ⟨r, t, heval.bind hrest, hend⟩

theorem Contract.ite {c : Prop} [Decidable c] {p q : Prog ε σ α} (hp : c → Contract P p Q E)
    (hq : ¬ c → Contract P q Q E) : Contract P (if c then p else q) Q E := by
  by_cases h : c
  · rw [if_pos h]
    exact hp h
  · rw [if_neg h]
    exact hq h

theorem Total.ite {c : Prop} [Decidable c] {p q : Prog ε σ α} (hp : c → Total P p Q E)
    (hq : ¬ c → Total P q Q E) : Total P (if c then p else q) Q E := by
  by_cases h : c
  · rw [if_pos h]
    exact hp h
  · rw [if_neg h]
    exact hq h

/-- What was thrown is handed on, so nothing is thrown any more. -/
theorem Total.attempt {p : Prog ε σ α} (hp : Total P p Q E) :
    Total P p.attempt (Exit Q E) fun _ _ => False := by
  intro s hs
  obtain ⟨x, t, heval, hexit⟩ := hp s hs
  exact ⟨.ok x, t, evals_attempt.mpr ⟨x, heval, rfl⟩, hexit⟩

theorem contract_zoom {view : τ → σ} {put : σ → τ → τ} {p : Prog ε σ α} {P : τ → Prop}
    {Q : α → τ → Prop} {E : ε → τ → Prop}
    (h : ∀ t r s', P t → p.Evals (view t) r s' → Exit Q E r (put s' t)) :
    Contract P (zoom view put p) Q E := by
  intro t r t' ht heval
  obtain ⟨s', hs', rfl⟩ := evals_zoom.mp heval
  exact h t r s' ht hs'

/-! ## Loops -/

/-- **Loops.** What every round that goes round again keeps holds wherever the loop is left. -/
theorem Contract.loop {body : β → Prog ε σ (β ⊕ α)} (I : β → σ → Prop)
    (hbody : ∀ b, Contract (I b) (body b)
      (fun x s => Sum.elim (fun b' => I b' s) (fun a => Q a s) x) E) (b : β) :
    Contract (I b) (loop body b) Q E := by
  intro s r t hs heval
  refine heval.loop_rule I (Exit Q E) ?_ hs
  intro b s y t hs hy
  have hexit := hbody b s y t hs hy
  rcases y with e | b' | a
  · exact hexit
  · exact hexit
  · exact hexit

/-- **Loops that end**: every round that goes round again makes the measure smaller. -/
theorem Total.loop {body : β → Prog ε σ (β ⊕ α)} (I : β → σ → Prop) (size : β → σ → ℕ)
    (hbody : ∀ b n, Total (fun s => I b s ∧ size b s = n) (body b)
      (fun x s => Sum.elim (fun b' => I b' s ∧ size b' s < n) (fun a => Q a s) x) E) (b : β) :
    Total (I b) (loop body b) Q E := by
  intro s hs
  -- on the measure, since a round makes it smaller by any amount
  induction hn : size b s using Nat.strong_induction_on generalizing b s with
  | _ n ih =>
      obtain ⟨y, s', hy, hexit⟩ := hbody b n s ⟨hs, hn⟩
      rcases y with e | b' | a
      · exact ⟨.error e, s', hy.loop_error, hexit⟩
      · obtain ⟨hs', hsmaller⟩ := hexit
        obtain ⟨r, t, hrest, hend⟩ := ih (size b' s') hsmaller b' s' hs' rfl
        exact ⟨r, t, hy.loop_again hrest, hend⟩
      · exact ⟨.ok a, s', hy.loop_exit, hexit⟩

end Prog
