import Mathlib.Data.Nat.Basic
import Mathlib.Tactic.Common

/-!
# `Lib.Prog` — imperative programs with a state, exceptions and unbounded loops

A shallow embedding for code that mutates a state, throws, and loops with no bound known in advance.
A `Prog ε σ α` is run with a fuel; the fuel only cuts loops off, and a result once reached stays
(`mono`, a field, so that every program built from the combinators has it).

* `Evals p s r t`: from `s` the program `p` ends in `t`, returning (`r = .ok a`) or throwing
  (`r = .error e`). The fuel is hidden behind an existential; `evals_*` are the big-step rules, as
  equivalences, so they serve for execution and for inversion.
* `Diverges p s`: no fuel is enough.
* `loop`: the one looping combinator. `Evals.loop_rule` (partial correctness) and `diverges_loop`
  (divergence) are its rules; `Rounds` says which rounds a loop comes to, whether or not it ends.
* `Keeps I p`: the frame rule, one lemma for each combinator.
* `Triple P p Q`: partial correctness of the runs that return, one rule for each combinator.
-/

/-- A program over the state `σ` that may throw an `ε`. `run n s = none` when the fuel `n` is not
    enough. -/
structure Prog (ε σ α : Type) where
  run : ℕ → σ → Option (Except ε α × σ)
  mono : ∀ {n m : ℕ} {s : σ} {x : Except ε α × σ}, n ≤ m → run n s = some x → run m s = some x

namespace Prog

variable {ε σ τ α β γ : Type}

/-! ## Combinators -/

/-- One atomic action: it always ends, by returning or by throwing. -/
def lift (f : σ → Except ε α × σ) : Prog ε σ α where
  run _ s := some (f s)
  mono _ h := h

/-- Return a value, the state unchanged. -/
protected def pure (a : α) : Prog ε σ α := lift fun s => (.ok a, s)

/-- Throw, the state unchanged. -/
def throw (e : ε) : Prog ε σ α := lift fun s => (.error e, s)

/-- The current state. -/
def get : Prog ε σ σ := lift fun s => (.ok s, s)

/-- Update the state. -/
def modify (f : σ → σ) : Prog ε σ Unit := lift fun s => (.ok (), f s)

/-- A pure computation that may throw. -/
def ofExcept (x : Except ε α) : Prog ε σ α := lift fun s => (x, s)

/-- What follows a first program that ended in `x`. -/
def andThen (f : α → Prog ε σ β) (n : ℕ) : Except ε α × σ → Option (Except ε β × σ)
  | (.ok a, s) => (f a).run n s
  | (.error e, s) => some (.error e, s)

theorem andThen_mono {f : α → Prog ε σ β} {n m : ℕ} {x : Except ε α × σ} {y : Except ε β × σ}
    (hnm : n ≤ m) (h : andThen f n x = some y) : andThen f m x = some y := by
  obtain ⟨r, s⟩ := x
  cases r with
  | ok a => exact (f a).mono hnm h
  | error e => exact h

/-- Sequencing: the second program runs only when the first one returned. -/
protected def bind (p : Prog ε σ α) (f : α → Prog ε σ β) : Prog ε σ β where
  run n s := (p.run n s).bind (andThen f n)
  mono hnm h := by
    obtain ⟨x, hx, hy⟩ := Option.bind_eq_some_iff.mp h
    exact Option.bind_eq_some_iff.mpr ⟨x, p.mono hnm hx, andThen_mono hnm hy⟩

instance : Monad (Prog ε σ) where
  pure := Prog.pure
  bind := Prog.bind

theorem ext {p q : Prog ε σ α} (h : ∀ n s, p.run n s = q.run n s) : p = q := by
  obtain ⟨f, hf⟩ := p
  obtain ⟨g, hg⟩ := q
  obtain rfl : f = g := funext fun n => funext fun s => h n s
  rfl

/-- Sequencing is associative. -/
theorem bind_assoc (p : Prog ε σ α) (f : α → Prog ε σ β) (g : β → Prog ε σ γ) :
    p >>= f >>= g = p >>= fun a => f a >>= g := by
  apply ext
  intro n s
  show ((p.run n s).bind (andThen f n)).bind (andThen g n) =
    (p.run n s).bind (andThen (fun a => (f a).bind g) n)
  rw [Option.bind_assoc]
  congr 1
  funext x
  obtain ⟨r, s'⟩ := x
  cases r with
  | ok a => rfl
  | error e => rfl

theorem map_bind (p : Prog ε σ α) (f : α → Prog ε σ β) (g : β → γ) :
    g <$> (p >>= f) = p >>= fun a => g <$> f a :=
  bind_assoc p f fun b => pure (g b)

/-- Run `p`, and hand what it threw on as a value. -/
def attempt (p : Prog ε σ α) : Prog ε σ (Except ε α) where
  run n s := (p.run n s).map fun x => (.ok x.1, x.2)
  mono hnm h := by
    obtain ⟨x, hx, hy⟩ := Option.map_eq_some_iff.mp h
    exact Option.map_eq_some_iff.mpr ⟨x, p.mono hnm hx, hy⟩

/-- Run a program on a component of a larger state. -/
def zoom (view : τ → σ) (put : σ → τ → τ) (p : Prog ε σ α) : Prog ε τ α where
  run n t := (p.run n (view t)).map fun x => (x.1, put x.2 t)
  mono hnm h := by
    obtain ⟨x, hx, hy⟩ := Option.map_eq_some_iff.mp h
    exact Option.map_eq_some_iff.mpr ⟨x, p.mono hnm hx, hy⟩

/-- One round of a loop after its body ended in `x`: `.inl b` goes round again with `b`, `.inr a`
    leaves with `a`, an exception leaves. -/
def afterBody (again : β → σ → Option (Except ε α × σ)) :
    Except ε (β ⊕ α) × σ → Option (Except ε α × σ)
  | (.ok (.inl b), s) => again b s
  | (.ok (.inr a), s) => some (.ok a, s)
  | (.error e, s) => some (.error e, s)

/-- `loop` with explicit fuel: each round costs one. -/
def loopRun (body : β → Prog ε σ (β ⊕ α)) : ℕ → β → σ → Option (Except ε α × σ)
  | 0, _, _ => none
  | n + 1, b, s => ((body b).run n s).bind (afterBody (loopRun body n))

theorem loopRun_succ_mono (body : β → Prog ε σ (β ⊕ α)) (n : ℕ) :
    ∀ (b : β) (s : σ) (x : Except ε α × σ),
      loopRun body n b s = some x → loopRun body (n + 1) b s = some x := by
  -- on the fuel: each round is run with one unit less
  induction n with
  | zero =>
      intro b s x h
      exact absurd h (by simp [loopRun])
  | succ n ih =>
      intro b s x h
      obtain ⟨⟨r, s'⟩, hbody, hrest⟩ := Option.bind_eq_some_iff.mp h
      refine Option.bind_eq_some_iff.mpr ⟨(r, s'), (body b).mono (Nat.le_succ n) hbody, ?_⟩
      cases r with
      | error e => exact hrest
      | ok v =>
          cases v with
          | inl b' => exact ih b' s' x hrest
          | inr a => exact hrest

theorem loopRun_mono (body : β → Prog ε σ (β ⊕ α)) {n m : ℕ} (hnm : n ≤ m) {b : β} {s : σ}
    {x : Except ε α × σ} (h : loopRun body n b s = some x) : loopRun body m b s = some x := by
  induction hnm with
  | refl => exact h
  | step _ ih => exact loopRun_succ_mono body _ b s x ih

/-- Repeat `body` from `b` until it leaves. -/
def loop (body : β → Prog ε σ (β ⊕ α)) (b : β) : Prog ε σ α where
  run n s := loopRun body n b s
  mono hnm h := loopRun_mono body hnm h

/-! ## Big-step evaluation -/

/-- From `s` the program ends in `t` with the result `r`, given enough fuel. -/
def Evals (p : Prog ε σ α) (s : σ) (r : Except ε α) (t : σ) : Prop := ∃ n, p.run n s = some (r, t)

/-- The program ends, by returning or by throwing. -/
def Halts (p : Prog ε σ α) (s : σ) : Prop := ∃ r t, p.Evals s r t

/-- No fuel is enough. -/
def Diverges (p : Prog ε σ α) (s : σ) : Prop := ∀ n, p.run n s = none

/-- A program has at most one result. -/
theorem Evals.unique {p : Prog ε σ α} {s : σ} {r r' : Except ε α} {t t' : σ}
    (h : p.Evals s r t) (h' : p.Evals s r' t') : r = r' ∧ t = t' := by
  obtain ⟨n, hn⟩ := h
  obtain ⟨m, hm⟩ := h'
  -- with the larger of the two fuels both runs end
  have hn' := p.mono (Nat.le_max_left n m) hn
  have hm' := p.mono (Nat.le_max_right n m) hm
  rw [hn'] at hm'
  simpa using hm'

theorem diverges_iff {p : Prog ε σ α} {s : σ} : p.Diverges s ↔ ¬ p.Halts s := by
  constructor
  · rintro h ⟨r, t, n, hn⟩
    rw [h n] at hn
    exact absurd hn (by simp)
  · intro h n
    cases hn : p.run n s with
    | none => rfl
    | some x => exact absurd ⟨x.1, x.2, n, hn⟩ h

/-- An evaluation found by running with one concrete fuel. -/
theorem Evals.of_run {p : Prog ε σ α} {s : σ} {r : Except ε α} {t : σ} (n : ℕ)
    (h : p.run n s = some (r, t)) : p.Evals s r t := ⟨n, h⟩

/-- The same where of the last state only the part `f` is known. -/
theorem exists_evals_of_run {p : Prog ε σ α} {s : σ} {r : Except ε α} {y : γ} (n : ℕ) (f : σ → γ)
    (h : (p.run n s).map (fun x => (x.1, f x.2)) = some (r, y)) : ∃ t, p.Evals s r t ∧ f t = y := by
  obtain ⟨⟨r', t⟩, hrun, hx⟩ := Option.map_eq_some_iff.mp h
  obtain ⟨rfl, hy⟩ := Prod.mk.inj hx
  exact ⟨t, .of_run n hrun, hy⟩

@[simp] theorem evals_lift {f : σ → Except ε α × σ} {s t : σ} {r : Except ε α} :
    (lift f).Evals s r t ↔ f s = (r, t) := by
  simp [Evals, lift]

@[simp] theorem evals_pure {a : α} {s t : σ} {r : Except ε α} :
    (pure a : Prog ε σ α).Evals s r t ↔ r = .ok a ∧ t = s := by
  show (lift fun s => ((.ok a : Except ε α), s)).Evals s r t ↔ _
  simp [eq_comm]

@[simp] theorem evals_throw {e : ε} {s t : σ} {r : Except ε α} :
    (throw e : Prog ε σ α).Evals s r t ↔ r = .error e ∧ t = s := by
  simp [throw, eq_comm]

@[simp] theorem evals_get {s t : σ} {r : Except ε σ} :
    (get : Prog ε σ σ).Evals s r t ↔ r = .ok s ∧ t = s := by
  simp [get, eq_comm]

@[simp] theorem evals_modify {f : σ → σ} {s t : σ} {r : Except ε Unit} :
    (modify f : Prog ε σ Unit).Evals s r t ↔ r = .ok () ∧ t = f s := by
  simp [modify, eq_comm]

@[simp] theorem evals_ofExcept {x : Except ε α} {s t : σ} {r : Except ε α} :
    (ofExcept x : Prog ε σ α).Evals s r t ↔ r = x ∧ t = s := by
  simp [ofExcept, eq_comm]

theorem evals_return (a : α) (s : σ) : (pure a : Prog ε σ α).Evals s (.ok a) s :=
  evals_pure.mpr ⟨rfl, rfl⟩

/-- **Sequencing.** Either the first program threw, or it returned and the second one ran. -/
theorem evals_bind {p : Prog ε σ α} {f : α → Prog ε σ β} {s t : σ} {r : Except ε β} :
    (p >>= f).Evals s r t ↔
      (∃ e, p.Evals s (.error e) t ∧ r = .error e) ∨
      (∃ a s', p.Evals s (.ok a) s' ∧ (f a).Evals s' r t) := by
  constructor
  · rintro ⟨n, hn⟩
    obtain ⟨⟨x, s'⟩, hp, hf⟩ := Option.bind_eq_some_iff.mp hn
    cases x with
    | error e =>
        have he : r = .error e ∧ t = s' := by simpa [andThen, eq_comm] using hf
        exact Or.inl ⟨e, he.2 ▸ ⟨n, hp⟩, he.1⟩
    | ok a => exact Or.inr ⟨a, s', ⟨n, hp⟩, ⟨n, hf⟩⟩
  · rintro (⟨e, ⟨n, hp⟩, rfl⟩ | ⟨a, s', ⟨n, hp⟩, ⟨m, hf⟩⟩)
    · exact ⟨n, Option.bind_eq_some_iff.mpr ⟨_, hp, rfl⟩⟩
    -- one fuel that is enough for both parts
    · exact ⟨max n m, Option.bind_eq_some_iff.mpr
        ⟨_, p.mono (Nat.le_max_left n m) hp, (f a).mono (Nat.le_max_right n m) hf⟩⟩

/-- Where both return, both have run. -/
theorem evals_bind_ok {p : Prog ε σ α} {f : α → Prog ε σ β} {s t : σ} {b : β} :
    (p >>= f).Evals s (.ok b) t ↔ ∃ a s', p.Evals s (.ok a) s' ∧ (f a).Evals s' (.ok b) t := by
  rw [evals_bind]
  constructor
  · rintro (⟨e, _, herr⟩ | hboth)
    · exact absurd herr (by simp)
    · exact hboth
  · exact Or.inr

theorem Evals.bind {p : Prog ε σ α} {f : α → Prog ε σ β} {s s' t : σ} {a : α} {r : Except ε β}
    (hp : p.Evals s (.ok a) s') (hf : (f a).Evals s' r t) : (p >>= f).Evals s r t :=
  evals_bind.mpr (Or.inr ⟨a, s', hp, hf⟩)

theorem Evals.bind_error {p : Prog ε σ α} {f : α → Prog ε σ β} {s t : σ} {e : ε}
    (hp : p.Evals s (.error e) t) : (p >>= f).Evals s (.error e) t :=
  evals_bind.mpr (Or.inl ⟨e, hp, rfl⟩)

/-- Where the first program is known to return, sequencing is its continuation. -/
theorem Evals.bind_iff {p : Prog ε σ α} {f : α → Prog ε σ β} {s s' t : σ} {a : α} {r : Except ε β}
    (hp : p.Evals s (.ok a) s') : (p >>= f).Evals s r t ↔ (f a).Evals s' r t := by
  constructor
  · intro h
    rcases evals_bind.mp h with ⟨e, he, _⟩ | ⟨a', s'', ha, hf⟩
    · exact absurd (hp.unique he).1 (by simp)
    · obtain ⟨h1, rfl⟩ := hp.unique ha
      cases h1
      exact hf
  · exact hp.bind

theorem evals_get_bind {f : σ → Prog ε σ β} {s t : σ} {r : Except ε β} :
    (get >>= f).Evals s r t ↔ (f s).Evals s r t :=
  Evals.bind_iff (evals_get.mpr ⟨rfl, rfl⟩)

theorem evals_modify_bind {g : σ → σ} {f : Unit → Prog ε σ β} {s t : σ} {r : Except ε β} :
    (modify g >>= f).Evals s r t ↔ (f ()).Evals (g s) r t :=
  Evals.bind_iff (evals_modify.mpr ⟨rfl, rfl⟩)

/-- Programs that evaluate alike, each from its own state, may be exchanged in front of a
    continuation. -/
theorem evals_bind_congr {p q : Prog ε σ α} {f : α → Prog ε σ β} {s s' t : σ} {r : Except ε β}
    (h : ∀ x u, p.Evals s x u ↔ q.Evals s' x u) :
    (p >>= f).Evals s r t ↔ (q >>= f).Evals s' r t := by
  rw [evals_bind, evals_bind]
  simp only [h]

/-- A result mapped through a function; an exception stays what it is. -/
theorem evals_map {p : Prog ε σ α} {f : α → β} {s t : σ} {r : Except ε β} :
    (f <$> p).Evals s r t ↔ ∃ x, p.Evals s x t ∧ r = x.map f := by
  show (p >>= fun a => pure (f a)).Evals s r t ↔ _
  rw [evals_bind]
  constructor
  · rintro (⟨e, he, rfl⟩ | ⟨a, s', ha, hf⟩)
    · exact ⟨.error e, he, rfl⟩
    · obtain ⟨rfl, rfl⟩ := evals_pure.mp hf
      exact ⟨.ok a, ha, rfl⟩
  · rintro ⟨x, hx, rfl⟩
    cases x with
    | error e => exact Or.inl ⟨e, hx, rfl⟩
    | ok a => exact Or.inr ⟨a, t, hx, evals_return _ _⟩

theorem Evals.map {p : Prog ε σ α} {s t : σ} {x : Except ε α} (h : p.Evals s x t) (f : α → β) :
    (f <$> p).Evals s (x.map f) t :=
  evals_map.mpr ⟨x, h, rfl⟩

@[simp] theorem evals_attempt {p : Prog ε σ α} {s t : σ} {r : Except ε (Except ε α)} :
    p.attempt.Evals s r t ↔ ∃ x, p.Evals s x t ∧ r = .ok x := by
  constructor
  · rintro ⟨n, hn⟩
    obtain ⟨⟨x, s'⟩, hp, hx⟩ := Option.map_eq_some_iff.mp hn
    cases hx
    exact ⟨x, ⟨n, hp⟩, rfl⟩
  · rintro ⟨x, ⟨n, hn⟩, rfl⟩
    exact ⟨n, Option.map_eq_some_iff.mpr ⟨_, hn, rfl⟩⟩

@[simp] theorem evals_zoom {view : τ → σ} {put : σ → τ → τ} {p : Prog ε σ α} {t t' : τ}
    {r : Except ε α} :
    (zoom view put p).Evals t r t' ↔ ∃ s', p.Evals (view t) r s' ∧ t' = put s' t := by
  constructor
  · rintro ⟨n, hn⟩
    obtain ⟨⟨x, s'⟩, hp, hx⟩ := Option.map_eq_some_iff.mp hn
    cases hx
    exact ⟨s', ⟨n, hp⟩, rfl⟩
  · rintro ⟨s', ⟨n, hn⟩, rfl⟩
    exact ⟨n, Option.map_eq_some_iff.mpr ⟨_, hn, rfl⟩⟩

theorem Evals.zoom {view : τ → σ} {put : σ → τ → τ} {p : Prog ε σ α} {t : τ} {s' : σ}
    {r : Except ε α} (h : p.Evals (view t) r s') : (zoom view put p).Evals t r (put s' t) :=
  evals_zoom.mpr ⟨s', h, rfl⟩

/-! ## Exceptions -/

/-- The program ends by throwing. -/
def Throws (p : Prog ε σ α) (s : σ) : Prop := ∃ e t, p.Evals s (.error e) t

theorem throws_iff_of_evals {p : Prog ε σ α} {s t : σ} {r : Except ε α} (h : p.Evals s r t) :
    p.Throws s ↔ ∃ e, r = .error e := by
  constructor
  · rintro ⟨e, t', heval⟩
    exact ⟨e, (h.unique heval).1⟩
  · rintro ⟨e, rfl⟩
    exact ⟨e, t, h⟩

/-- Where the first program returns, the second one decides. -/
theorem throws_bind_iff {p : Prog ε σ α} {f : α → Prog ε σ β} {s s' : σ} {a : α}
    (hp : p.Evals s (.ok a) s') : (p >>= f).Throws s ↔ (f a).Throws s' := by
  unfold Throws
  simp only [hp.bind_iff]

theorem throws_map_iff {p : Prog ε σ α} {f : α → β} {s : σ} :
    (f <$> p).Throws s ↔ p.Throws s := by
  constructor
  · rintro ⟨e, t, heval⟩
    obtain ⟨x, hx, herr⟩ := evals_map.mp heval
    cases x with
    | error e' => exact ⟨e', t, hx⟩
    | ok a => exact absurd herr (by simp [Except.map])
  · rintro ⟨e, t, heval⟩
    exact ⟨e, t, heval.map f⟩

/-! ## Loops -/

/-- **Unfolding a loop once.** -/
theorem evals_loop {body : β → Prog ε σ (β ⊕ α)} {b : β} {s t : σ} {r : Except ε α} :
    (loop body b).Evals s r t ↔
      (∃ e, (body b).Evals s (.error e) t ∧ r = .error e) ∨
      (∃ a, (body b).Evals s (.ok (.inr a)) t ∧ r = .ok a) ∨
      (∃ b' s', (body b).Evals s (.ok (.inl b')) s' ∧ (loop body b').Evals s' r t) := by
  constructor
  · rintro ⟨n, hn⟩
    cases n with
    | zero => exact absurd hn (by simp [loop, loopRun])
    | succ n =>
        obtain ⟨⟨x, s'⟩, hb, hrest⟩ := Option.bind_eq_some_iff.mp hn
        cases x with
        | error e =>
            have he : r = .error e ∧ t = s' := by simpa [afterBody, eq_comm] using hrest
            exact Or.inl ⟨e, he.2 ▸ ⟨n, hb⟩, he.1⟩
        | ok v =>
            cases v with
            | inl b' => exact Or.inr (Or.inr ⟨b', s', ⟨n, hb⟩, ⟨n, hrest⟩⟩)
            | inr a =>
                have ha : r = .ok a ∧ t = s' := by simpa [afterBody, eq_comm] using hrest
                exact Or.inr (Or.inl ⟨a, ha.2 ▸ ⟨n, hb⟩, ha.1⟩)
  · rintro (⟨e, ⟨n, hb⟩, rfl⟩ | ⟨a, ⟨n, hb⟩, rfl⟩ | ⟨b', s', ⟨n, hb⟩, ⟨m, hrest⟩⟩)
    · exact ⟨n + 1, Option.bind_eq_some_iff.mpr ⟨_, hb, rfl⟩⟩
    · exact ⟨n + 1, Option.bind_eq_some_iff.mpr ⟨_, hb, rfl⟩⟩
    · exact ⟨max n m + 1, Option.bind_eq_some_iff.mpr
        ⟨_, (body b).mono (Nat.le_max_left n m) hb, loopRun_mono body (Nat.le_max_right n m) hrest⟩⟩

/-- Unfolding a loop once, as a program. -/
theorem evals_loop_bind {body : β → Prog ε σ (β ⊕ α)} {b : β} {s t : σ} {r : Except ε α} :
    (loop body b).Evals s r t ↔ (body b >>= Sum.elim (loop body) pure).Evals s r t := by
  rw [evals_loop, evals_bind]
  constructor
  · rintro (⟨e, he, rfl⟩ | ⟨a, ha, rfl⟩ | ⟨b', s', hb, hrest⟩)
    · exact Or.inl ⟨e, he, rfl⟩
    · exact Or.inr ⟨.inr a, t, ha, evals_return _ _⟩
    · exact Or.inr ⟨.inl b', s', hb, hrest⟩
  · rintro (⟨e, he, rfl⟩ | ⟨x, s', hx, hrest⟩)
    · exact Or.inl ⟨e, he, rfl⟩
    · cases x with
      | inl b' => exact Or.inr (Or.inr ⟨b', s', hx, hrest⟩)
      | inr a =>
          obtain ⟨rfl, rfl⟩ := evals_pure.mp hrest
          exact Or.inr (Or.inl ⟨a, hx, rfl⟩)

theorem Evals.loop_again {body : β → Prog ε σ (β ⊕ α)} {b b' : β} {s s' t : σ} {r : Except ε α}
    (hb : (body b).Evals s (.ok (.inl b')) s') (hrest : (loop body b').Evals s' r t) :
    (loop body b).Evals s r t :=
  evals_loop.mpr (Or.inr (Or.inr ⟨b', s', hb, hrest⟩))

theorem Evals.loop_exit {body : β → Prog ε σ (β ⊕ α)} {b : β} {s t : σ} {a : α}
    (hb : (body b).Evals s (.ok (.inr a)) t) : (loop body b).Evals s (.ok a) t :=
  evals_loop.mpr (Or.inr (Or.inl ⟨a, hb, rfl⟩))

theorem Evals.loop_error {body : β → Prog ε σ (β ⊕ α)} {b : β} {s t : σ} {e : ε}
    (hb : (body b).Evals s (.error e) t) : (loop body b).Evals s (.error e) t :=
  evals_loop.mpr (Or.inl ⟨e, hb, rfl⟩)

/-- Where the body is known to go round again, the loop is the loop after that round. -/
theorem Evals.loop_iff {body : β → Prog ε σ (β ⊕ α)} {b b' : β} {s s' t : σ} {r : Except ε α}
    (hb : (body b).Evals s (.ok (.inl b')) s') :
    (loop body b).Evals s r t ↔ (loop body b').Evals s' r t := by
  constructor
  · intro h
    rcases evals_loop.mp h with ⟨e, he, _⟩ | ⟨a, ha, _⟩ | ⟨b'', s'', h1, h2⟩
    · exact absurd (hb.unique he).1 (by simp)
    · exact absurd (hb.unique ha).1 (by simp)
    · obtain ⟨heq, rfl⟩ := hb.unique h1
      cases heq
      exact h2
  · exact Evals.loop_again hb

/-- The loop entered at `b` in the state `s` comes to a round at `b'` in the state `s'`. -/
inductive Rounds (body : β → Prog ε σ (β ⊕ α)) (b : β) (s : σ) : β → σ → Prop
  | first : Rounds body b s b s
  | next {b₁ b₂ s₁ s₂} (h : Rounds body b s b₁ s₁)
      (hb : (body b₁).Evals s₁ (.ok (.inl b₂)) s₂) : Rounds body b s b₂ s₂

/-- What holds at the first round and is kept by every round holds at all of them. -/
theorem Rounds.invariant {body : β → Prog ε σ (β ⊕ α)} (I : β → σ → Prop)
    (hstep : ∀ b s b' s', I b s → (body b).Evals s (.ok (.inl b')) s' → I b' s')
    {b b' : β} {s s' : σ} (hI : I b s) (h : Rounds body b s b' s') : I b' s' := by
  induction h with
  | first => exact hI
  | next _ hb ih => exact hstep _ _ _ _ ih hb

/-- How a loop left: the last round of the body threw, or it left with a value. -/
def LastRound (body : β → Prog ε σ (β ⊕ α)) (b : β) (s : σ) (r : Except ε α) (t : σ) : Prop :=
  (∃ e, (body b).Evals s (.error e) t ∧ r = .error e) ∨
  (∃ a, (body b).Evals s (.ok (.inr a)) t ∧ r = .ok a)

/-- A loop that ends comes to a last round. -/
theorem Evals.loop_last {body : β → Prog ε σ (β ⊕ α)} {b b₁ : β} {s s₁ t : σ} {r : Except ε α}
    (hcome : Rounds body b s b₁ s₁) (h : (loop body b₁).Evals s₁ r t) :
    ∃ b' s', Rounds body b s b' s' ∧ LastRound body b' s' r t := by
  obtain ⟨n, hn⟩ := h
  -- on the fuel, hence on the rounds still to come
  induction n generalizing b₁ s₁ with
  | zero => exact absurd hn (by simp [loop, loopRun])
  | succ n ih =>
      obtain ⟨⟨x, s'⟩, hb, hrest⟩ := Option.bind_eq_some_iff.mp hn
      cases x with
      | error e =>
          have he : r = .error e ∧ t = s' := by simpa [afterBody, eq_comm] using hrest
          exact ⟨b₁, s₁, hcome, Or.inl ⟨e, he.2 ▸ ⟨n, hb⟩, he.1⟩⟩
      | ok v =>
          cases v with
          | inl b' => exact ih (hcome.next ⟨n, hb⟩) hrest
          | inr a =>
              have ha : r = .ok a ∧ t = s' := by simpa [afterBody, eq_comm] using hrest
              exact ⟨b₁, s₁, hcome, Or.inr ⟨a, ha.2 ▸ ⟨n, hb⟩, ha.1⟩⟩

/-- **Invariant rule.** What holds at the start and is kept by every round holds at the last one. -/
theorem Evals.loop_invariant {body : β → Prog ε σ (β ⊕ α)} (I : β → σ → Prop)
    (hstep : ∀ b s b' s', I b s → (body b).Evals s (.ok (.inl b')) s' → I b' s')
    {b : β} {s t : σ} {r : Except ε α} (hI : I b s) (h : (loop body b).Evals s r t) :
    ∃ b' s', I b' s' ∧ LastRound body b' s' r t := by
  obtain ⟨b', s', hrounds, hlast⟩ := Evals.loop_last .first h
  exact ⟨b', s', hrounds.invariant I hstep hI, hlast⟩

/-- What a round of a loop owes: the invariant where it goes round again, `Q` where it leaves. -/
def RoundPost (I : β → σ → Prop) (Q : Except ε α → σ → Prop) : Except ε (β ⊕ α) → σ → Prop
  | .ok (.inl b), t => I b t
  | .ok (.inr a), t => Q (.ok a) t
  | .error e, t => Q (.error e) t

/-- **Loop rule** for loops that end, whichever way they do. -/
theorem Evals.loop_rule {body : β → Prog ε σ (β ⊕ α)} (I : β → σ → Prop) (Q : Except ε α → σ → Prop)
    (hbody : ∀ b s y t, I b s → (body b).Evals s y t → RoundPost I Q y t)
    {b : β} {s t : σ} {r : Except ε α} (hI : I b s) (h : (loop body b).Evals s r t) : Q r t := by
  obtain ⟨b', s', hI', hlast⟩ := h.loop_invariant I
    (fun b s b' s' hs hb => hbody b s (.ok (.inl b')) s' hs hb) hI
  rcases hlast with ⟨e, he, rfl⟩ | ⟨a, ha, rfl⟩
  · exact hbody b' s' (.error e) t hI' he
  · exact hbody b' s' (.ok (.inr a)) t hI' ha

/-- **Divergence rule.** A loop whose every round goes round again, keeping `I`, never ends. -/
theorem diverges_loop {body : β → Prog ε σ (β ⊕ α)} (I : β → σ → Prop)
    (hstep : ∀ b s, I b s → ∃ b' s', (body b).Evals s (.ok (.inl b')) s' ∧ I b' s')
    {b : β} {s : σ} (hI : I b s) : (loop body b).Diverges s := by
  rw [diverges_iff]
  rintro ⟨r, t, h⟩
  -- a loop that ends has a last round, and no round is one
  have hkeep : ∀ b s b' s', I b s → (body b).Evals s (.ok (.inl b')) s' → I b' s' := by
    intro b s b' s' hI hb
    obtain ⟨b'', s'', hb'', hI''⟩ := hstep b s hI
    obtain ⟨heq, rfl⟩ := hb.unique hb''
    cases heq
    exact hI''
  obtain ⟨b', s', hI', hlast⟩ := h.loop_invariant I hkeep hI
  obtain ⟨b'', s'', hagain, _⟩ := hstep b' s' hI'
  rcases hlast with ⟨e, he, _⟩ | ⟨a, ha, _⟩
  · exact absurd (hagain.unique he).1 (by simp)
  · exact absurd (hagain.unique ha).1 (by simp)

/-! ## Frames -/

/-- `p` keeps `I`: whichever way it ends, `I` holds if it held before. -/
def Keeps (I : σ → Prop) (p : Prog ε σ α) : Prop := ∀ s r t, I s → p.Evals s r t → I t

variable {I : σ → Prop}

theorem keeps_lift {f : σ → Except ε α × σ} (h : ∀ s, I s → I (f s).2) : Keeps I (lift f) := by
  intro s r t hs heval
  rw [evals_lift] at heval
  have := h s hs
  rwa [heval] at this

theorem keeps_pure (a : α) : Keeps I (pure a : Prog ε σ α) := keeps_lift fun _ hs => hs

theorem keeps_throw (e : ε) : Keeps I (throw e : Prog ε σ α) := keeps_lift fun _ hs => hs

theorem keeps_get : Keeps I (get : Prog ε σ σ) := keeps_lift fun _ hs => hs

theorem keeps_modify {f : σ → σ} (h : ∀ s, I s → I (f s)) : Keeps I (modify f : Prog ε σ Unit) :=
  keeps_lift h

theorem keeps_ofExcept (x : Except ε α) : Keeps I (ofExcept x : Prog ε σ α) :=
  keeps_lift fun _ hs => hs

theorem Keeps.bind {p : Prog ε σ α} {f : α → Prog ε σ β} (hp : Keeps I p) (hf : ∀ a, Keeps I (f a)) :
    Keeps I (p >>= f) := by
  intro s r t hs heval
  rcases evals_bind.mp heval with ⟨e, he, _⟩ | ⟨a, s', ha, hrest⟩
  · exact hp s _ t hs he
  · exact hf a s' r t (hp s _ s' hs ha) hrest

theorem Keeps.map {p : Prog ε σ α} (hp : Keeps I p) (f : α → β) : Keeps I (f <$> p) :=
  hp.bind fun a => keeps_pure (f a)

theorem Keeps.attempt {p : Prog ε σ α} (hp : Keeps I p) : Keeps I p.attempt := by
  intro s r t hs heval
  obtain ⟨x, hx, _⟩ := evals_attempt.mp heval
  exact hp s x t hs hx

theorem Keeps.ite {c : Prop} [Decidable c] {p q : Prog ε σ α} (hp : Keeps I p) (hq : Keeps I q) :
    Keeps I (if c then p else q) := by
  by_cases h : c <;> simpa [h]

theorem Keeps.zoom {view : τ → σ} {put : σ → τ → τ} {J : τ → Prop} {p : Prog ε σ α}
    (hp : ∀ t r s', J t → p.Evals (view t) r s' → J (put s' t)) : Keeps J (zoom view put p) := by
  intro t r t' ht heval
  obtain ⟨s', hs', rfl⟩ := evals_zoom.mp heval
  exact hp t r s' ht hs'

/-- A loop keeps what every round of it keeps. -/
theorem Keeps.loop {body : β → Prog ε σ (β ⊕ α)} (hbody : ∀ b, Keeps I (body b)) (b : β) :
    Keeps I (loop body b) := by
  intro s r t hs heval
  obtain ⟨b', s', hs', hlast⟩ := heval.loop_invariant (fun _ s => I s)
    (fun b s b' s' hs hb => hbody b s _ s' hs hb) hs
  rcases hlast with ⟨e, he, _⟩ | ⟨a, ha, _⟩
  · exact hbody b' s' _ t hs' he
  · exact hbody b' s' _ t hs' ha

/-! ## Triples -/

/-- Partial correctness of the runs that return: from a state with `P`, a result and a state with
    `Q`. -/
def Triple (P : σ → Prop) (p : Prog ε σ α) (Q : α → σ → Prop) : Prop :=
  ∀ s a t, P s → p.Evals s (.ok a) t → Q a t

section Triple

variable {P : σ → Prop} {Q : α → σ → Prop} {R : β → σ → Prop}

theorem Keeps.triple {p : Prog ε σ α} (hp : Keeps P p) : Triple P p fun _ => P :=
  fun s _ t hs heval => hp s _ t hs heval

theorem triple_pure {a : α} (h : ∀ s, P s → Q a s) : Triple P (pure a : Prog ε σ α) Q := by
  intro s b t hs heval
  obtain ⟨hb, rfl⟩ := evals_pure.mp heval
  rw [Except.ok.inj hb]
  exact h t hs

theorem triple_throw (e : ε) : Triple P (throw e : Prog ε σ α) Q := by
  intro s a t _ heval
  exact absurd (evals_throw.mp heval).1 (by simp)

theorem triple_modify {f : σ → σ} {Q : Unit → σ → Prop} (h : ∀ s, P s → Q () (f s)) :
    Triple P (modify f : Prog ε σ Unit) Q := by
  intro s a t hs heval
  rw [(evals_modify.mp heval).2]
  exact h s hs

theorem triple_ofExcept {x : Except ε α} (h : ∀ a s, x = .ok a → P s → Q a s) :
    Triple P (ofExcept x : Prog ε σ α) Q := by
  intro s a t hs heval
  obtain ⟨hx, rfl⟩ := evals_ofExcept.mp heval
  exact h a t hx.symm hs

theorem triple_get {Q : σ → σ → Prop} (h : ∀ s, P s → Q s s) :
    Triple P (get : Prog ε σ σ) Q := by
  intro s a t hs heval
  obtain ⟨ha, rfl⟩ := evals_get.mp heval
  rw [Except.ok.inj ha]
  exact h t hs

/-- A fact about values only may be assumed outside. -/
theorem Triple.of_fact {φ : Prop} {p : Prog ε σ α} (h : φ → Triple P p Q) :
    Triple (fun s => φ ∧ P s) p Q :=
  fun s a t hs heval => h hs.1 s a t hs.2 heval

theorem Triple.bind {p : Prog ε σ α} {f : α → Prog ε σ β} (hp : Triple P p Q)
    (hf : ∀ a, Triple (Q a) (f a) R) : Triple P (p >>= f) R := by
  intro s b t hs heval
  obtain ⟨a, s', ha, hrest⟩ := evals_bind_ok.mp heval
  exact hf a s' b t (hp s a s' hs ha) hrest

theorem Triple.ite {c : Prop} [Decidable c] {p q : Prog ε σ α} (hp : c → Triple P p Q)
    (hq : ¬ c → Triple P q Q) : Triple P (if c then p else q) Q := by
  by_cases h : c
  · rw [if_pos h]
    exact hp h
  · rw [if_neg h]
    exact hq h

/-- **Loops.** What every round that goes round again keeps holds where the loop is left. -/
theorem Triple.loop {body : β → Prog ε σ (β ⊕ α)} (I : β → σ → Prop)
    (hbody : ∀ b, Triple (I b) (body b) fun x s => Sum.elim (fun b' => I b' s) (fun a => Q a s) x)
    (b : β) : Triple (I b) (loop body b) Q := by
  intro s a t hs heval
  obtain ⟨b', s', hs', hlast⟩ := heval.loop_invariant I
    (fun b s b' s' hs hb => hbody b s (.inl b') s' hs hb) hs
  rcases hlast with ⟨e, _, herr⟩ | ⟨a', ha, hok⟩
  · exact absurd herr (by simp)
  · rw [Except.ok.inj hok]
    exact hbody b' s' (.inr a') t hs' ha

end Triple

end Prog
