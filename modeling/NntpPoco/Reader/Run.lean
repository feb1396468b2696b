import NntpPoco.Poco.Reference
import NntpPoco.Reader.Model
import NntpPoco.Session.Outcome

/-!
# `Reader.Run` — whole runs of `main`

The loops of `main` visit three points over and over: the calls of `selectGroup`, `selectArticle` and
`displayArticle`. `Reached` says with which reader, from any console and any peer; `rest_evals` and
`reached_of_readGroups` say that these are the points of `main`'s own run, and its only ones. `main_cases`
says what is left of `main` behind its loops.
-/

namespace NntpPoco

open Prog NNTPClientSession

namespace NewsReader

variable {π μ α β : Type} {poco : Poco π μ α}

/-! ## The steps of a run -/

/-- A call in the loops of `main`. -/
inductive Point
  | selectGroup
  | selectArticle
  | displayArticle
  deriving DecidableEq, Repr

/-- The call at `point` is about to be made, on the reader `r`. -/
inductive Reached (poco : Poco π μ α) (start : NewsReader π α) : Point → NewsReader π α → Prop
  | constructed {r} (h : (construct poco).Evals start (.ok ()) r) : Reached poco start .selectGroup r
  | groupSelected {r r'} (hr : Reached poco start .selectGroup r)
      (h : (selectGroup poco).Evals r (.ok true) r') : Reached poco start .selectArticle r'
  | articleSelected {r r'} (hr : Reached poco start .selectArticle r)
      (h : (selectArticle poco).Evals r (.ok true) r') : Reached poco start .displayArticle r'
  | articlesLeft {r r'} (hr : Reached poco start .selectArticle r)
      (h : (selectArticle poco).Evals r (.ok false) r') : Reached poco start .selectGroup r'
  | displayed {r r'} (hr : Reached poco start .displayArticle r)
      (h : (displayArticle poco).Evals r (.ok ()) r') : Reached poco start .selectArticle r'

/-- What `main` has still to do at a point. -/
def rest (poco : Poco π μ α) : Point → Method π α Unit
  | .selectGroup => readGroups poco
  | .selectArticle => readArticles poco >>= fun _ => readGroups poco
  | .displayArticle => displayArticle poco >>= fun _ => readArticles poco >>= fun _ => readGroups poco

/-- One round of the inner loop of `main`. -/
def articleRound (poco : Poco π μ α) (_ : Unit) : Method π α (Unit ⊕ Unit) := do
  let selected ← selectArticle poco
  if selected then
    displayArticle poco
    pure (.inl ())
  else
    pure (.inr ())

theorem readArticles_eq : readArticles poco = loop (articleRound poco) () := rfl

/-- One round of the outer loop of `main`. -/
def groupRound (poco : Poco π μ α) (_ : Unit) : Method π α (Unit ⊕ Unit) := do
  let selected ← selectGroup poco
  if selected then
    readArticles poco
    pure (.inl ())
  else
    pure (.inr ())

theorem readGroups_eq : readGroups poco = loop (groupRound poco) () := rfl

/-- The calls up to the first menu of articles. -/
def openGroup (poco : Poco π μ α) : Method π α Bool := do
  construct poco
  selectGroup poco

/-- The calls up to the first article shown. -/
def openArticle (poco : Poco π μ α) : Method π α Bool := do
  let selected ← openGroup poco
  if selected then selectArticle poco else pure false

theorem reached_of_openGroup {start r : NewsReader π α} (h : (openGroup poco).Evals start (.ok true) r) :
    Reached poco start .selectArticle r := by
  obtain ⟨_, r₀, hconstruct, hgroup⟩ := evals_bind_ok.mp h
  exact .groupSelected (.constructed hconstruct) hgroup

theorem reached_of_openArticle {start r : NewsReader π α}
    (h : (openArticle poco).Evals start (.ok true) r) : Reached poco start .displayArticle r := by
  obtain ⟨selected, r₁, hgroup, harticle⟩ := evals_bind_ok.mp h
  cases selected with
  | false => exact absurd (evals_pure.mp harticle).1 (by simp)
  | true => exact .articleSelected (reached_of_openGroup hgroup) harticle

section Rest

variable {r r' t : NewsReader π α} {x : Except Exception Unit}

/-- A group has been selected: its articles, and then the next group. -/
theorem readGroups_selected (h : (selectGroup poco).Evals r (.ok true) r') :
    (readGroups poco).Evals r x t ↔
      (readArticles poco >>= fun _ => readGroups poco).Evals r' x t := by
  rw [readGroups_eq, evals_loop_bind]
  unfold groupRound
  rw [bind_assoc, h.bind_iff, if_pos rfl, bind_assoc]
  rfl

/-- An article has been selected: it is shown, and then the next one. -/
theorem readArticles_selected (h : (selectArticle poco).Evals r (.ok true) r') :
    (readArticles poco).Evals r x t ↔
      (displayArticle poco >>= fun _ => readArticles poco).Evals r' x t := by
  rw [readArticles_eq, evals_loop_bind]
  unfold articleRound
  rw [bind_assoc, h.bind_iff, if_pos rfl, bind_assoc]
  rfl

/-- No more articles. -/
theorem readArticles_left (h : (selectArticle poco).Evals r (.ok false) r') :
    (readArticles poco).Evals r (.ok ()) r' := by
  rw [readArticles_eq, evals_loop_bind]
  unfold articleRound
  rw [bind_assoc, h.bind_iff]
  exact evals_return _ _

/-- **The points that are reached are points of `main`'s run**: from each of them it goes on as `rest`
    says. -/
theorem rest_evals {start : NewsReader π α} {point : Point} (hr : Reached poco start point r) :
    (construct poco >>= fun _ => readGroups poco).Evals start x t ↔
      (rest poco point).Evals r x t := by
  -- on the way to the point: each step of it is a step of the loops
  induction hr with
  | constructed h => exact h.bind_iff
  | groupSelected _ h ih => exact ih.trans (readGroups_selected h)
  | @articleSelected r r' _ h ih =>
      apply ih.trans
      show (readArticles poco >>= fun _ => readGroups poco).Evals r x t ↔ _
      rw [evals_bind_congr fun y u => readArticles_selected (x := y) (t := u) h, bind_assoc]
      rfl
  | articlesLeft _ h ih => exact ih.trans (readArticles_left h).bind_iff
  | displayed _ h ih => exact ih.trans h.bind_iff

end Rest

/-- The call at `point`, of a reader `r`, ends by an exception. -/
def Point.Ends (poco : Poco π μ α) (r : NewsReader π α) (e : Exception) (t : NewsReader π α) :
    Point → Prop
  | .selectGroup => (NewsReader.selectGroup poco).Evals r (.error e) t
  | .selectArticle => (NewsReader.selectArticle poco).Evals r (.error e) t
  | .displayArticle => (NewsReader.displayArticle poco).Evals r (.error e) t

/-- A run ends by the exception of a call at a point it has reached. -/
def EndsAtPoint (poco : Poco π μ α) (start : NewsReader π α) (x : Except Exception Unit)
    (t : NewsReader π α) : Prop :=
  ∃ point r e, Reached poco start point r ∧ point.Ends poco r e t ∧ x = .error e

theorem reached_of_readArticles {start r t : NewsReader π α} {x : Except Exception Unit}
    (hr : Reached poco start .selectArticle r) (h : (readArticles poco).Evals r x t) :
    (x = .ok () ∧ Reached poco start .selectGroup t) ∨ EndsAtPoint poco start x t := by
  rw [readArticles_eq] at h
  refine h.loop_rule (fun _ r => Reached poco start .selectArticle r)
    (fun x t => (x = .ok () ∧ Reached poco start .selectGroup t) ∨ EndsAtPoint poco start x t) ?_ hr
  intro _ r y t hr hy
  unfold articleRound at hy
  rcases evals_bind.mp hy with ⟨e, he, rfl⟩ | ⟨selected, r', hselected, hy⟩
  · exact Or.inr ⟨.selectArticle, r, e, hr, he, rfl⟩
  · cases selected with
    | false =>
        obtain ⟨rfl, rfl⟩ := evals_pure.mp hy
        exact Or.inl ⟨rfl, .articlesLeft hr hselected⟩
    | true =>
        have hreached := Reached.articleSelected hr hselected
        rcases evals_bind.mp hy with ⟨e, he, rfl⟩ | ⟨_, r'', hdisplayed, hy⟩
        · exact Or.inr ⟨.displayArticle, r', e, hreached, he, rfl⟩
        · obtain ⟨rfl, rfl⟩ := evals_pure.mp hy
          exact Reached.displayed hreached hdisplayed

/-- **No other points**: where the loops of `main` end, `selectGroup` has returned false, or the call at
    a point that was reached has thrown. -/
theorem reached_of_readGroups {start r t : NewsReader π α} {x : Except Exception Unit}
    (hr : Reached poco start .selectGroup r) (h : (readGroups poco).Evals r x t) :
    (x = .ok () ∧ ∃ r', Reached poco start .selectGroup r' ∧
      (selectGroup poco).Evals r' (.ok false) t) ∨ EndsAtPoint poco start x t := by
  rw [readGroups_eq] at h
  refine h.loop_rule (fun _ r => Reached poco start .selectGroup r)
    (fun x t => (x = .ok () ∧ ∃ r', Reached poco start .selectGroup r' ∧
      (selectGroup poco).Evals r' (.ok false) t) ∨ EndsAtPoint poco start x t) ?_ hr
  intro _ r y t hr hy
  unfold groupRound at hy
  rcases evals_bind.mp hy with ⟨e, he, rfl⟩ | ⟨selected, r', hselected, hy⟩
  · exact Or.inr ⟨.selectGroup, r, e, hr, he, rfl⟩
  · cases selected with
    | false =>
        obtain ⟨rfl, rfl⟩ := evals_pure.mp hy
        exact Or.inl ⟨rfl, r, hr, hselected⟩
    | true =>
        have hreached := Reached.groupSelected hr hselected
        rcases evals_bind.mp hy with ⟨e, he, rfl⟩ | ⟨_, r'', hread, hy⟩
        · rcases reached_of_readArticles hreached he with ⟨herr, _⟩ | hends
          · exact absurd herr (by simp)
          · obtain ⟨point, r₁, e', hpoint, hthrows, herr⟩ := hends
            exact Or.inr ⟨point, r₁, e', hpoint, hthrows, congrArg _ (Except.error.inj herr)⟩
        · obtain ⟨rfl, rfl⟩ := evals_pure.mp hy
          rcases reached_of_readArticles hreached hread with ⟨_, hnext⟩ | ⟨_, _, _, _, _, herr⟩
          · exact hnext
          · exact absurd herr (by simp)

/-! ## The end of `main` -/

/-- What `main` makes of the end of its `try` block. -/
def exitCode : Except Exception Unit → Except Exception ℕ
  | .ok _ => .ok 0
  | .error .undefined => .error .undefined
  | .error _ => .ok 1

theorem exitCode_returns {y : Except Exception Unit} (hy : y ≠ .error .undefined) :
    ∃ n, exitCode y = .ok n := by
  cases y with
  | ok u => exact ⟨0, rfl⟩
  | error e =>
      cases e with
      | undefined => exact absurd rfl hy
      | _ => exact ⟨1, rfl⟩

/-- **Behind its `try` block** `main` destroys the session and turns the outcome into its exit code; behind
    an undefined behaviour there is nothing. -/
theorem main_cases {start t : NewsReader π α} {x : Except Exception ℕ}
    (h : (main poco).Evals start x t) :
    ∃ y r s, (construct poco >>= fun _ => readGroups poco).Evals start y r ∧ x = exitCode y ∧
      t = { r with m_session := s } ∧ ((y = .error .undefined ∧ s = r.m_session) ∨
        (y ≠ .error .undefined ∧ (destroy poco).Evals r.m_session (.ok ()) s)) := by
  unfold main at h
  rcases evals_bind.mp h with ⟨e, herr, _⟩ | ⟨y, r, hattempt, hrest⟩
  · obtain ⟨_, _, herr⟩ := evals_attempt.mp herr
    exact absurd herr (by simp)
  obtain ⟨_, hbody, hy⟩ := evals_attempt.mp hattempt
  obtain rfl := Except.ok.inj hy
  -- the destructor returns
  obtain ⟨s, hs⟩ := destroy_evals poco r.m_session
  have hdestroy : (inSession (destroy poco)).Evals r (.ok ()) { r with m_session := s } := hs.zoom
  cases y with
  | ok u =>
      rw [hdestroy.bind_iff] at hrest
      obtain ⟨rfl, rfl⟩ := evals_pure.mp hrest
      exact ⟨_, r, s, hbody, rfl, rfl, Or.inr ⟨by simp, hs⟩⟩
  | error e =>
      cases e with
      | undefined =>
          obtain ⟨rfl, rfl⟩ := evals_throw.mp hrest
          exact ⟨_, t, _, hbody, rfl, rfl, Or.inl ⟨rfl, rfl⟩⟩
      | _ =>
          rw [hdestroy.bind_iff] at hrest
          obtain ⟨rfl, rfl⟩ := evals_pure.mp hrest
          exact ⟨_, r, s, hbody, rfl, rfl, Or.inr ⟨by simp, hs⟩⟩

end NewsReader

end NntpPoco
