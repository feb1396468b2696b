import NntpPoco.Lib.Contract
import NntpPoco.Reader.Menus
import NntpPoco.Reader.Protocol
import NntpPoco.Session.Usage

/-!
# `Reader.Wire` — `main` follows the protocol of the reader

Whatever Poco, the server and the console do, the commands that `main` sends are a run of the machine of
`Reader.Protocol`. `Shows` ties the members of the reader to what the machine knows of the visit; one
contract for each function of `main.cpp` says from which stage to which it goes, with `Leaves` for its
exceptions (`construct_contract`, `fetchRound_contract`, ..., `readGroups_contract`). At the points of
the loops the visit is at its menu (`reached_atMenu`), and a `main` that ends has come to the end of it
(`main_follows`), so what `Reader.Protocol` says of the machine holds of the program. The names the machine
is given are those of the groups on the menu, which LIST has returned (`main_listed`).
-/

namespace NntpPoco

open Prog NNTPClientSession

variable {π μ α : Type} {poco : Poco π μ α}

/-! ## What the commands of the reader come to -/

section Commands

variable {s t : NNTPClientSession π}

/-- A STAT returns its verdict, or is not answered. -/
theorem stat_cases {n : UInt32} {x : Except Exception Bool} (h : (stat poco n).Evals s x t) :
    t.activeGroup = s.activeGroup ∧ t.m_isOpen = s.m_isOpen ∧ ∃ answer,
      t.history = s.history ++ Exchange.events ⟨(Operation.stat n).line, answer⟩ ∧
      ((∃ e, x = .error e ∧ ∀ code response, answer ≠ .status code response) ∨
        ∃ code response, x = .ok (isPositiveCompletion code) ∧ answer = .status code response) := by
  have hrun : ((Operation.stat n).run poco).Evals s (x.map Result.verdict) t := h.map Result.verdict
  refine ⟨run_activeGroup (by simp) hrun, run_isOpen hrun, ?_⟩
  rcases run_cases hrun with ⟨answer, e, hanswer, herr, hhistory⟩ |
    ⟨code, response, _, hhandle, _, hhistory⟩
  · refine ⟨answer, hhistory, Or.inl ⟨e, ?_, hanswer⟩⟩
    cases x with
    | error e' => exact congrArg _ (Except.error.inj herr)
    | ok b => exact absurd herr (by simp [Except.map])
  · refine ⟨.status code response, hhistory, Or.inr ⟨code, response, ?_, rfl⟩⟩
    have hverdict := (handle_stat hhandle).1
    cases x with
    | error e => exact absurd hverdict (by simp [Except.map])
    | ok b => exact congrArg _ (Result.verdict.inj (Except.ok.inj hverdict))

/-- A command, neither STAT nor GROUP, that returns has been completed. -/
theorem completed_or_throws {op : Operation} (hstat : ∀ n, op ≠ .stat n)
    (haccepts : op.accepts = isPositiveCompletion) {x : Except Exception (Result α)}
    (h : (op.run poco).Evals s x t) :
    ∃ answer, t.history = s.history ++ Exchange.events ⟨op.line, answer⟩ ∧
      ((∃ e, x = .error e) ∨ answer.completed = true) := by
  rcases run_cases h with ⟨answer, e, _, herr, hhistory⟩ | ⟨code, response, _, hhandle, _, hhistory⟩
  · exact ⟨answer, hhistory, Or.inl ⟨e, herr⟩⟩
  · refine ⟨.status code response, hhistory, ?_⟩
    cases x with
    | error e => exact Or.inl ⟨e, rfl⟩
    | ok r =>
        have haccepted := accepted_of_handle hstat hhandle
        rw [haccepts] at haccepted
        exact Or.inr haccepted

theorem completed_of_returns {op : Operation} (hstat : ∀ n, op ≠ .stat n)
    (haccepts : op.accepts = isPositiveCompletion) {r : Result α} (h : (op.run poco).Evals s (.ok r) t) :
    ∃ answer, t.history = s.history ++ Exchange.events ⟨op.line, answer⟩ ∧
      answer.completed = true := by
  obtain ⟨answer, hhistory, ⟨_, herr⟩ | hcompleted⟩ := completed_or_throws hstat haccepts h
  · exact absurd herr (by simp)
  · exact ⟨answer, hhistory, hcompleted⟩

/-- A GROUP that returns has been completed, with a reply that gives the group. -/
theorem selectNewsGroup_cases {newsgroup : Bytes} {x : Except Exception ActiveNewsGroup}
    (h : (selectNewsGroup poco newsgroup).Evals s x t) :
    t.m_isOpen = s.m_isOpen ∧ ∃ answer,
      t.history = s.history ++ Exchange.events ⟨(Operation.selectNewsGroup newsgroup).line, answer⟩ ∧
      ((∃ e, x = .error e ∧ ∀ code reply g, answer = .status code reply →
          isPositiveCompletion code = true → groupReply poco newsgroup reply ≠ .ok g) ∨
        ∃ code reply g, x = .ok g ∧ answer = .status code reply ∧ isPositiveCompletion code = true ∧
          groupReply poco newsgroup reply = .ok g ∧ t.activeGroup = g) := by
  have hrun : ((Operation.selectNewsGroup newsgroup).run poco).Evals s (x.map Result.active) t :=
    h.map Result.active
  refine ⟨run_isOpen hrun, ?_⟩
  rcases run_cases hrun with ⟨answer, e, hanswer, herr, hhistory⟩ |
    ⟨code, reply, _, hhandle, _, hhistory⟩
  · refine ⟨answer, hhistory, Or.inl ?_⟩
    cases x with
    | error e' => exact ⟨e', rfl, fun code reply _ h => absurd h (hanswer code reply)⟩
    | ok g => exact absurd herr (by simp [Except.map])
  · refine ⟨.status code reply, hhistory, ?_⟩
    cases x with
    | error e =>
        refine Or.inl ⟨e, rfl, fun code' reply' g hanswer hcode hg => ?_⟩
        obtain ⟨rfl, rfl⟩ := Answer.status.inj hanswer
        have hresult := (handle_group hhandle hcode).1
        rw [hg] at hresult
        exact absurd hresult (by simp [Except.map])
    | ok g =>
        have hcode : isPositiveCompletion code = true := accepted_of_handle (by simp) hhandle
        obtain ⟨hresult, hmembers⟩ := handle_group hhandle hcode
        have hg : groupReply poco newsgroup reply = .ok g := by
          cases hreply : groupReply poco newsgroup reply with
          | error e =>
              rw [hreply] at hresult
              exact absurd hresult (by simp [Except.map])
          | ok g' =>
              rw [hreply] at hresult
              rw [Result.active.inj (Except.ok.inj hresult)]
        exact Or.inr ⟨code, reply, g, rfl, rfl, hcode, hg,
          hmembers.trans (assigned_of_groupReply hg _)⟩

end Commands

namespace NewsReader

/-! ## The reader and the visit -/

/-- The session has been greeted, and the exchanges since are a run to `stage` of the machine of the groups
    `names`. -/
def Follows (poco : Poco π μ α) (names : List Bytes) (s : NNTPClientSession π) (stage : Stage) : Prop :=
  ∃ code greeting es, isPositiveCompletion code = true ∧
    s.history = .status code greeting :: es.flatMap Exchange.events ∧
    Lts.Runs (Step poco names) .listing es stage

theorem Follows.exchange {names : List Bytes} {s t : NNTPClientSession π} {p q : Stage} {e : Exchange}
    (h : Follows poco names s p) (hstep : Step poco names p e q)
    (ht : t.history = s.history ++ e.events) : Follows poco names t q := by
  obtain ⟨code, greeting, es, hcode, hhistory, hruns⟩ := h
  refine ⟨code, greeting, es ++ [e], hcode, ?_, hruns.snoc hstep⟩
  rw [ht, hhistory, List.flatMap_append, List.flatMap_singleton, List.cons_append]

/-- The names of the groups on the first menu. -/
def names (r : NewsReader π α) : List Bytes := r.m_groupDescs.map Prod.fst

/-- The members of the reader and of its session, as the machine knows them. -/
structure Shows (r : NewsReader π α) (v : Visit) : Prop where
  m_isOpen : r.m_session.m_isOpen = true
  group : v.group = r.m_activeGroup
  selected : v.group = r.m_session.activeGroup
  found : ∀ n, n ∈ v.found ↔ n ∈ r.m_articles

/-- The visit is at `stage v`, for the `v` that the reader shows. -/
def Visits (poco : Poco π μ α) (stage : Visit → Stage) (r : NewsReader π α) : Prop :=
  ∃ v, r.Shows v ∧ Follows poco r.names r.m_session (stage v)

abbrev AtMenu (poco : Poco π μ α) : NewsReader π α → Prop := Visits poco .menu

/-- Nothing but QUIT is due any more. -/
inductive Leaves (poco : Poco π μ α) (r : NewsReader π α) : Prop
  | notGreeted (hopen : r.m_session.m_isOpen = false) (x : Except Exception (Int × Bytes))
      (hhistory : r.m_session.history = statusEvent x)
      (hx : ∀ code response, x = .ok (code, response) → isPositiveCompletion code = false)
  | fromMenu (hopen : r.m_session.m_isOpen = true) (v : Visit)
      (hfollows : Follows poco r.names r.m_session (.menu v))
  | leaving (hopen : r.m_session.m_isOpen = true)
      (hfollows : Follows poco r.names r.m_session .leaving)

/-- What the machine knows is not in the console. -/
theorem Shows.of_frame {r r' : NewsReader π α} {v : Visit} (h : r.Shows v)
    (hsession : r'.m_session = r.m_session) (hgroup : r'.m_activeGroup = r.m_activeGroup)
    (harticles : r'.m_articles = r.m_articles) : r'.Shows v := by
  constructor
  · rw [hsession]
    exact h.m_isOpen
  · rw [hgroup]
    exact h.group
  · rw [hsession]
    exact h.selected
  · rw [harticles]
    exact h.found

/-- An exception at a menu. -/
theorem Visits.leaves {r : NewsReader π α} (h : AtMenu poco r) : Leaves poco r := by
  obtain ⟨v, hshows, hfollows⟩ := h
  exact .fromMenu hshows.m_isOpen v hfollows

/-! ## `construct` -/

/-- **The constructor** is greeted and has the groups listed. -/
theorem construct_contract (socket : DialogSocket π) (cin : List Bytes) :
    Contract (· = ofSocket socket cin) (construct poco) (fun _ => AtMenu poco)
      fun _ => Leaves poco := by
  rintro _ x t rfl heval
  unfold construct at heval
  rcases evals_bind.mp heval with ⟨e, hopen, rfl⟩ | ⟨_, r₁, hopen, hrest⟩
  · obtain ⟨s₁, hs₁, rfl⟩ := evals_zoom.mp hopen
    obtain ⟨_, ⟨_, _, hok, _⟩ | ⟨_, x, _, hclosed, hhistory, hx⟩⟩ := openSession_exits rfl hs₁
    · exact absurd hok (by simp)
    · exact .notGreeted hclosed x hhistory hx
  · obtain ⟨s₁, hs₁, rfl⟩ := evals_zoom.mp hopen
    obtain ⟨hgroup, ⟨code, greeting, _, hcode, hisOpen, hhistory⟩ | ⟨_, _, herr, _⟩⟩ :=
      openSession_exits rfl hs₁
    · have hfollows : ∀ names, Follows poco names s₁ .listing :=
        fun _ => ⟨code, greeting, [], hcode, hhistory, .nil⟩
      rcases evals_bind.mp hrest with ⟨e, hlist, rfl⟩ | ⟨groupDescs, r₂, hlist, hsort⟩
      · obtain ⟨s₂, hs₂, rfl⟩ := evals_zoom.mp hlist
        have hrun : (listing.run poco).Evals s₁ (.error e) s₂ := hs₂.map Result.groups
        obtain ⟨answer, hhistory₂, _⟩ := completed_or_throws (by simp [listing]) rfl hrun
        exact .leaving ((run_isOpen hrun).trans hisOpen) ((hfollows _).exchange .notListed hhistory₂)
      · obtain ⟨s₂, hs₂, rfl⟩ := evals_zoom.mp hlist
        have hrun : (listing.run poco).Evals s₁ (.ok (.groups groupDescs)) s₂ :=
          hs₂.map Result.groups
        obtain ⟨answer, hhistory₂, hcompleted⟩ := completed_of_returns (by simp [listing]) rfl hrun
        obtain ⟨rfl, rfl⟩ := evals_modify.mp hsort
        refine ⟨⟨⟨[], 0, 0, 0⟩, []⟩, ⟨?_, rfl, ?_, by simp [ofSocket]⟩,
          (hfollows _).exchange (.listed hcompleted) hhistory₂⟩
        · exact (run_isOpen hrun).trans hisOpen
        · exact ((run_activeGroup (by simp [listing]) hrun).trans hgroup).symm
    · exact absurd herr (by simp)

/-! ## `getArticles` -/

/-- The walk has come to the number and the count of `x`. -/
abbrev OnWalk (poco : Poco π μ α) (x : UInt32 × UInt32) : NewsReader π α → Prop :=
  Visits poco fun v => v.walk x.1 x.2

/-- A STAT on the way. -/
theorem stat_contract (n count : UInt32) :
    Contract (Visits poco fun v => .walking v n count) (inSession (stat poco n))
      (fun present r => if present = true then Visits poco (fun v => .fetching v n count) r
        else OnWalk poco (n + 1, count) r) fun _ => Leaves poco := by
  refine contract_zoom ?_
  rintro r x s₁ ⟨v, hshows, hfollows⟩ hstat
  obtain ⟨hgroup, hopen, answer, hhistory, houtcome⟩ := stat_cases hstat
  have hshows₁ : Shows ({ r with m_session := s₁ } : NewsReader π α) v :=
    ⟨hopen.trans hshows.m_isOpen, hshows.group, hshows.selected.trans hgroup.symm, hshows.found⟩
  rcases houtcome with ⟨e, rfl, hanswer⟩ | ⟨code, response, rfl, rfl⟩
  · exact .leaving hshows₁.m_isOpen (hfollows.exchange (.notAsked hanswer) hhistory)
  · cases hcode : isPositiveCompletion code with
    | true =>
        have hcompleted : (Answer.status code response).completed = true := hcode
        exact ⟨v, hshows₁, hfollows.exchange (.present hcompleted) hhistory⟩
    | false => exact ⟨v, hshows₁, hfollows.exchange (.absent hcode) hhistory⟩

/-- An ARTICLE behind it. -/
theorem article_contract (n count : UInt32) :
    Contract (Visits poco fun v => .fetching v n count) (do
        Prog.modify fun r => { r with m_articles := r.m_articles.insert n (some poco.newArticle) }
        let article ← inSession (articleNumber poco n)
        Prog.modify fun r => { r with m_articles := r.m_articles.insert n (some article) })
      (fun _ => OnWalk poco (n + 1, count + 1)) fun _ => Leaves poco := by
  rintro r x t ⟨v, hshows, hfollows⟩ heval
  rw [evals_modify_bind] at heval
  rcases evals_bind.mp heval with ⟨e, harticle, rfl⟩ | ⟨article, r', harticle, hinsert⟩
  · obtain ⟨s', hs', rfl⟩ := evals_zoom.mp harticle
    have hrun : ((Operation.articleNumber n).run poco).Evals r.m_session (.error e) s' :=
      hs'.map Result.article
    obtain ⟨answer, hhistory, _⟩ := completed_or_throws (by simp) rfl hrun
    exact .leaving ((run_isOpen hrun).trans hshows.m_isOpen)
      (hfollows.exchange .notFetched hhistory)
  · obtain ⟨s', hs', rfl⟩ := evals_zoom.mp harticle
    have hrun : ((Operation.articleNumber n).run poco).Evals r.m_session (.ok (.article article)) s' :=
      hs'.map Result.article
    obtain ⟨answer, hhistory, hcompleted⟩ := completed_of_returns (by simp) rfl hrun
    obtain ⟨rfl, rfl⟩ := evals_modify.mp hinsert
    refine ⟨⟨v.group, v.found ++ [n]⟩, ⟨?_, hshows.group, ?_, ?_⟩,
      hfollows.exchange (.fetched hcompleted) hhistory⟩
    · exact (run_isOpen hrun).trans hshows.m_isOpen
    · exact hshows.selected.trans (run_activeGroup (by simp) hrun).symm
    · intro m
      show m ∈ v.found ++ [n] ↔
        m ∈ (r.m_articles.insert n (some poco.newArticle)).insert n (some article)
      rw [Std.TreeMap.mem_insert, Std.TreeMap.mem_insert, List.mem_append, List.mem_singleton,
        hshows.found m, Std.LawfulEqCmp.compare_eq_iff_eq, eq_comm (a := m)]
      tauto

/-- What a round of `getArticles` comes to: the next number, or the menu. -/
def RoundEnd (poco : Poco π μ α) (y : (UInt32 × UInt32) ⊕ Unit) (r : NewsReader π α) : Prop :=
  Sum.elim (fun x => OnWalk poco x r) (fun _ => AtMenu poco r) y

theorem roundEnd_again (x : UInt32 × UInt32) :
    Contract (OnWalk poco x) (pure (.inl x) : Method π α ((UInt32 × UInt32) ⊕ Unit))
      (RoundEnd poco) fun _ => Leaves poco :=
  contract_pure fun _ hr => hr

/-- **One round of `getArticles`** is a STAT, and an ARTICLE behind it if the STAT is accepted. -/
theorem fetchRound_contract (x : UInt32 × UInt32) :
    Contract (OnWalk poco x) (fetchRound poco x) (RoundEnd poco) fun _ => Leaves poco := by
  rintro r y t ⟨v, hshows, hfollows⟩ heval
  replace hfollows : Follows poco r.names r.m_session (v.walk x.1 x.2) := hfollows
  unfold fetchRound at heval
  rw [evals_get_bind, ← hshows.group] at heval
  by_cases hcond : x.1 ≤ v.group.highArticle ∧ x.2 < 10
  · rw [if_pos hcond] at heval
    rw [Visit.walk, if_pos hcond] at hfollows
    refine (stat_contract x.1 x.2).bind (fun present => ?_) r y t ⟨v, hshows, hfollows⟩ heval
    cases present with
    | true =>
        have harticle : Contract (Visits poco fun v => .fetching v x.1 x.2) _ (RoundEnd poco)
            fun _ => Leaves poco :=
          (article_contract x.1 x.2).bind fun _ => roundEnd_again (x.1 + 1, x.2 + 1)
        simp only [bind_assoc] at harticle
        exact harticle
    | false => exact roundEnd_again (x.1 + 1, x.2)
  · rw [if_neg hcond] at heval
    rw [Visit.walk, if_neg hcond] at hfollows
    obtain ⟨rfl, rfl⟩ := evals_pure.mp heval
    exact ⟨v, hshows, hfollows⟩

/-- The members when a group has been selected, its articles aside. -/
structure GroupChosen (poco : Poco π μ α) (r : NewsReader π α) : Prop where
  m_isOpen : r.m_session.m_isOpen = true
  selected : r.m_activeGroup = r.m_session.activeGroup
  follows : Follows poco r.names r.m_session
    (Visit.walk ⟨r.m_activeGroup, []⟩ r.m_activeGroup.lowArticle 0)

/-- **`getArticles`** walks through the group that has been selected. -/
theorem getArticles_contract :
    Contract (GroupChosen poco) (getArticles poco) (fun _ => AtMenu poco) fun _ => Leaves poco := by
  intro r x t hr heval
  rw [getArticles_eq, evals_modify_bind, evals_get_bind] at heval
  have hloop : Contract (OnWalk poco (r.m_activeGroup.lowArticle, 0)) _ (fun _ => AtMenu poco)
      fun _ => Leaves poco :=
    Contract.loop (OnWalk poco) (fun x => fetchRound_contract x) _
  have hstart : OnWalk poco (r.m_activeGroup.lowArticle, 0)
      ({ r with m_articles := ∅ } : NewsReader π α) :=
    ⟨_, ⟨hr.m_isOpen, rfl, hr.selected, by simp⟩, hr.follows⟩
  exact hloop _ x t hstart heval

/-! ## The menus -/

/-- **`selectGroup`** has a group selected that is on its menu. -/
theorem selectGroup_contract :
    Contract (AtMenu poco) (selectGroup poco) (fun _ => AtMenu poco) fun _ => Leaves poco := by
  have hchoose : Contract (AtMenu poco) (chooseGroup poco) (fun _ => AtMenu poco)
      fun _ => Leaves poco := by
    have hkeeps : Keeps (AtMenu poco) (chooseGroup poco) := chooseGroup_keeps fun r cin cout hr => by
      obtain ⟨v, hshows, hfollows⟩ := hr
      exact ⟨v, hshows.of_frame rfl rfl rfl, hfollows⟩
    exact hkeeps.contract.imp (fun _ h => h) (fun _ _ h => h) fun _ _ h => h.leaves
  unfold selectGroup
  refine hchoose.bind fun choice => ?_
  cases choice with
  | none => exact contract_pure fun _ hr => hr
  | some group =>
      rintro r x t ⟨v, hshows, hfollows⟩ heval
      replace heval := evals_get_bind.mp heval
      cases hdesc : r.m_groupDescs[(group - 1).toNat]? with
      | none =>
          rw [hdesc] at heval
          obtain ⟨rfl, rfl⟩ := evals_throw.mp heval
          exact .fromMenu hshows.m_isOpen v hfollows
      | some desc =>
          rw [hdesc] at heval
          rw [evals_modify_bind, evals_get_bind] at heval
          have hname : desc.1 ∈ r.names := List.mem_map_of_mem (List.mem_of_getElem? hdesc)
          rcases evals_bind.mp heval with ⟨e, hselect, rfl⟩ | ⟨g, r₁, hselect, hrest⟩
          · obtain ⟨s, hs, rfl⟩ := evals_zoom.mp hselect
            obtain ⟨hopen, answer, hhistory, ⟨_, _, hanswer⟩ | ⟨_, _, _, hok, _⟩⟩ :=
              selectNewsGroup_cases hs
            · exact .leaving (hopen.trans hshows.m_isOpen)
                (hfollows.exchange (.notSelected hname hanswer) hhistory)
            · exact absurd hok (by simp)
          · obtain ⟨s, hs, rfl⟩ := evals_zoom.mp hselect
            obtain ⟨hopen, answer, hhistory, ⟨_, herr, _⟩ |
              ⟨code, reply, g', hok, rfl, hcode, hg, hmembers⟩⟩ := selectNewsGroup_cases hs
            · exact absurd herr (by simp)
            · obtain rfl := Except.ok.inj hok
              rw [evals_modify_bind] at hrest
              have hfollows' := hfollows.exchange (.selected hname hcode hg) hhistory
              have hchosen : GroupChosen poco ({ r with
                  m_session := s, m_currentGroup := desc.1, m_activeGroup := g } :
                    NewsReader π α) :=
                ⟨hopen.trans hshows.m_isOpen, hmembers.symm, hfollows'⟩
              have hload := getArticles_contract.bind (R := fun _ => AtMenu poco)
                fun _ => contract_pure (a := true) fun _ hr => hr
              exact hload _ x t hchosen hrest

/-- `selectArticle` sends nothing. -/
theorem selectArticle_contract :
    Contract (AtMenu poco) (selectArticle poco) (fun _ => AtMenu poco) fun _ => Leaves poco := by
  have hkeeps : Keeps (AtMenu poco) (selectArticle poco) := by
    apply selectArticle_keeps
    rintro r cin cout number ⟨v, hshows, hfollows⟩
    exact ⟨v, hshows.of_frame rfl rfl rfl, hfollows⟩
  exact hkeeps.contract.imp (fun _ h => h) (fun _ _ h => h) fun _ _ h => h.leaves

/-- Nor is what is due. -/
theorem Leaves.of_console {r : NewsReader π α} (h : Leaves poco r) (cin : List Bytes)
    (cout : List Output) (a : Std.TreeMap UInt32 (Option α)) :
    Leaves poco { r with cin := cin, cout := cout, m_articles := a } := by
  cases h with
  | notGreeted hopen x hhistory hx => exact .notGreeted hopen x hhistory hx
  | fromMenu hopen v hfollows => exact .fromMenu hopen v hfollows
  | leaving hopen hfollows => exact .leaving hopen hfollows

/-- Neither does `displayArticle`; where it throws it may have put a null pointer among the articles. -/
theorem displayArticle_contract :
    Contract (AtMenu poco) (displayArticle poco) (fun _ => AtMenu poco) fun _ => Leaves poco := by
  intro r x t hr heval
  cases x with
  | ok u =>
      have hsame := same_displayArticle r u t (.refl r) heval
      have hdescs : t.m_groupDescs = r.m_groupDescs :=
        displayArticle_keeps (I := fun r' => r'.m_groupDescs = r.m_groupDescs)
          (fun _ _ _ _ h => h) r _ t rfl heval
      obtain ⟨v, hshows, hfollows⟩ := hr
      refine ⟨v, hshows.of_frame hsame.m_session hsame.m_activeGroup hsame.m_articles, ?_⟩
      rw [hsame.m_session, names, hdescs]
      exact hfollows
  | error e =>
      exact displayArticle_keeps (fun _ _ _ _ h => h.of_console _ _ _) r _ t hr.leaves heval

/-! ## `main` -/

theorem readArticles_contract :
    Contract (AtMenu poco) (readArticles poco) (fun _ => AtMenu poco) fun _ => Leaves poco := by
  rw [readArticles_eq]
  refine Contract.loop (fun _ => AtMenu poco) (fun _ => ?_) ()
  unfold articleRound
  refine selectArticle_contract.bind fun selected => Contract.ite (fun _ => ?_) fun _ => ?_
  · exact displayArticle_contract.bind fun _ => contract_pure fun _ hr => hr
  · exact contract_pure fun _ hr => hr

theorem readGroups_contract :
    Contract (AtMenu poco) (readGroups poco) (fun _ => AtMenu poco) fun _ => Leaves poco := by
  rw [readGroups_eq]
  refine Contract.loop (fun _ => AtMenu poco) (fun _ => ?_) ()
  unfold groupRound
  refine selectGroup_contract.bind fun selected => Contract.ite (fun _ => ?_) fun _ => ?_
  · exact readArticles_contract.bind fun _ => contract_pure fun _ hr => hr
  · exact contract_pure fun _ hr => hr

/-- **At the points of the loops the visit is at its menu.** -/
theorem reached_atMenu {socket : DialogSocket π} {cin : List Bytes} {point : Point}
    {r : NewsReader π α} (hr : Reached poco (ofSocket socket cin) point r) : AtMenu poco r := by
  -- on the way to the point
  induction hr with
  | constructed h => exact construct_contract socket cin _ _ _ rfl h
  | groupSelected _ h ih => exact selectGroup_contract _ _ _ ih h
  | articleSelected _ h ih => exact selectArticle_contract _ _ _ ih h
  | articlesLeft _ h ih => exact selectArticle_contract _ _ _ ih h
  | displayed _ h ih => exact displayArticle_contract _ _ _ ih h

/-- What the calls of the loops keep, the loops keep. -/
theorem readGroups_keeps {I : NewsReader π α → Prop} (hgroup : Keeps I (selectGroup poco))
    (harticle : Keeps I (selectArticle poco)) (hdisplay : Keeps I (displayArticle poco)) :
    Keeps I (readGroups poco) := by
  have harticles : Keeps I (readArticles poco) := by
    rw [readArticles_eq]
    refine Keeps.loop (fun _ => ?_) ()
    unfold articleRound
    refine harticle.bind fun selected => Keeps.ite ?_ (keeps_pure _)
    exact hdisplay.bind fun _ => keeps_pure _
  rw [readGroups_eq]
  refine Keeps.loop (fun _ => ?_) ()
  unfold groupRound
  refine hgroup.bind fun selected => Keeps.ite ?_ (keeps_pure _)
  exact harticles.bind fun _ => keeps_pure _

/-- What the parts of `main` keep, `main` keeps. -/
theorem main_keeps {I : NewsReader π α → Prop} (hconstruct : Keeps I (construct poco))
    (hgroup : Keeps I (selectGroup poco)) (harticle : Keeps I (selectArticle poco))
    (hdisplay : Keeps I (displayArticle poco)) (hdestroy : Keeps I (inSession (destroy poco))) :
    Keeps I (main poco) := by
  have hgroups : Keeps I (readGroups poco) := readGroups_keeps hgroup harticle hdisplay
  unfold main
  refine (hconstruct.bind fun _ => hgroups).attempt.bind fun result => ?_
  have hend : ∀ exitCode : ℕ,
      Keeps I (inSession (destroy poco) >>= fun _ => pure exitCode : Method π α ℕ) :=
    fun _ => hdestroy.bind fun _ => keeps_pure _
  cases result with
  | ok u => exact hend 0
  | error e =>
      cases e with
      | undefined => exact keeps_throw _
      | _ => exact hend 1

section Session

variable {J : NNTPClientSession π → Prop}

theorem inSession_kept {β : Type} {p : NNTPClientSession.Method π β} (hp : Keeps J p) :
    Keeps (fun r : NewsReader π α => J r.m_session) (inSession p) :=
  Keeps.zoom fun r x s hr heval => hp r.m_session x s hr heval

variable (hJ : KeptByCalls poco J)
include hJ

theorem fetchRound_kept (x : UInt32 × UInt32) :
    Keeps (fun r : NewsReader π α => J r.m_session) (fetchRound poco x) := by
  have hstat : Keeps J (stat poco x.1) :=
    hJ.member (show (Operation.stat x.1).run poco = Result.verdict <$> stat poco x.1 from rfl)
  have harticle : Keeps J (articleNumber poco x.1) := hJ.member
    (show (Operation.articleNumber x.1).run poco = Result.article <$> articleNumber poco x.1 from rfl)
  have hinsert : ∀ v : Option α, Keeps (fun r : NewsReader π α => J r.m_session)
      (Prog.modify fun r => { r with m_articles := r.m_articles.insert x.1 v } : Method π α Unit) :=
    fun v => keeps_modify fun r hr => hr
  unfold fetchRound
  refine keeps_get.bind fun r => Keeps.ite ?_ (keeps_pure _)
  refine (inSession_kept hstat).bind fun present => Keeps.ite ?_ (keeps_pure _)
  refine (hinsert _).bind fun _ => (inSession_kept harticle).bind fun article => ?_
  exact (hinsert _).bind fun _ => keeps_pure _

theorem selectGroup_kept : Keeps (fun r : NewsReader π α => J r.m_session) (selectGroup poco) := by
  have harticles : Keeps (fun r : NewsReader π α => J r.m_session) (getArticles poco) := by
    rw [getArticles_eq]
    have hempty : Keeps (fun r : NewsReader π α => J r.m_session)
        (Prog.modify fun r => { r with m_articles := ∅ } : Method π α Unit) :=
      keeps_modify fun r hr => hr
    exact hempty.bind fun _ => keeps_get.bind fun r => Keeps.loop (fetchRound_kept hJ) _
  have hselect : ∀ newsgroup, Keeps J (selectNewsGroup poco newsgroup) := fun newsgroup => hJ.member
    (show (Operation.selectNewsGroup newsgroup).run poco =
      Result.active <$> selectNewsGroup poco newsgroup from rfl)
  unfold selectGroup
  refine (chooseGroup_keeps fun r cin cout hr => hr).bind fun choice => ?_
  cases choice with
  | none => exact keeps_pure _
  | some group =>
      refine keeps_get.bind fun r => ?_
      cases r.m_groupDescs[(group - 1).toNat]? with
      | none => exact keeps_throw _
      | some desc =>
          have hcurrent : Keeps (fun r : NewsReader π α => J r.m_session)
              (Prog.modify fun r => { r with m_currentGroup := desc.1 } : Method π α Unit) :=
            keeps_modify fun r hr => hr
          have hactive : ∀ g, Keeps (fun r : NewsReader π α => J r.m_session)
              (Prog.modify fun r => { r with m_activeGroup := g } : Method π α Unit) :=
            fun g => keeps_modify fun r hr => hr
          refine hcurrent.bind fun _ => keeps_get.bind fun r => ?_
          refine (inSession_kept (hselect _)).bind fun g => (hactive g).bind fun _ => ?_
          exact harticles.bind fun _ => keeps_pure _

/-- **What the calls of a session keep, `main` keeps**: it touches its session in no other way. -/
theorem main_kept : Keeps (fun r : NewsReader π α => J r.m_session) (main poco) := by
  have hconstruct : Keeps (fun r : NewsReader π α => J r.m_session) (construct poco) := by
    have hlist : Keeps J (listNewsGroups poco (text "gmane.comp.*.boost.*")) := hJ.member
      (show listing.run poco = Result.groups <$> listNewsGroups poco (text "gmane.comp.*.boost.*")
        from rfl)
    unfold construct
    refine (inSession_kept hJ.openSession).bind fun _ => (inSession_kept hlist).bind fun _ => ?_
    exact keeps_modify fun r hr => hr
  apply main_keeps
  · exact hconstruct
  · exact selectGroup_kept hJ
  · exact selectArticle_keeps fun r cin cout number hr => hr
  · exact displayArticle_keeps fun r cin cout a hr => hr
  · exact inSession_kept hJ.destroy

end Session

/-- What a `main` that has ended has sent. -/
inductive Ended (poco : Poco π μ α) (t : NewsReader π α) : Except Exception ℕ → Prop
  /-- nothing: there was no positive greeting -/
  | notGreeted (x : Except Exception (Int × Bytes)) (hhistory : t.m_session.history = statusEvent x)
      (hx : ∀ code response, x = .ok (code, response) → isPositiveCompletion code = false)
      {result : Except Exception ℕ} (hresult : result ≠ .ok 0) : Ended poco t result
  /-- a whole visit -/
  | finished (exitCode : ℕ) (hfollows : Follows poco t.names t.m_session .finished) :
      Ended poco t (.ok exitCode)
  /-- a visit that was cut off behind a menu, without its QUIT -/
  | undefined (v : Visit) (hfollows : Follows poco t.names t.m_session (.menu v)) :
      Ended poco t (.error .undefined)
  /-- a visit that was cut off behind a command, without its QUIT -/
  | cutOff (hfollows : Follows poco t.names t.m_session .leaving) : Ended poco t (.error .undefined)

/-- The destructor of a session that is open ends the visit. -/
theorem destroy_follows {names : List Bytes} {s t : NNTPClientSession π} {x : Except Exception Unit}
    {stage : Stage} (hopen : s.m_isOpen = true) (hfollows : Follows poco names s stage)
    (hstep : ∀ answer, Step poco names stage ⟨NntpPoco.quitLine, answer⟩ .finished)
    (h : (destroy poco).Evals s x t) : Follows poco names t .finished := by
  obtain ⟨answer, hhistory⟩ := destroy_quits hopen h
  exact hfollows.exchange (hstep answer) hhistory

theorem main_ended {socket : DialogSocket π} {cin : List Bytes} {x : Except Exception ℕ}
    {t : NewsReader π α} (h : (main poco).Evals (ofSocket socket cin) x t) : Ended poco t x := by
  have hcontract : Contract (· = ofSocket socket cin) (construct poco >>= fun _ => readGroups poco)
      (fun _ => AtMenu poco) fun _ => Leaves poco :=
    (construct_contract socket cin).bind fun _ => readGroups_contract
  obtain ⟨y, r, s, hbody, rfl, rfl, ⟨rfl, rfl⟩ | ⟨hy, hdestroy⟩⟩ := main_cases h
  · have hleaves : Leaves poco r := hcontract _ _ _ rfl hbody
    cases hleaves with
    | notGreeted _ x hhistory hx => exact .notGreeted x hhistory hx (by simp [exitCode])
    | fromMenu _ v hfollows => exact .undefined v hfollows
    | leaving _ hfollows => exact .cutOff hfollows
  · -- the destructor ends the visit, whatever ended the loops
    obtain ⟨n, hn⟩ := exitCode_returns hy
    have hexit := hcontract _ _ _ rfl hbody
    have hleaves : Leaves poco r := by
      cases y with
      | ok u => exact Visits.leaves hexit
      | error e => exact hexit
    cases hleaves with
    | notGreeted hopen x hhistory hx =>
        obtain rfl := destroy_idle hopen hdestroy
        refine .notGreeted x hhistory hx ?_
        cases y with
        | ok u =>
            obtain ⟨v, hshows, _⟩ := (hexit : AtMenu poco r)
            exact absurd (hopen.symm.trans hshows.m_isOpen) (by simp)
        | error e => cases e <;> simp [exitCode]
    | fromMenu hopen v hfollows =>
        rw [hn]
        exact .finished n (destroy_follows hopen hfollows (fun _ => .quit) hdestroy)
    | leaving hopen hfollows =>
        rw [hn]
        exact .finished n (destroy_follows hopen hfollows (fun _ => .left) hdestroy)

/-- The groups are those of the answer to LIST, unless there are none. -/
def Listed (poco : Poco π μ α) (socket : DialogSocket π) (descs : List GroupDesc) : Prop :=
  descs = [] ∨ ∃ s s' groupDescs, (openSession poco).Evals (.ofSocket socket) (.ok ()) s ∧
    (listNewsGroups poco (text "gmane.comp.*.boost.*")).Evals s (.ok groupDescs) s' ∧
    descs.Perm groupDescs

theorem main_listed {socket : DialogSocket π} {cin : List Bytes} {x : Except Exception ℕ}
    {t : NewsReader π α} (h : (main poco).Evals (ofSocket socket cin) x t) :
    Listed poco socket t.m_groupDescs := by
  obtain ⟨y, r, s, hbody, _, rfl, _⟩ := main_cases h
  show Listed poco socket r.m_groupDescs
  rcases evals_bind.mp hbody with ⟨e, hconstruct, rfl⟩ | ⟨_, r₁, hconstruct, hread⟩
  · exact Or.inl (construct_throws hconstruct)
  · obtain ⟨s, s', groupDescs, hopen, hlist, hsorted⟩ := construct_returns hconstruct
    have hkeeps : Keeps (Lists r₁.m_groupDescs) (readGroups poco) := readGroups_keeps
      (selectGroup_keeps fun _ _ _ _ _ _ _ hr => hr) (selectArticle_keeps fun _ _ _ _ hr => hr)
      (displayArticle_keeps fun _ _ _ _ hr => hr)
    refine Or.inr ⟨s, s', groupDescs, hopen, hlist, ?_⟩
    rw [show r.m_groupDescs = r₁.m_groupDescs from hkeeps r₁ y r rfl hread, hsorted]
    exact List.perm_insertionSort _ _

/-- **The program follows the protocol.** Whatever Poco, the server and the console do, a `main` that
    ends has sent nothing but what a visit sends to a server with the groups on the menu, which are those
    that LIST has returned: up to its QUIT, unless its behaviour is undefined. If the socket writes lines
    verbatim, these are the bytes on the connection. -/
theorem main_follows {socket : DialogSocket π} {cin : List Bytes} {x : Except Exception ℕ}
    {t : NewsReader π α} (h : (main poco).Evals (ofSocket socket cin) x t) :
    Ended poco t x ∧ Listed poco socket t.m_groupDescs ∧ (poco.WritesLines →
      t.m_session.m_socket.written = socket.written ++ sentBytes t.m_session.history) := by
  refine ⟨main_ended h, main_listed h, fun hlines => ?_⟩
  have hfaithful : Faithful (.ofSocket socket) t.m_session :=
    main_kept (faithful_calls hlines) _ x t (.refl _) h
  exact hfaithful.of_socket

/-- Five exchanges: a listing, a group with nine articles, and QUIT. -/
theorem main_follows_accepting :
    let poco := Poco.reference (Server.accepting [text "boost.user  Users"]) Reference.readAll id
    let start : NewsReader ℕ Bytes :=
      .ofSocket greetedSession.m_socket [text "1", text "4", text "q", text "q"]
    ∃ t, (main poco).Evals start (.ok 0) t ∧ Ended poco t (.ok 0) ∧
      Listed poco greetedSession.m_socket t.m_groupDescs ∧ (poco.WritesLines →
        t.m_session.m_socket.written = greetedSession.m_socket.written ++
          sentBytes t.m_session.history) := by
  intro poco start
  have hrun : ((main poco).run 99 start).map (fun x => (x.1, ())) = some (.ok 0, ()) := by
    decide +kernel
  obtain ⟨t, hmain, _⟩ := exists_evals_of_run 99 (fun _ : NewsReader ℕ Bytes => ()) hrun
  exact ⟨t, hmain, main_follows hmain⟩

/-! ## The order of the commands -/

/-- The order of the commands in a history: ARTICLE comes only right behind the accepted STAT of its
    number, and nothing but the answer comes behind QUIT. -/
structure CommandOrder (history : List Event) : Prop where
  article : ∀ n before after, history = before ++ .sent (Operation.articleNumber n).line :: after →
    ∃ before' code reply, isPositiveCompletion code = true ∧
      before = before' ++ [.sent (Operation.stat n).line, .status code reply]
  quit : ∀ before after, history = before ++ .sent NntpPoco.quitLine :: after →
    ∃ r, after = statusEvent r

section Order

variable {names : List Bytes} {s : NNTPClientSession π} {stage : Stage}

/-- A command line of a session that follows the protocol, with the exchanges before it and behind it. -/
theorem Follows.exchange_of_sent {line : Bytes} {before after : List Event} (h : Follows poco names s stage)
    (hhistory : s.history = before ++ .sent line :: after) :
    ∃ code greeting es₁ e es₂, Lts.Runs (Step poco names) .listing (es₁ ++ e :: es₂) stage ∧
      e.line = line ∧ before = .status code greeting :: es₁.flatMap Exchange.events ∧
      .sent line :: after = e.events ++ es₂.flatMap Exchange.events := by
  obtain ⟨code, greeting, es, _, hes, hruns⟩ := h
  rw [hes] at hhistory
  cases before with
  | nil => exact absurd (List.cons.inj hhistory).1 (by simp)
  | cons b before =>
      obtain ⟨rfl, hrest⟩ := List.cons.inj hhistory
      obtain ⟨es₁, e, es₂, rfl, hline, rfl, hafter⟩ := NntpPoco.exchange_of_sent hrest
      exact ⟨code, greeting, es₁, e, es₂, hruns, hline, rfl, hafter⟩

theorem Follows.commandOrder (h : Follows poco names s stage) : CommandOrder s.history := by
  constructor
  · intro n before after hhistory
    obtain ⟨code, greeting, es₁, e, es₂, hruns, hline, rfl, _⟩ := h.exchange_of_sent hhistory
    obtain ⟨es', answer, rfl, hcompleted⟩ := article_behind_stat hruns hline
    cases answer with
    | status code' reply =>
        refine ⟨.status code greeting :: es'.flatMap Exchange.events, code', reply, hcompleted, ?_⟩
        rw [List.flatMap_append, List.flatMap_singleton]
        rfl
    | unsent => exact absurd hcompleted (by simp [Answer.completed])
    | unanswered => exact absurd hcompleted (by simp [Answer.completed])
  · intro before after hhistory
    obtain ⟨_, _, _, ⟨line, answer⟩, es₂, hruns, hline, _, hafter⟩ := h.exchange_of_sent hhistory
    obtain rfl := quit_last hruns hline
    rw [List.flatMap_nil, List.append_nil] at hafter
    cases answer with
    | unsent => exact absurd (List.cons.inj hafter).1 (by simp)
    | unanswered => exact ⟨.error .undefined, (List.cons.inj hafter).2⟩
    | status code response => exact ⟨.ok (code, response), (List.cons.inj hafter).2⟩

/-- A history without a command line. -/
theorem commandOrder_statusEvent (r : Except Exception (Int × Bytes)) :
    CommandOrder (statusEvent r) := by
  have hsilent : ∀ line before after, statusEvent r ≠ before ++ .sent line :: after := by
    intro line before after heq
    have hmem : .sent line ∈ statusEvent r := by
      rw [heq]
      simp
    cases r <;> simp [statusEvent] at hmem
  exact ⟨fun _ _ _ heq => absurd heq (hsilent _ _ _), fun _ _ heq => absurd heq (hsilent _ _ _)⟩

/-- The greeting is what a session that follows the protocol has met first. -/
theorem Follows.greeted (h : Follows poco names s stage) :
    ∃ code greeting, isPositiveCompletion code = true ∧ s.history.head? = some (.status code greeting) := by
  obtain ⟨code, greeting, es, hcode, hes, _⟩ := h
  exact ⟨code, greeting, hcode, by rw [hes]; rfl⟩

theorem Follows.quits (h : Follows poco names s .finished) :
    .sent NntpPoco.quitLine ∈ s.history ∨ .sendFailed NntpPoco.quitLine ∈ s.history := by
  obtain ⟨code, greeting, es, _, hes, hruns⟩ := h
  obtain ⟨es', answer, rfl⟩ := quit_of_finished hruns
  rw [hes, List.flatMap_append, List.flatMap_singleton]
  cases answer <;> simp [Exchange.events]

end Order

/-- **The order of the commands**, in what a `main` that has ended has sent. If it has returned, it has
    tried its QUIT if and only if it was greeted. -/
theorem main_command_order {socket : DialogSocket π} {cin : List Bytes} {x : Except Exception ℕ}
    {t : NewsReader π α} (h : (main poco).Evals (ofSocket socket cin) x t) :
    CommandOrder t.m_session.history ∧ ∀ exitCode, x = .ok exitCode →
      ((.sent NntpPoco.quitLine ∈ t.m_session.history ∨
          .sendFailed NntpPoco.quitLine ∈ t.m_session.history) ↔
        ∃ code greeting, isPositiveCompletion code = true ∧
          t.m_session.history.head? = some (.status code greeting)) := by
  cases main_ended h with
  | notGreeted r hhistory hr =>
      rw [hhistory]
      refine ⟨commandOrder_statusEvent r, fun _ _ => ?_⟩
      cases r with
      | error e => simp [statusEvent]
      | ok answer =>
          have hcode := hr answer.1 answer.2 rfl
          simp [statusEvent, hcode]
  | finished exitCode hfollows =>
      exact ⟨hfollows.commandOrder, fun _ _ => iff_of_true hfollows.quits hfollows.greeted⟩
  | undefined v hfollows => exact ⟨hfollows.commandOrder, fun _ h => absurd h (by simp)⟩
  | cutOff hfollows => exact ⟨hfollows.commandOrder, fun _ h => absurd h (by simp)⟩

theorem main_command_order_accepting :
    let poco := Poco.reference (Server.accepting [text "boost.user  Users"]) Reference.readAll id
    let start : NewsReader ℕ Bytes := .ofSocket greetedSession.m_socket [text "1", text "q", text "q"]
    ∃ t, (main poco).Evals start (.ok 0) t ∧
      CommandOrder t.m_session.history ∧ ∀ exitCode, (.ok 0 : Except Exception ℕ) = .ok exitCode →
        ((.sent NntpPoco.quitLine ∈ t.m_session.history ∨
            .sendFailed NntpPoco.quitLine ∈ t.m_session.history) ↔
          ∃ code greeting, isPositiveCompletion code = true ∧
            t.m_session.history.head? = some (.status code greeting)) := by
  intro poco start
  have hrun : ((main poco).run 99 start).map (fun x => (x.1, ())) = some (.ok 0, ()) := by
    decide +kernel
  obtain ⟨t, hmain, _⟩ := exists_evals_of_run 99 (fun _ : NewsReader ℕ Bytes => ()) hrun
  exact ⟨t, hmain, main_command_order hmain⟩

/-! ## The articles at hand -/

/-- What is at hand: at most ten articles of the group that the session has selected. -/
structure Bounded (r : NewsReader π α) : Prop where
  few : r.m_articles.size ≤ 10
  le_high : ∀ n ∈ r.m_articles, n ≤ r.m_activeGroup.highArticle
  low_le : r.m_activeGroup.highArticle ≠ 0xFFFFFFFF → ∀ n ∈ r.m_articles,
    r.m_activeGroup.lowArticle ≤ n
  selected : r.m_activeGroup = r.m_session.activeGroup

/-- **The articles at hand**, at every point of every run, whatever the server has answered to the STATs:
    at most ten, with numbers of the group that the session has selected. -/
theorem reached_bounded {socket : DialogSocket π} {cin : List Bytes} {point : Point}
    {r : NewsReader π α} (hr : Reached poco (ofSocket socket cin) point r) : Bounded r := by
  obtain ⟨v, hshows, _, _, _, _, _, hruns⟩ := reached_atMenu hr
  obtain ⟨hbounded, hfew⟩ := bounded_of_runs hruns
  refine ⟨?_, ?_, ?_, hshows.group.symm.trans hshows.selected⟩
  · -- the keys are among the numbers found
    have hsub : r.m_articles.keys ⊆ v.found :=
      fun n hn => (hshows.found n).mpr (Std.TreeMap.mem_keys.mp hn)
    rw [← Std.TreeMap.length_keys]
    exact (List.subperm_of_subset Std.TreeMap.nodup_keys hsub).length_le.trans hfew
  · intro n hn
    rw [← hshows.group]
    exact hbounded.le_high n ((hshows.found n).mpr hn)
  · intro hhigh n hn
    rw [← hshows.group] at hhigh ⊢
    exact hbounded.low_le hhigh n ((hshows.found n).mpr hn)

theorem reached_bounded_accepting :
    let poco := Poco.reference (Server.accepting [text "boost.user  Users"]) Reference.readAll id
    let start : NewsReader ℕ Bytes := .ofSocket greetedSession.m_socket [text "1"]
    ∃ r, Reached poco start .selectArticle r ∧ r.m_articles.size = 9 ∧ Bounded r := by
  intro poco start
  have hrun : ((openGroup poco).run 99 start).map (fun x => (x.1, x.2.m_articles.size)) =
      some (.ok true, 9) := by
    decide +kernel
  obtain ⟨r, hopen, hsize⟩ :=
    exists_evals_of_run 99 (fun r : NewsReader ℕ Bytes => r.m_articles.size) hrun
  have hr := reached_of_openGroup hopen
  exact ⟨r, hr, hsize, reached_bounded hr⟩

end NewsReader

end NntpPoco
