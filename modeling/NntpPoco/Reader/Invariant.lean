import NntpPoco.Reader.Run

/-!
# `Reader.Invariant` — where the articles come from

`Consistent` is what holds whenever `selectArticle` or `displayArticle` is called: the group shown is
the one the session selected last, and every article was brought by the last ARTICLE for its own number
in the `getArticles` behind that GROUP. It is established by `selectGroup` (`selectGroup_consistent`),
which empties `m_articles` before it fills it again, and it reads four members only, so the calls that
leave these alone keep it (`SameArticles`). `reader_invariant` is the induction over a run.
-/

namespace NntpPoco

open Prog NNTPClientSession

variable {π μ α β : Type} {poco : Poco π μ α}

/-! ## Histories -/

/-- The history `base` ends with an accepted GROUP for `newsgroup`. -/
def Selects (newsgroup : Bytes) (base : List Event) : Prop :=
  ∃ pre status reply, isPositiveCompletion status = true ∧
    base = pre ++ [.sent (Operation.selectNewsGroup newsgroup).line, .status status reply]

/-- The history goes on from `base` without another GROUP. -/
def NoGroupSince (base history : List Event) : Prop :=
  ∃ post, history = base ++ post ∧
    ∀ newsgroup, .sent (Operation.selectNewsGroup newsgroup).line ∉ post

theorem noGroupSince_refl (base : List Event) : NoGroupSince base base :=
  ⟨[], (List.append_nil base).symm, fun _ => List.not_mem_nil⟩

/-- An exchange sends its own command line only. -/
theorem sent_not_mem {line line' : Bytes} (hne : line' ≠ line) (status : Int) (response : Bytes) :
    Event.sent line' ∉ [.sent line, .status status response] := by
  intro hmem
  rcases List.mem_cons.mp hmem with heq | hmem
  · exact hne (Event.sent.inj heq)
  · exact absurd (List.mem_singleton.mp hmem) (by simp)

/-- One that is not a GROUP is one more that is not. -/
theorem noGroup_exchange {post : List Event}
    (hpost : ∀ newsgroup, .sent (Operation.selectNewsGroup newsgroup).line ∉ post) {line : Bytes}
    (hline : ∀ newsgroup, (Operation.selectNewsGroup newsgroup).line ≠ line) (status : Int)
    (response : Bytes) (newsgroup : Bytes) :
    .sent (Operation.selectNewsGroup newsgroup).line ∉
      post ++ [.sent line, .status status response] :=
  List.not_mem_append (hpost newsgroup) (sent_not_mem (hline newsgroup) status response)

theorem NoGroupSince.exchange {base history : List Event} (h : NoGroupSince base history)
    {line : Bytes} (hline : ∀ newsgroup, (Operation.selectNewsGroup newsgroup).line ≠ line)
    (status : Int) (response : Bytes) :
    NoGroupSince base (history ++ [.sent line, .status status response]) := by
  obtain ⟨post, rfl, hpost⟩ := h
  exact ⟨post ++ [.sent line, .status status response], List.append_assoc _ _ _,
    noGroup_exchange hpost hline status response⟩

/-- Neither STAT nor ARTICLE begins like GROUP. -/
theorem stat_line_ne (n : UInt32) (newsgroup : Bytes) :
    (Operation.selectNewsGroup newsgroup).line ≠ (Operation.stat n).line := by
  intro h
  have hhead : some (71 : UInt8) = some 83 := congrArg List.head? h
  exact absurd hhead (by decide)

theorem articleNumber_line_ne (n : UInt32) (newsgroup : Bytes) :
    (Operation.selectNewsGroup newsgroup).line ≠ (Operation.articleNumber n).line := by
  intro h
  have hhead : some (71 : UInt8) = some 65 := congrArg List.head? h
  exact absurd hhead (by decide)

theorem articleNumber_line_ne_stat (m n : UInt32) :
    (Operation.articleNumber m).line ≠ (Operation.stat n).line := by
  intro h
  have hhead : some (65 : UInt8) = some 83 := congrArg List.head? h
  exact absurd hhead (by decide)

/-! ## What the calls of the session leave behind -/

/-- A `selectNewsGroup` that returns has had its GROUP accepted, and returns its name. -/
theorem selectNewsGroup_returns {newsgroup : Bytes} {s t : NNTPClientSession π}
    {g : ActiveNewsGroup} (h : (selectNewsGroup poco newsgroup).Evals s (.ok g) t) :
    g.newsGroup = newsgroup ∧ Selects newsgroup t.history := by
  have hrun : ((Operation.selectNewsGroup newsgroup).run poco).Evals s (.ok (.active g)) t :=
    h.map Result.active
  obtain ⟨status, reply, s₁, hhandle, hhistory⟩ := run_returns hrun
  obtain ⟨y, htail, hy⟩ := evals_map.mp hhandle
  cases y with
  | error e => exact absurd hy (by simp [Except.map])
  | ok g' =>
      obtain rfl : g = g' := Result.active.inj (Except.ok.inj hy)
      cases hstatus : isPositiveCompletion status with
      | false => exact absurd (htail.unique (groupTail_refused hstatus newsgroup reply)).1 (by simp)
      | true =>
          refine ⟨?_, s.history, status, reply, hstatus, hhistory⟩
          have hg := (htail.unique (groupTail_accepted poco hstatus newsgroup reply)).1
          exact groupOutcome_newsGroup hg.symm

/-- An `article(n, a)` that returns has had its ARTICLE accepted. -/
theorem articleNumber_returns {n : UInt32} {s t : NNTPClientSession π} {a : α}
    (h : (articleNumber poco n).Evals s (.ok a) t) :
    ∃ status response, isPositiveCompletion status = true ∧
      t.history = s.history ++
        [.sent (Operation.articleNumber n).line, .status status response] := by
  have hrun : ((Operation.articleNumber n).run poco).Evals s (.ok (.article a)) t :=
    h.map Result.article
  obtain ⟨status, response, s₁, hhandle, hhistory⟩ := run_returns hrun
  refine ⟨status, response, ?_, hhistory⟩
  obtain ⟨y, htail, hy⟩ := evals_map.mp hhandle
  cases hstatus : isPositiveCompletion status with
  | true => rfl
  | false =>
      rw [(htail.unique (articleBody_refused response hstatus)).1] at hy
      exact absurd hy (by simp [Except.map])

/-- A `stat` that returns has sent a STAT, and returns whether it was accepted. -/
theorem stat_returns {n : UInt32} {s t : NNTPClientSession π} {b : Bool}
    (h : (stat poco n).Evals s (.ok b) t) :
    ∃ status response, b = isPositiveCompletion status ∧ t.history = s.history ++
      [.sent (Operation.stat n).line, .status status response] := by
  have hrun : ((Operation.stat n).run poco).Evals s (.ok (.verdict b)) t := h.map Result.verdict
  obtain ⟨status, response, s₁, hhandle, hhistory⟩ := run_returns hrun
  refine ⟨status, response, ?_, hhistory⟩
  have hverdict := (hhandle.unique ((statTail_evals status response).map Result.verdict)).1
  exact Result.verdict.inj (Except.ok.inj hverdict)

namespace NewsReader

/-! ## The calls of `selectGroup` -/

/-- One round of the loop of `getArticles`. -/
def fetchRound (poco : Poco π μ α) (x : UInt32 × UInt32) :
    Method π α ((UInt32 × UInt32) ⊕ Unit) := do
  let r ← Prog.get
  if x.1 ≤ r.m_activeGroup.highArticle ∧ x.2 < 10 then
    let present ← inSession (stat poco x.1)
    if present then
      Prog.modify fun r => { r with m_articles := r.m_articles.insert x.1 (some poco.newArticle) }
      let article ← inSession (articleNumber poco x.1)
      Prog.modify fun r => { r with m_articles := r.m_articles.insert x.1 (some article) }
      pure (.inl (x.1 + 1, x.2 + 1))
    else
      pure (.inl (x.1 + 1, x.2))
  else
    pure (.inr ())

theorem getArticles_eq :
    getArticles poco = (Prog.modify fun r => { r with m_articles := ∅ }) >>= fun _ =>
      Prog.get >>= fun r => loop (fetchRound poco) (r.m_activeGroup.lowArticle, 0) := rfl

/-- What a `selectGroup` that returns true has done. -/
theorem selectGroup_returns {r r' : NewsReader π α}
    (h : (selectGroup poco).Evals r (.ok true) r') :
    ∃ group desc r₁ g s, (chooseGroup poco).Evals r (.ok (some group)) r₁ ∧
      r₁.m_groupDescs[(group - 1).toNat]? = some desc ∧
      (selectNewsGroup poco desc.1).Evals r₁.m_session (.ok g) s ∧
      (getArticles poco).Evals
        { r₁ with m_session := s, m_currentGroup := desc.1, m_activeGroup := g } (.ok ()) r' := by
  unfold selectGroup at h
  obtain ⟨choice, r₁, hchoice, h⟩ := evals_bind_ok.mp h
  cases choice with
  | none => exact absurd (evals_pure.mp h).1 (by simp)
  | some group =>
      replace h := evals_get_bind.mp h
      cases hdesc : r₁.m_groupDescs[(group - 1).toNat]? with
      | none =>
          rw [hdesc] at h
          exact absurd (evals_throw.mp h).1 (by simp)
      | some desc =>
          rw [hdesc] at h
          rw [evals_modify_bind, evals_get_bind] at h
          obtain ⟨g, r₂, hselect, h⟩ := evals_bind_ok.mp h
          obtain ⟨s, hs, rfl⟩ := evals_zoom.mp hselect
          replace h := evals_modify_bind.mp h
          obtain ⟨_, r₃, harticles, h⟩ := evals_bind_ok.mp h
          obtain rfl := (evals_pure.mp h).2
          exact ⟨group, desc, r₁, g, s, hchoice, hdesc, hs, harticles⟩

/-- **One round of `getArticles`** leaves, or finds that the article is not there, or fetches it. -/
theorem fetchRound_cases {x : UInt32 × UInt32} {y : (UInt32 × UInt32) ⊕ Unit} {r t : NewsReader π α}
    (h : (fetchRound poco x).Evals r (.ok y) t) :
    (y = .inr () ∧ t = r) ∨
    (∃ s, (stat poco x.1).Evals r.m_session (.ok false) s ∧ y = .inl (x.1 + 1, x.2) ∧
      t = { r with m_session := s }) ∨
    (∃ s₁ a s₂, (stat poco x.1).Evals r.m_session (.ok true) s₁ ∧
      (articleNumber poco x.1).Evals s₁ (.ok a) s₂ ∧ y = .inl (x.1 + 1, x.2 + 1) ∧
      t = { r with
        m_session := s₂
        m_articles := (r.m_articles.insert x.1 (some poco.newArticle)).insert x.1 (some a) }) := by
  unfold fetchRound at h
  replace h := evals_get_bind.mp h
  by_cases hcond : x.1 ≤ r.m_activeGroup.highArticle ∧ x.2 < 10
  · rw [if_pos hcond] at h
    obtain ⟨present, r₁, hstat, h⟩ := evals_bind_ok.mp h
    obtain ⟨s₁, hs₁, rfl⟩ := evals_zoom.mp hstat
    cases present with
    | false =>
        obtain ⟨hy, rfl⟩ := evals_pure.mp h
        exact Or.inr (Or.inl ⟨s₁, hs₁, Except.ok.inj hy, rfl⟩)
    | true =>
        rw [if_pos rfl, evals_modify_bind] at h
        obtain ⟨a, r₂, harticle, h⟩ := evals_bind_ok.mp h
        obtain ⟨s₂, hs₂, rfl⟩ := evals_zoom.mp harticle
        rw [evals_modify_bind] at h
        obtain ⟨hy, rfl⟩ := evals_pure.mp h
        exact Or.inr (Or.inr ⟨s₁, a, s₂, hs₁, hs₂, Except.ok.inj hy, rfl⟩)
  · rw [if_neg hcond] at h
    obtain ⟨hy, rfl⟩ := evals_pure.mp h
    exact Or.inl ⟨Except.ok.inj hy, rfl⟩

/-- `selectGroup`, called with the reader `before`, has had its GROUP accepted and goes into
    `getArticles` with the reader `entered`. -/
def Enters (poco : Poco π μ α) (before entered : NewsReader π α) : Prop :=
  ∃ group desc r₁ g s, (chooseGroup poco).Evals before (.ok (some group)) r₁ ∧
    r₁.m_groupDescs[(group - 1).toNat]? = some desc ∧
    (selectNewsGroup poco desc.1).Evals r₁.m_session (.ok g) s ∧
    entered = { r₁ with m_session := s, m_currentGroup := desc.1, m_activeGroup := g }

/-! ## The invariant -/

/-- The members the invariant reads. -/
structure SameArticles (r r' : NewsReader π α) : Prop where
  m_session : r'.m_session = r.m_session
  m_currentGroup : r'.m_currentGroup = r.m_currentGroup
  m_activeGroup : r'.m_activeGroup = r.m_activeGroup
  m_articles : r'.m_articles = r.m_articles

theorem SameArticles.refl (r : NewsReader π α) : SameArticles r r := ⟨rfl, rfl, rfl, rfl⟩

theorem SameArticles.trans {r r' r'' : NewsReader π α} (h : SameArticles r r')
    (h' : SameArticles r' r'') : SameArticles r r'' :=
  ⟨h'.m_session.trans h.m_session, h'.m_currentGroup.trans h.m_currentGroup,
    h'.m_activeGroup.trans h.m_activeGroup, h'.m_articles.trans h.m_articles⟩

/-- The loop of `getArticles`, entered with the reader `entered`, has come to the number `n`; STAT has said
    that the article is there, and ARTICLE has brought `a`. From then on, up to the session `s`, there was
    no other ARTICLE for that number. -/
def Fetched (poco : Poco π μ α) (entered : NewsReader π α) (s : NNTPClientSession π) (n : UInt32)
    (a : α) : Prop :=
  ∃ count r₁ s₁ s₂ status response later,
    Rounds (fetchRound poco) (entered.m_activeGroup.lowArticle, 0) { entered with m_articles := ∅ }
      (n, count) r₁ ∧
    NoGroupSince entered.m_session.history r₁.m_session.history ∧
    (stat poco n).Evals r₁.m_session (.ok true) s₁ ∧ (articleNumber poco n).Evals s₁ (.ok a) s₂ ∧
    isPositiveCompletion status = true ∧
    s₂.history = s₁.history ++ [.sent (Operation.articleNumber n).line, .status status response] ∧
    s.history = s₂.history ++ later ∧ .sent (Operation.articleNumber n).line ∉ later

/-- A fetched article stays one while the session goes on without another ARTICLE for its number. -/
theorem Fetched.mono {entered : NewsReader π α} {s s' : NNTPClientSession π} {n : UInt32} {a : α}
    (h : Fetched poco entered s n a) {more : List Event} (hs : s'.history = s.history ++ more)
    (hmore : .sent (Operation.articleNumber n).line ∉ more) : Fetched poco entered s' n a := by
  obtain ⟨count, r₁, s₁, s₂, status, response, later, hrounds, hsince, hstat, harticle, hstatus,
    hhistory, hlater, hnot⟩ := h
  refine ⟨count, r₁, s₁, s₂, status, response, later ++ more, hrounds, hsince, hstat, harticle, hstatus,
    hhistory, ?_, ?_⟩
  · rw [hs, hlater, List.append_assoc]
  · exact List.not_mem_append hnot hmore

/-- The reader `r` is as the `selectGroup` called last in the run has filled it: behind the GROUP that was
    accepted it went into `getArticles` with the reader `entered`, and every entry of `m_articles` has
    the article that was fetched there under its key. -/
structure Filled (poco : Poco π μ α) (start entered r : NewsReader π α) : Prop where
  enters : ∃ before, Reached poco start .selectGroup before ∧ Enters poco before entered
  loads : ∃ loaded, (getArticles poco).Evals entered (.ok ()) loaded ∧ SameArticles loaded r
  selects : Selects r.m_currentGroup entered.m_session.history
  since : NoGroupSince entered.m_session.history r.m_session.history
  fetched : ∀ n v, r.m_articles[n]? = some v →
    ∃ a, v = some a ∧ Fetched poco entered r.m_session n a

/-- **The reader's invariant.** -/
structure Consistent (poco : Poco π μ α) (start r : NewsReader π α) : Prop where
  group : r.m_currentGroup = r.m_activeGroup.newsGroup
  articles : ∃ entered, Filled poco start entered r

theorem Consistent.of_sameArticles {start r r' : NewsReader π α} (h : Consistent poco start r)
    (hsame : SameArticles r r') : Consistent poco start r' := by
  obtain ⟨hgroup, entered, henters, ⟨loaded, hloads, hsame'⟩, hselects, hsince, hfetched⟩ := h
  refine ⟨?_, entered, henters, ⟨loaded, hloads, hsame'.trans hsame⟩, ?_, ?_, ?_⟩
  · rw [hsame.m_currentGroup, hsame.m_activeGroup, hgroup]
  · rw [hsame.m_currentGroup]
    exact hselects
  · rw [hsame.m_session]
    exact hsince
  · intro n v hv
    rw [hsame.m_articles] at hv
    rw [hsame.m_session]
    exact hfetched n v hv

/-! ### `getArticles` -/

/-- What holds at every round of `getArticles`, entered with the reader `entered`. -/
structure Fetching (poco : Poco π μ α) (entered : NewsReader π α) (x : UInt32 × UInt32)
    (r : NewsReader π α) : Prop where
  rounds : Rounds (fetchRound poco) (entered.m_activeGroup.lowArticle, 0)
    { entered with m_articles := ∅ } x r
  m_currentGroup : r.m_currentGroup = entered.m_currentGroup
  m_activeGroup : r.m_activeGroup = entered.m_activeGroup
  since : NoGroupSince entered.m_session.history r.m_session.history
  fetched : ∀ n v, r.m_articles[n]? = some v →
    ∃ a, v = some a ∧ Fetched poco entered r.m_session n a

section Fetch

variable {entered r r' : NewsReader π α} {x x' : UInt32 × UInt32}

/-- **One round of `getArticles`** puts an article in its place and leaves the others where they are. -/
theorem Fetching.round (h : Fetching poco entered x r)
    (hround : (fetchRound poco x).Evals r (.ok (.inl x')) r') : Fetching poco entered x' r' := by
  have hrounds := h.rounds.next hround
  rcases fetchRound_cases hround with ⟨hleft, _⟩ | ⟨s, hstat, _, rfl⟩ |
    ⟨s₁, a, s₂, hstat, harticle, _, rfl⟩
  · exact absurd hleft (by simp)
  · obtain ⟨status, response, _, hhistory⟩ := stat_returns hstat
    refine ⟨hrounds, h.m_currentGroup, h.m_activeGroup, ?_, ?_⟩
    · show NoGroupSince entered.m_session.history s.history
      rw [hhistory]
      exact h.since.exchange (stat_line_ne x.1) status response
    · intro m v hv
      obtain ⟨a, hva, hfetched⟩ := h.fetched m v hv
      exact ⟨a, hva, hfetched.mono hhistory
        (sent_not_mem (articleNumber_line_ne_stat m x.1) status response)⟩
  · obtain ⟨status₁, response₁, _, hhistory₁⟩ := stat_returns hstat
    obtain ⟨status₂, response₂, hstatus, hhistory₂⟩ := articleNumber_returns harticle
    have hsince : NoGroupSince entered.m_session.history s₁.history := by
      rw [hhistory₁]
      exact h.since.exchange (stat_line_ne x.1) status₁ response₁
    refine ⟨hrounds, h.m_currentGroup, h.m_activeGroup, ?_, ?_⟩
    · show NoGroupSince entered.m_session.history s₂.history
      rw [hhistory₂]
      exact hsince.exchange (articleNumber_line_ne x.1) status₂ response₂
    · intro m v hinserted
      have hv : ((r.m_articles.insert x.1 (some poco.newArticle)).insert x.1 (some a))[m]? = some v :=
        hinserted
      clear hinserted
      rw [Std.TreeMap.getElem?_insert, Std.TreeMap.getElem?_insert] at hv
      by_cases hm : compare x.1 m = .eq
      · rw [if_pos hm] at hv
        -- the entry just filled, over the new article put there first
        obtain rfl := Std.LawfulEqCmp.eq_of_compare hm
        exact ⟨a, (Option.some.inj hv).symm, x.2, r, s₁, s₂, status₂, response₂, [], h.rounds, h.since,
          hstat, harticle, hstatus, hhistory₂, (List.append_nil _).symm, List.not_mem_nil⟩
      · rw [if_neg hm, if_neg hm] at hv
        have hne : x.1 ≠ m := fun heq => hm (heq ▸ Std.ReflCmp.compare_self)
        obtain ⟨a', hva, hfetched⟩ := h.fetched m v hv
        have hafter := hfetched.mono hhistory₁
          (sent_not_mem (articleNumber_line_ne_stat m x.1) status₁ response₁)
        exact ⟨a', hva, hafter.mono hhistory₂
          (sent_not_mem (fun heq => hne (articleNumber_line_injective heq).symm) status₂ response₂)⟩

/-- **`getArticles`** empties `m_articles` and fills it from there on. -/
theorem getArticles_fetching (h : (getArticles poco).Evals entered (.ok ()) r) :
    ∃ x, Fetching poco entered x r := by
  rw [getArticles_eq, evals_modify_bind, evals_get_bind] at h
  have hstart : Fetching poco entered (entered.m_activeGroup.lowArticle, 0)
      { entered with m_articles := ∅ } := by
    refine ⟨.first, rfl, rfl, noGroupSince_refl _, fun n v hv => ?_⟩
    have hnone : (∅ : Std.TreeMap UInt32 (Option α))[n]? = some v := hv
    rw [Std.TreeMap.getElem?_emptyc] at hnone
    exact absurd hnone (by simp)
  obtain ⟨x, r', hfetching, hlast⟩ :=
    h.loop_invariant (Fetching poco entered) (fun _ _ _ _ hr hround => hr.round hround) hstart
  rcases hlast with ⟨e, _, herr⟩ | ⟨u, hleaves, _⟩
  · exact absurd herr (by simp)
  · -- the round that leaves changes nothing
    rcases fetchRound_cases hleaves with ⟨_, rfl⟩ | ⟨_, _, hagain, _⟩ | ⟨_, _, _, _, _, hagain, _⟩
    · exact ⟨x, hfetching⟩
    · exact absurd hagain (by simp)
    · exact absurd hagain (by simp)

end Fetch

/-! ### `selectGroup` -/

/-- **A group selected.** The articles shown next are its own, whatever those of the last group were. -/
theorem selectGroup_consistent {start r r' : NewsReader π α} (hr : Reached poco start .selectGroup r)
    (h : (selectGroup poco).Evals r (.ok true) r') : Consistent poco start r' := by
  obtain ⟨group, desc, r₁, g, s, hchoice, hdesc, hs, harticles⟩ := selectGroup_returns h
  obtain ⟨hname, hselects⟩ := selectNewsGroup_returns hs
  -- the history behind the reply to this GROUP is where the articles begin
  obtain ⟨x, hfetching⟩ := getArticles_fetching harticles
  have henters : Enters poco r
      { r₁ with m_session := s, m_currentGroup := desc.1, m_activeGroup := g } :=
    ⟨group, desc, r₁, g, s, hchoice, hdesc, hs, rfl⟩
  refine ⟨?_, _, ⟨r, hr, henters⟩, ⟨r', harticles, SameArticles.refl r'⟩, ?_, hfetching.since,
    hfetching.fetched⟩
  · rw [hfetching.m_currentGroup, hfetching.m_activeGroup]
    exact hname.symm
  · rw [hfetching.m_currentGroup]
    exact hselects

/-! ### `selectArticle` and `displayArticle` -/

/-- One round of the loop of `selectArticle`. -/
def articlePrompt (poco : Poco π μ α) (_ : Unit) : Method π α (Unit ⊕ Option UInt32) := do
  let r ← Prog.get
  match maxElement (fun x : UInt32 × Option α => (Bytes.ofUInt x.1).length) r.m_articles.toList with
  | none => Prog.throw .undefined
  | some pos =>
    let lines ← Prog.ofExcept (articleMenu poco ((Bytes.ofUInt pos.1).length + 1) r.m_articles.toList)
    print lines
    let cmd ← getline
    if cmd = text "q" then
      pure (.inr none)
    else
      let number ← Prog.ofExcept (poco.parseUnsigned cmd)
      if number ∈ r.m_articles then
        pure (.inr (some number))
      else
        pure (.inl ())

theorem chooseArticle_eq : chooseArticle poco = loop (articlePrompt poco) () := rfl

section Console

variable {I : NewsReader π α → Prop}

theorem keeps_print (hI : ∀ (r : NewsReader π α) (cout : List Output), I r → I { r with cout := cout })
    (lines : List Output) : Keeps I (print lines) :=
  keeps_modify fun r hr => hI r (r.cout ++ lines) hr

theorem keeps_getline (hI : ∀ (r : NewsReader π α) (cin : List Bytes), I r → I { r with cin := cin }) :
    Keeps I getline :=
  keeps_lift fun r hr => hI r r.cin.tail hr

variable {r₀ : NewsReader π α}

theorem same_getline : Triple (SameArticles r₀) getline fun _ => SameArticles r₀ :=
  (keeps_getline fun _ _ hr =>
    ⟨hr.m_session, hr.m_currentGroup, hr.m_activeGroup, hr.m_articles⟩).triple

theorem same_print (lines : List Output) :
    Triple (SameArticles r₀) (print lines) fun _ => SameArticles r₀ :=
  (keeps_print (fun _ _ hr =>
    ⟨hr.m_session, hr.m_currentGroup, hr.m_activeGroup, hr.m_articles⟩) lines).triple

/-- One prompt. A number taken is the key of an article. -/
theorem same_articlePrompt :
    Triple (SameArticles r₀) (articlePrompt poco ()) fun x r => SameArticles r₀ r ∧
      ∀ number, x = .inr (some number) → number ∈ r₀.m_articles := by
  unfold articlePrompt
  refine (triple_get (Q := fun r s => SameArticles r₀ r ∧ SameArticles r₀ s)
    fun r hr => ⟨hr, hr⟩).bind fun r => Triple.of_fact fun hread => ?_
  cases maxElement (fun x : UInt32 × Option α => (Bytes.ofUInt x.1).length) r.m_articles.toList with
  | none => exact triple_throw _
  | some pos =>
      refine (triple_ofExcept fun _ _ _ hr => hr).bind ?_
      intro lines
      refine (same_print lines).bind ?_
      intro _
      refine same_getline.bind ?_
      intro cmd
      refine Triple.ite (fun _ => ?_) fun _ => ?_
      · exact triple_pure fun _ hr => ⟨hr, fun _ hnone => absurd hnone (by simp)⟩
      · refine (triple_ofExcept fun _ _ _ hr => hr).bind ?_
        intro number
        refine Triple.ite (fun hmem => ?_) fun _ =>
          triple_pure fun _ hr => ⟨hr, fun _ hagain => absurd hagain (by simp)⟩
        refine triple_pure fun _ hr => ⟨hr, fun n hn => ?_⟩
        rw [← Option.some.inj (Sum.inr.inj hn), ← hread.m_articles]
        exact hmem

/-- The number chosen is the key of an article. -/
theorem same_chooseArticle :
    Triple (SameArticles r₀) (chooseArticle poco) fun choice r => SameArticles r₀ r ∧
      ∀ number, choice = some number → number ∈ r₀.m_articles := by
  rw [chooseArticle_eq]
  refine Triple.loop (fun _ => SameArticles r₀) (fun _ => ?_) ()
  intro r x t hr heval
  obtain ⟨hsame, hmem⟩ := same_articlePrompt r x t hr heval
  cases x with
  | inl _ => exact hsame
  | inr choice => exact ⟨hsame, fun number hnumber => hmem number (congrArg Sum.inr hnumber)⟩

/-- **An article selected.** Where `selectArticle` returns true, `m_selectedArticle` is a key. -/
theorem same_selectArticle :
    Triple (SameArticles r₀) (selectArticle poco) fun selected r => SameArticles r₀ r ∧
      (selected = true → r.m_selectedArticle ∈ r.m_articles) := by
  unfold selectArticle
  refine same_chooseArticle.bind ?_
  intro choice
  cases choice with
  | none => exact triple_pure fun _ hr => ⟨hr.1, fun h => absurd h (by simp)⟩
  | some number =>
      refine (triple_modify (Q := fun _ r => SameArticles r₀ r ∧
        r.m_selectedArticle ∈ r.m_articles) fun r hr => ?_).bind fun _ =>
          triple_pure fun _ hr => ⟨hr.1, fun _ => hr.2⟩
      refine ⟨⟨hr.1.m_session, hr.1.m_currentGroup, hr.1.m_activeGroup, hr.1.m_articles⟩, ?_⟩
      show number ∈ r.m_articles
      rw [hr.1.m_articles]
      exact hr.2 number rfl

theorem same_showContent (content : Bytes) :
    Triple (SameArticles r₀) (showContent content) fun _ => SameArticles r₀ := by
  unfold showContent
  refine Triple.loop (fun _ => SameArticles r₀) (fun x => ?_) _
  refine Triple.ite (fun _ => ?_) fun _ => triple_pure fun _ hr => hr
  refine (triple_ofExcept fun _ _ _ hr => hr).bind ?_
  intro line
  refine (same_print _).bind ?_
  intro _
  refine Triple.ite (fun _ => ?_) fun _ => triple_pure fun _ hr => hr
  refine (same_print _).bind ?_
  intro _
  refine same_getline.bind ?_
  intro answer
  exact Triple.ite (fun _ => triple_pure fun _ hr => hr) fun _ => triple_pure fun _ hr => hr

/-- A `displayArticle` that returns has inserted nothing. -/
theorem same_displayArticle :
    Triple (SameArticles r₀) (displayArticle poco) fun _ => SameArticles r₀ := by
  unfold displayArticle
  refine (triple_get fun _ hr => hr).bind ?_
  intro r
  cases r.m_articles[r.m_selectedArticle]? with
  | none => exact (triple_modify (Q := fun _ _ => True) fun _ _ => trivial).bind fun _ => triple_throw _
  | some entry =>
      cases entry with
      | none => exact triple_throw _
      | some article =>
          refine (same_print _).bind fun _ => ?_
          cases poco.formatDate article "%w %B %e, %Y" with
          | error e => exact (same_print _).bind fun _ => triple_throw _
          | ok date => exact (same_print _).bind fun _ => same_showContent _

end Console

/-! ## Runs -/

/-- **The invariant of the reader, over whole runs.** Wherever the loops of `main` have come to: the
    articles at hand are those that the last `getArticles` of the run, behind the GROUP of the group that
    is shown, has fetched under their numbers, and `displayArticle` is called for one of them, chosen by
    the last `selectArticle` among just these. -/
theorem reader_invariant (poco : Poco π μ α) (start : NewsReader π α) {point : Point}
    {r : NewsReader π α} (hr : Reached poco start point r) :
    (point ≠ .selectGroup → Consistent poco start r) ∧
    (point = .displayArticle →
      (∃ a, r.m_articles[r.m_selectedArticle]? = some (some a)) ∧
      ∃ r₁, Reached poco start .selectArticle r₁ ∧ (selectArticle poco).Evals r₁ (.ok true) r ∧
        SameArticles r₁ r) := by
  -- on the way to the point; only `selectGroup` changes what `Consistent` reads
  induction hr with
  | constructed _ => exact ⟨fun h => absurd rfl h, fun h => absurd h (by simp)⟩
  | groupSelected hr h =>
      exact ⟨fun _ => selectGroup_consistent hr h, fun h => absurd h (by simp)⟩
  | articlesLeft _ _ => exact ⟨fun h => absurd rfl h, fun h => absurd h (by simp)⟩
  | @articleSelected r₁ r hr₁ h ih =>
      obtain ⟨hsame, hmem⟩ := same_selectArticle r₁ true r (SameArticles.refl r₁) h
      have hconsistent : Consistent poco start r := (ih.1 (by simp)).of_sameArticles hsame
      refine ⟨fun _ => hconsistent, fun _ => ⟨?_, r₁, hr₁, h, hsame⟩⟩
      obtain ⟨entered, hfilled⟩ := hconsistent.articles
      -- the number chosen is a key, and no key has a null pointer
      obtain ⟨v, hv⟩ := Option.isSome_iff_exists.mp (Std.TreeMap.isSome_getElem?_iff_mem.mpr (hmem rfl))
      obtain ⟨a, rfl, -⟩ := hfilled.fetched _ v hv
      exact ⟨a, hv⟩
  | @displayed r₁ r hr₁ h ih =>
      have hsame := same_displayArticle r₁ () r (SameArticles.refl r₁) h
      exact ⟨fun _ => (ih.1 (by simp)).of_sameArticles hsame, fun h => absurd h (by simp)⟩

/-- The fourth of nine articles, of the first group. -/
theorem reader_invariant_display :
    let poco := Poco.reference (Server.accepting [text "boost.user  Users"]) Reference.readAll id
    let start : NewsReader ℕ Bytes := .ofSocket greetedSession.m_socket [text "1", text "4"]
    ∃ r, Reached poco start .displayArticle r ∧ r.m_selectedArticle = 4 ∧
      (Point.displayArticle ≠ .selectGroup → Consistent poco start r) ∧
      (Point.displayArticle = .displayArticle →
        (∃ a, r.m_articles[r.m_selectedArticle]? = some (some a)) ∧
        ∃ r₁, Reached poco start .selectArticle r₁ ∧ (selectArticle poco).Evals r₁ (.ok true) r ∧
          SameArticles r₁ r) := by
  intro poco start
  have hrun : ((openArticle poco).run 99 start).map (fun x => (x.1, x.2.m_selectedArticle)) =
      some (.ok true, 4) := by
    decide +kernel
  obtain ⟨r, hopen, hnumber⟩ := exists_evals_of_run 99 m_selectedArticle hrun
  have hreached := reached_of_openArticle hopen
  exact ⟨r, hreached, hnumber, reader_invariant poco start hreached⟩

end NewsReader

end NntpPoco
