import NntpPoco.Reader.Prompt
import NntpPoco.Session.Listing
import NntpPoco.Session.Pairing

/-!
# `Reader.Menus` — menus that are not empty

Both menus dereference what `std::max_element` returns, which is `end()` for an empty container. Whether
a container is empty is decided elsewhere: `m_groupDescs` has one entry for each line of the listing
(`construct_groupDescs`) and never changes again, and `m_articles` has an entry as soon as the server
accepts one STAT after the GROUP (`Loaded`). `menus_defined_iff` is the exact condition at every point
of every run.
-/

namespace NntpPoco

open Lines Prog NNTPClientSession

variable {π μ α β : Type} {poco : Poco π μ α} {server : Server π}

/-! ## Accepted STATs -/

/-- Among the events there is an accepted STAT. -/
def StatAccepted (events : List Event) : Prop :=
  ∃ n status response, isPositiveCompletion status = true ∧
    [.sent (Operation.stat n).line, .status status response] <:+: events

/-- After the last GROUP of the history the server has accepted a STAT. -/
def ArticleFound (history : List Event) : Prop :=
  ∃ base post, history = base ++ post ∧
    (∀ newsgroup, .sent (Operation.selectNewsGroup newsgroup).line ∉ post) ∧ StatAccepted post

theorem not_statAccepted_nil : ¬ StatAccepted [] := by
  rintro ⟨n, status, response, _, hoccurs⟩
  exact absurd (List.infix_nil.mp hoccurs) (by simp)

theorem StatAccepted.of_infix {events events' : List Event} (h : StatAccepted events)
    (hoccurs : events <:+: events') : StatAccepted events' := by
  obtain ⟨n, status, response, hstatus, hmem⟩ := h
  exact ⟨n, status, response, hstatus, hmem.trans hoccurs⟩

/-- **One more exchange** is an accepted STAT or makes no difference. -/
theorem statAccepted_exchange {post : List Event} {line response : Bytes} {status : Int} :
    StatAccepted (post ++ [.sent line, .status status response]) ↔
      StatAccepted post ∨ (∃ n, (Operation.stat n).line = line) ∧
        isPositiveCompletion status = true := by
  constructor
  · rintro ⟨n, status', response', hstatus, hoccurs⟩
    rw [List.append_cons, List.infix_concat_iff] at hoccurs
    rcases hoccurs with ⟨k, hk⟩ | hoccurs
    -- the two events of the STAT are the last two
    · right
      rw [← List.append_cons] at hk
      obtain ⟨_, hlast⟩ := List.append_inj' hk rfl
      simp only [List.cons.injEq, Event.sent.injEq, Event.status.injEq] at hlast
      obtain ⟨hline, ⟨rfl, _⟩, _⟩ := hlast
      exact ⟨⟨n, hline⟩, hstatus⟩
    · rcases List.infix_concat_iff.mp hoccurs with ⟨k, hk⟩ | hoccurs
      -- the status of the STAT would have to be a command line
      · have hlast := congrArg List.getLast? hk
        simp at hlast
      · exact Or.inl ⟨n, status', response', hstatus, hoccurs⟩
  · rintro (h | ⟨⟨n, rfl⟩, hstatus⟩)
    · exact h.of_infix (List.prefix_append _ _).isInfix
    · exact ⟨n, status, response, hstatus, (List.suffix_append _ _).isInfix⟩

/-- The status of the last GROUP is no STAT. -/
theorem statAccepted_status {status : Int} {response : Bytes} {post : List Event}
    (h : StatAccepted (.status status response :: post)) : StatAccepted post := by
  obtain ⟨n, status', response', hstatus, hoccurs⟩ := h
  rcases List.infix_cons_iff.mp hoccurs with hbegins | hoccurs
  · exact absurd (List.cons_prefix_cons.mp hbegins).1 (by simp)
  · exact ⟨n, status', response', hstatus, hoccurs⟩

/-- What comes after the last GROUP decides: a history that goes on from an accepted GROUP without
    another one. -/
theorem articleFound_iff {newsgroup : Bytes} {base post : List Event}
    (hselects : Selects newsgroup base)
    (hpost : ∀ newsgroup, .sent (Operation.selectNewsGroup newsgroup).line ∉ post) :
    ArticleFound (base ++ post) ↔ StatAccepted post := by
  constructor
  · rintro ⟨base', post', heq, hpost', haccepted⟩
    obtain ⟨pre, status, reply, _, rfl⟩ := hselects
    rcases List.append_eq_append_iff.mp heq with ⟨k, hk, rfl⟩ | ⟨k, hk, rfl⟩
    · exact haccepted.of_infix (List.suffix_append _ _).isInfix
    · rcases List.eq_nil_or_concat' k with rfl | ⟨k', last, rfl⟩
      · exact haccepted
      · rw [List.append_cons, ← List.append_assoc] at hk
        obtain ⟨hk, hlast⟩ := List.append_inj' hk rfl
        rcases List.eq_nil_or_concat' k' with rfl | ⟨k'', last', rfl⟩
        · rw [← List.singleton_inj.mp hlast] at haccepted
          exact statAccepted_status haccepted
        -- there is no room for more: the GROUP itself comes next
        · rw [← List.append_assoc] at hk
          obtain ⟨_, hgroup⟩ := List.append_inj' hk rfl
          exact absurd (hpost' newsgroup) (by simp [← List.singleton_inj.mp hgroup])
  · exact fun haccepted => ⟨base, post, rfl, hpost, haccepted⟩

namespace NewsReader

/-! ## What `getArticles` leaves behind -/

/-- The history has gone on from `base` without another GROUP, and there is an article in `m_articles` if
    a STAT has been accepted since. -/
def Loading (base : List Event) (r : NewsReader π α) : Prop :=
  ∃ post, r.m_session.history = base ++ post ∧
    (∀ newsgroup, .sent (Operation.selectNewsGroup newsgroup).line ∉ post) ∧
    (r.m_articles.isEmpty = false ↔ StatAccepted post)

/-- **One round of `getArticles`**: a STAT, and an article for an accepted one. -/
theorem loading_round {base : List Event} (x : UInt32 × UInt32) :
    Triple (Loading base) (fetchRound poco x) fun _ => Loading (π := π) base := by
  intro r y t hr heval
  obtain ⟨post, hpost, hgroup, hfound⟩ := hr
  rcases fetchRound_cases heval with ⟨_, rfl⟩ | ⟨s₁, hs₁, _, rfl⟩ | ⟨s₁, a, s₂, hs₁, hs₂, _, rfl⟩
  · exact ⟨post, hpost, hgroup, hfound⟩
  · obtain ⟨status, response, hverdict, hhistory⟩ := stat_returns hs₁
    refine ⟨_, ?_, noGroup_exchange hgroup (stat_line_ne x.1) status response, ?_⟩
    · show s₁.history = _
      rw [hhistory, hpost, List.append_assoc]
    · rw [statAccepted_exchange, ← hverdict]
      simpa using hfound
  · obtain ⟨status, response, hverdict, hhistory⟩ := stat_returns hs₁
    obtain ⟨status₂, response₂, _, hhistory₂⟩ := articleNumber_returns hs₂
    have hgroup₁ := noGroup_exchange hgroup (stat_line_ne x.1) status response
    refine ⟨_, ?_, noGroup_exchange hgroup₁ (articleNumber_line_ne x.1) status₂ response₂, ?_⟩
    · show s₂.history = _
      rw [hhistory₂, hhistory, hpost, List.append_assoc, List.append_assoc, List.append_assoc]
    · have haccepted : StatAccepted
          (post ++ [.sent (Operation.stat x.1).line, .status status response]) :=
        statAccepted_exchange.mpr (Or.inr ⟨⟨x.1, rfl⟩, hverdict.symm⟩)
      refine iff_of_true ?_ (haccepted.of_infix (List.prefix_append _ _).isInfix)
      exact Std.TreeMap.isEmpty_insert

/-- **`getArticles`** starts with no article and nothing asked. -/
theorem loading_getArticles {r t : NewsReader π α} (h : (getArticles poco).Evals r (.ok ()) t) :
    Loading r.m_session.history t := by
  rw [getArticles_eq, evals_modify_bind, evals_get_bind] at h
  have hloop : Triple (Loading r.m_session.history)
      (loop (fetchRound poco) (r.m_activeGroup.lowArticle, 0))
      fun _ => Loading r.m_session.history := by
    refine Triple.loop (fun _ => Loading r.m_session.history) (fun x => ?_) _
    intro r₁ y t hr₁ heval
    have ht := loading_round x r₁ y t hr₁ heval
    cases y with
    | inl x' => exact ht
    | inr u => exact ht
  have hstart : Loading r.m_session.history ({ r with m_articles := ∅ } : NewsReader π α) := by
    refine ⟨[], (List.append_nil _).symm, fun _ => List.not_mem_nil, ?_⟩
    exact iff_of_false (by simp) not_statAccepted_nil
  exact hloop _ _ t hstart h

/-- There is an article in `m_articles` if the server has accepted a STAT since the last GROUP. -/
def Loaded (r : NewsReader π α) : Prop :=
  ∃ newsgroup base, Selects newsgroup base ∧ Loading base r

theorem selectGroup_loaded {r r' : NewsReader π α}
    (h : (selectGroup poco).Evals r (.ok true) r') : r'.Loaded := by
  obtain ⟨group, desc, r₁, g, s, _, _, hs, harticles⟩ := selectGroup_returns h
  exact ⟨desc.1, s.history, (selectNewsGroup_returns hs).2, loading_getArticles harticles⟩

theorem Loaded.of_sameArticles {r r' : NewsReader π α} (h : r.Loaded) (hsame : SameArticles r r') :
    r'.Loaded := by
  obtain ⟨newsgroup, base, hselects, post, hpost, hgroup, hfound⟩ := h
  refine ⟨newsgroup, base, hselects, post, ?_, hgroup, ?_⟩
  · rw [hsame.m_session]
    exact hpost
  · rw [hsame.m_articles]
    exact hfound

theorem Loaded.articleFound_iff {r : NewsReader π α} (h : r.Loaded) :
    ArticleFound r.m_session.history ↔ r.m_articles.isEmpty = false := by
  obtain ⟨newsgroup, base, hselects, post, hpost, hgroup, hfound⟩ := h
  rw [hpost, NntpPoco.articleFound_iff hselects hgroup, hfound]

/-! ## Where the groups come from -/

/-- The constructor opens the session, lists the groups and sorts them. -/
theorem construct_returns {start r : NewsReader π α} (h : (construct poco).Evals start (.ok ()) r) :
    ∃ s₁ s₂ groupDescs, (openSession poco).Evals start.m_session (.ok ()) s₁ ∧
      (listNewsGroups poco (text "gmane.comp.*.boost.*")).Evals s₁ (.ok groupDescs) s₂ ∧
      r.m_groupDescs = groupDescs.insertionSort fun lhs rhs => ¬ rhs.1 < lhs.1 := by
  unfold construct at h
  obtain ⟨_, r₁, hopen, h⟩ := evals_bind_ok.mp h
  obtain ⟨s₁, hs₁, rfl⟩ := evals_zoom.mp hopen
  obtain ⟨groupDescs, r₂, hlist, h⟩ := evals_bind_ok.mp h
  obtain ⟨s₂, hs₂, rfl⟩ := evals_zoom.mp hlist
  rw [(evals_modify.mp h).2]
  exact ⟨s₁, s₂, groupDescs, hs₁, hs₂, rfl⟩

/-- One that throws has no groups. -/
theorem construct_throws {socket : DialogSocket π} {cin : List Bytes} {r : NewsReader π α} {e : Exception}
    (h : (construct poco).Evals (ofSocket socket cin) (.error e) r) : r.m_groupDescs = [] := by
  unfold construct at h
  rcases evals_bind.mp h with ⟨_, hopen, _⟩ | ⟨_, r₁, hopen, h⟩
  · obtain ⟨s₁, _, rfl⟩ := evals_zoom.mp hopen
    rfl
  · obtain ⟨s₁, _, rfl⟩ := evals_zoom.mp hopen
    rcases evals_bind.mp h with ⟨_, hlist, _⟩ | ⟨groupDescs, r₂, _, h⟩
    · obtain ⟨s₂, _, rfl⟩ := evals_zoom.mp hlist
      rfl
    · exact absurd (evals_modify.mp h).1 (by simp)

/-- **The groups are those of the listing**: there is none exactly when it has no line. -/
theorem construct_groupDescs (hwrites : poco.Writes server) (hreads : poco.Reads)
    {socket : DialogSocket π} {cin : List Bytes} (hconn : socket.Connected) {greeting : Bytes}
    (hg : StatusLine greeting) (hgreeting : socket.unread = greeting ++ crlf) {l body rest : Bytes}
    {ls : List Bytes} (hl : StatusLine l) (hls : ∀ x ∈ ls, BreakFree x)
    (hreact : (server.react socket.peer
      (Operation.listNewsGroups (text "gmane.comp.*.boost.*")).line).2.1 = l ++ (crlf ++ body))
    (hbody : isPositiveCompletion (statusOf l) = true → body = encodeBlock ls ++ rest)
    {r : NewsReader π α} (h : (construct poco).Evals (ofSocket socket cin) (.ok ()) r) :
    r.m_groupDescs = [] ↔ ls = [] := by
  obtain ⟨s₁, s₂, groupDescs, hopen, hlist, hdescs⟩ := construct_returns h
  have hsocket : s₁.m_socket = { socket with unread := [] } :=
    openSession_socket hreads hg rfl hgreeting hopen
  have hconn₁ : s₁.m_socket.Connected := by
    rw [hsocket]
    exact hconn
  have hunread₁ : s₁.m_socket.unread = [] := by rw [hsocket]
  have hreact₁ : (server.react s₁.m_socket.peer
      (Operation.listNewsGroups (text "gmane.comp.*.boost.*")).line).2.1 =
        l ++ (crlf ++ body) := by
    rw [hsocket]
    exact hreact
  have hlength := listNewsGroups_length hwrites hreads hconn₁ hunread₁ hls hl hreact₁ hbody hlist
  rw [hdescs, ← List.length_eq_zero_iff, List.length_insertionSort, hlength, List.length_eq_zero_iff]

/-! ## The groups stay -/

section Console

variable {I : NewsReader π α → Prop}

/-- The menu of `selectGroup` changes the console only. -/
theorem chooseGroup_keeps
    (hI : ∀ (r : NewsReader π α) (cin : List Bytes) (cout : List Output), I r →
      I { r with cin := cin, cout := cout }) : Keeps I (chooseGroup poco) := by
  rw [chooseGroup_eq]
  apply Keeps.loop
  intro _
  unfold groupPrompt
  refine keeps_get.bind fun r => ?_
  cases maxElement (fun desc : GroupDesc => desc.1.length) r.m_groupDescs with
  | none => exact keeps_throw _
  | some pos =>
      apply (keeps_print (fun r cout hr => hI r r.cin cout hr) _).bind
      intro _
      apply (keeps_getline fun r cin hr => hI r cin r.cout hr).bind
      intro cmd
      refine Keeps.ite (keeps_pure _) ?_
      exact (keeps_ofExcept _).bind fun group => Keeps.ite (keeps_pure _) (keeps_pure _)

/-- `selectArticle` changes the console and `m_selectedArticle` only. -/
theorem selectArticle_keeps
    (hI : ∀ (r : NewsReader π α) (cin : List Bytes) (cout : List Output) (number : UInt32), I r →
      I { r with cin := cin, cout := cout, m_selectedArticle := number }) :
    Keeps I (selectArticle poco) := by
  have hprint : ∀ lines, Keeps I (print lines) :=
    keeps_print fun r cout hr => hI r r.cin cout r.m_selectedArticle hr
  have hgetline : Keeps I getline :=
    keeps_getline fun r cin hr => hI r cin r.cout r.m_selectedArticle hr
  have hprompt : Keeps I (articlePrompt poco ()) := by
    unfold articlePrompt
    refine keeps_get.bind fun r => ?_
    cases maxElement (fun x : UInt32 × Option α => (Bytes.ofUInt x.1).length)
        r.m_articles.toList with
    | none => exact keeps_throw _
    | some pos =>
        refine (keeps_ofExcept _).bind fun lines => (hprint lines).bind fun _ => ?_
        refine hgetline.bind fun cmd => ?_
        refine Keeps.ite (keeps_pure _) ((keeps_ofExcept _).bind fun number => ?_)
        exact Keeps.ite (keeps_pure _) (keeps_pure _)
  have hselect : ∀ number, Keeps I
      (Prog.modify fun r => { r with m_selectedArticle := number } : Method π α Unit) :=
    fun number => keeps_modify fun r hr => hI r r.cin r.cout number hr
  unfold selectArticle
  rw [chooseArticle_eq]
  refine (Keeps.loop (fun _ => hprompt) ()).bind fun choice => ?_
  cases choice with
  | none => exact keeps_pure _
  | some number => exact (hselect number).bind fun _ => keeps_pure _

/-- `displayArticle` changes the console, and puts a null pointer where there is no article. -/
theorem displayArticle_keeps
    (hI : ∀ (r : NewsReader π α) (cin : List Bytes) (cout : List Output)
      (a : Std.TreeMap UInt32 (Option α)), I r →
      I { r with cin := cin, cout := cout, m_articles := a }) : Keeps I (displayArticle poco) := by
  have hprint : ∀ lines, Keeps I (print lines) :=
    keeps_print fun r cout hr => hI r r.cin cout r.m_articles hr
  have hgetline : Keeps I getline := keeps_getline fun r cin hr => hI r cin r.cout r.m_articles hr
  have hnull : Keeps I (Prog.modify fun r =>
      { r with m_articles := r.m_articles.insert r.m_selectedArticle none } : Method π α Unit) :=
    keeps_modify fun r hr => hI r r.cin r.cout _ hr
  have hcontent : ∀ content, Keeps I (showContent content) := by
    intro content
    unfold showContent
    refine Keeps.loop (fun x => Keeps.ite ?_ (keeps_pure _)) _
    refine (keeps_ofExcept _).bind fun line => (hprint _).bind fun _ => ?_
    refine Keeps.ite ((hprint _).bind fun _ => ?_) (keeps_pure _)
    exact hgetline.bind fun answer => Keeps.ite (keeps_pure _) (keeps_pure _)
  unfold displayArticle
  refine keeps_get.bind fun r => ?_
  cases r.m_articles[r.m_selectedArticle]? with
  | none => exact (hnull).bind fun _ => keeps_throw _
  | some entry =>
      cases entry with
      | none => exact keeps_throw _
      | some article =>
          refine (hprint _).bind fun _ => ?_
          cases poco.formatDate article "%w %B %e, %Y" with
          | error e => exact (hprint _).bind fun _ => keeps_throw _
          | ok date => exact (hprint _).bind fun _ => hcontent _

/-- `selectGroup` leaves the list of the groups alone, and the number of the article. -/
theorem selectGroup_keeps
    (hI : ∀ (r : NewsReader π α) (s : NNTPClientSession π) (name : Bytes) (g : ActiveNewsGroup)
      (a : Std.TreeMap UInt32 (Option α)) (cin : List Bytes) (cout : List Output), I r →
      I { r with m_session := s, m_currentGroup := name, m_activeGroup := g, m_articles := a,
                 cin := cin, cout := cout }) :
    Keeps I (selectGroup poco) := by
  have hsession : ∀ {γ : Type} (p : NNTPClientSession.Method π γ), Keeps I (inSession p) :=
    inSession_keeps fun r s hr => hI r s r.m_currentGroup r.m_activeGroup r.m_articles r.cin r.cout hr
  have hcurrent : ∀ name, Keeps I
      (Prog.modify fun r => { r with m_currentGroup := name } : Method π α Unit) :=
    fun name => keeps_modify fun r hr => hI r r.m_session name r.m_activeGroup r.m_articles r.cin r.cout hr
  have hactive : ∀ g, Keeps I
      (Prog.modify fun r => { r with m_activeGroup := g } : Method π α Unit) :=
    fun g => keeps_modify fun r hr => hI r r.m_session r.m_currentGroup g r.m_articles r.cin r.cout hr
  have harticles : Keeps I (getArticles poco) :=
    getArticles_keeps fun r s a hr => hI r s r.m_currentGroup r.m_activeGroup a r.cin r.cout hr
  have hchoose : Keeps I (chooseGroup poco) := chooseGroup_keeps fun r cin cout hr =>
    hI r r.m_session r.m_currentGroup r.m_activeGroup r.m_articles cin cout hr
  unfold selectGroup
  refine hchoose.bind fun choice => ?_
  cases choice with
  | none => exact keeps_pure _
  | some group =>
      refine keeps_get.bind fun r => ?_
      cases r.m_groupDescs[(group - 1).toNat]? with
      | none => exact keeps_throw _
      | some desc =>
          refine (hcurrent _).bind fun _ => keeps_get.bind fun r => (hsession _).bind fun g => ?_
          exact (hactive g).bind fun _ => harticles.bind fun _ => keeps_pure _

end Console

/-- The groups are those of `d`. -/
def Lists (d : List GroupDesc) (r : NewsReader π α) : Prop := r.m_groupDescs = d

section Lists

variable {d : List GroupDesc}

/-- One prompt of `selectGroup`. A number taken is the number of a group. -/
theorem lists_groupPrompt :
    Triple (Lists d : NewsReader π α → Prop) (groupPrompt poco ()) fun x r =>
      r.Lists d ∧ ∀ group, x = .inr (some group) → 1 ≤ group ∧ group ≤ d.length := by
  unfold groupPrompt
  refine (triple_get (Q := fun r s : NewsReader π α => r.Lists d ∧ s.Lists d)
    fun r hr => ⟨hr, hr⟩).bind fun r => Triple.of_fact fun hread => ?_
  cases maxElement (fun desc : GroupDesc => desc.1.length) r.m_groupDescs with
  | none => exact triple_throw _
  | some pos =>
      refine (keeps_print (fun _ _ hr => hr) _).triple.bind fun _ => ?_
      refine (keeps_getline fun _ _ hr => hr).triple.bind fun cmd => ?_
      refine Triple.ite (fun _ => triple_pure fun _ hr => ⟨hr, by simp⟩) fun _ => ?_
      refine (keeps_ofExcept _).triple.bind fun group => ?_
      refine Triple.ite (fun _ => triple_pure fun _ hr => ⟨hr, by simp⟩) fun hgroup => ?_
      refine triple_pure fun _ hr => ⟨hr, fun n hn => ?_⟩
      rw [← Option.some.inj (Sum.inr.inj hn), ← show r.m_groupDescs = d from hread]
      omega

theorem lists_chooseGroup :
    Triple (Lists d : NewsReader π α → Prop) (chooseGroup poco) fun choice r =>
      r.Lists d ∧ ∀ group, choice = some group → 1 ≤ group ∧ group ≤ d.length := by
  rw [chooseGroup_eq]
  refine Triple.loop (fun _ => Lists d) (fun _ => ?_) ()
  intro r x t hr heval
  obtain ⟨hlists, hgroup⟩ := lists_groupPrompt r x t hr heval
  cases x with
  | inl _ => exact hlists
  | inr choice => exact ⟨hlists, fun group hchoice => hgroup group (congrArg Sum.inr hchoice)⟩

end Lists

/-! ## Every point of every run -/

/-- What holds at a point: the groups are those of `d`, and the articles of the group selected last have
    been loaded. -/
structure PointInv (d : List GroupDesc) (point : Point) (r : NewsReader π α) : Prop where
  lists : r.Lists d
  loaded : point ≠ .selectGroup → r.Loaded

/-- **The invariant of a run**, with the groups the constructor has listed. -/
theorem reached_pointInv {start r : NewsReader π α} {point : Point}
    (hr : Reached poco start point r) :
    ∃ r₀, (construct poco).Evals start (.ok ()) r₀ ∧ PointInv r₀.m_groupDescs point r := by
  -- on the way to the point
  induction hr with
  | constructed h => exact ⟨_, h, rfl, fun hpoint => absurd rfl hpoint⟩
  | groupSelected _ h ih =>
      obtain ⟨r₀, hr₀, hinv⟩ := ih
      exact ⟨r₀, hr₀, selectGroup_keeps (fun _ _ _ _ _ _ _ hr => hr) _ _ _ hinv.lists h,
        fun _ => selectGroup_loaded h⟩
  | @articleSelected r r' _ h ih =>
      obtain ⟨r₀, hr₀, hinv⟩ := ih
      have hsame : SameArticles r r' := (same_selectArticle r _ r' (.refl r) h).1
      exact ⟨r₀, hr₀, selectArticle_keeps (fun _ _ _ _ hr => hr) r _ r' hinv.lists h,
        fun _ => (hinv.loaded (by simp)).of_sameArticles hsame⟩
  | @articlesLeft r r' _ h ih =>
      obtain ⟨r₀, hr₀, hinv⟩ := ih
      exact ⟨r₀, hr₀, selectArticle_keeps (fun _ _ _ _ hr => hr) r _ r' hinv.lists h,
        fun hpoint => absurd rfl hpoint⟩
  | @displayed r r' _ h ih =>
      obtain ⟨r₀, hr₀, hinv⟩ := ih
      have hsame : SameArticles r r' := same_displayArticle r _ r' (.refl r) h
      exact ⟨r₀, hr₀, displayArticle_keeps (fun _ _ _ _ hr => hr) r _ r' hinv.lists h,
        fun _ => (hinv.loaded (by simp)).of_sameArticles hsame⟩

/-- The call at a point never reads behind the end of its container: at every round of its loop
    `std::max_element` gives an element, and the number chosen is the place of a group. -/
def MenusDefined (poco : Poco π μ α) (r : NewsReader π α) : Point → Prop
  | .selectGroup =>
    (∀ r', Rounds (groupPrompt poco) () r () r' →
      maxElement (fun desc : GroupDesc => desc.1.length) r'.m_groupDescs ≠ none) ∧
    ∀ group r', (chooseGroup poco).Evals r (.ok (some group)) r' →
      1 ≤ group ∧ (group - 1).toNat < r'.m_groupDescs.length
  | .selectArticle =>
    ∀ r', Rounds (articlePrompt poco) () r () r' →
      maxElement (fun x : UInt32 × Option α => (Bytes.ofUInt x.1).length) r'.m_articles.toList ≠ none
  | .displayArticle => True

/-- The groups decide for `selectGroup`. -/
theorem menusDefined_selectGroup {r : NewsReader π α} :
    r.MenusDefined poco .selectGroup ↔ r.m_groupDescs ≠ [] := by
  constructor
  · intro h hnil
    exact h.1 r .first (maxElement_eq_none_iff.mpr hnil)
  · intro hne
    refine ⟨?_, ?_⟩
    · intro r' hrounds hnone
      have hlists : r'.Lists r.m_groupDescs := hrounds.invariant (fun _ => Lists r.m_groupDescs)
        (fun _ r _ r' hr h => (lists_groupPrompt r _ r' hr h).1) rfl
      exact hne (hlists.symm.trans (maxElement_eq_none_iff.mp hnone))
    · intro group r' hchoice
      obtain ⟨hlists, hgroup⟩ := lists_chooseGroup (d := r.m_groupDescs) r _ r' rfl hchoice
      obtain ⟨hlow, hhigh⟩ := hgroup group rfl
      rw [show r'.m_groupDescs = r.m_groupDescs from hlists]
      omega

/-- The articles decide for `selectArticle`. -/
theorem menusDefined_selectArticle {r : NewsReader π α} :
    r.MenusDefined poco .selectArticle ↔ r.m_articles.isEmpty = false := by
  constructor
  · intro h
    by_contra hempty
    have hnil : r.m_articles.toList = [] := by
      rw [← List.isEmpty_iff, Std.TreeMap.isEmpty_toList]
      exact Bool.not_eq_false _ ▸ hempty
    exact h r .first (maxElement_eq_none_iff.mpr hnil)
  · intro hne r' hrounds hnone
    have hsame : SameArticles r r' := hrounds.invariant (fun _ => SameArticles r)
      (fun _ r₁ _ r' hr h => (same_articlePrompt r₁ _ r' hr h).1) (.refl r)
    obtain ⟨pos, hpos⟩ := maxElement_articles hne
    rw [hsame.m_articles, hpos] at hnone
    exact absurd hnone (by simp)

/-- **No menu reads behind the end** if and only if the listing has a line, for `selectGroup`, and the
    server has accepted a STAT since the last GROUP, for `selectArticle`: at every point of every run. -/
theorem menus_defined_iff (hwrites : poco.Writes server) (hreads : poco.Reads)
    {socket : DialogSocket π} {cin : List Bytes} (hconn : socket.Connected) {greeting : Bytes}
    (hg : StatusLine greeting) (hgreeting : socket.unread = greeting ++ crlf) {l body rest : Bytes}
    {ls : List Bytes} (hl : StatusLine l) (hls : ∀ x ∈ ls, BreakFree x)
    (hreact : (server.react socket.peer
      (Operation.listNewsGroups (text "gmane.comp.*.boost.*")).line).2.1 = l ++ (crlf ++ body))
    (hbody : isPositiveCompletion (statusOf l) = true → body = encodeBlock ls ++ rest)
    {point : Point} {r : NewsReader π α} (hr : Reached poco (ofSocket socket cin) point r) :
    r.MenusDefined poco point ↔
      (point = .selectGroup → ls ≠ []) ∧
      (point = .selectArticle → ArticleFound r.m_session.history) := by
  obtain ⟨r₀, hconstruct, hinv⟩ := reached_pointInv hr
  have hgroups : r.m_groupDescs = [] ↔ ls = [] := by
    rw [show r.m_groupDescs = r₀.m_groupDescs from hinv.lists]
    exact construct_groupDescs hwrites hreads hconn hg hgreeting hl hls hreact hbody hconstruct
  cases point with
  | selectGroup => simp [menusDefined_selectGroup, hgroups]
  | selectArticle =>
      have hfound := (hinv.loaded (by simp)).articleFound_iff
      simp [menusDefined_selectArticle, hfound]
  | displayArticle => simp [MenusDefined]

/-- A group with nine articles, at the first menu of articles. -/
theorem menus_defined_iff_accepting :
    let poco := Poco.reference (Server.accepting [text "boost.user  Users"]) Reference.readAll id
    let start : NewsReader ℕ Bytes := .ofSocket greetedSession.m_socket [text "1"]
    ∃ r, Reached poco start .selectArticle r ∧
      (r.MenusDefined poco .selectArticle ↔
        (Point.selectArticle = .selectGroup → [text "boost.user  Users"] ≠ []) ∧
        (Point.selectArticle = .selectArticle → ArticleFound r.m_session.history)) := by
  intro poco start
  have hrun : ((openGroup poco).run 99 start).map (fun x => (x.1, ())) = some (.ok true, ()) := by
    decide +kernel
  obtain ⟨r, hopen, _⟩ := exists_evals_of_run 99 (fun _ : NewsReader ℕ Bytes => ()) hrun
  have hr : Reached poco start .selectArticle r := reached_of_openGroup hopen
  have hg : StatusLine (text "200 ready") := ⟨by decide, rfl⟩
  have hl : StatusLine (text "220 follows") := ⟨by decide, rfl⟩
  have hreact : ((Server.accepting [text "boost.user  Users"]).react greetedSession.m_socket.peer
      (Operation.listNewsGroups (text "gmane.comp.*.boost.*")).line).2.1 = text "220 follows" ++
        (crlf ++ (encodeBlock [text "boost.user  Users"] ++ [])) := rfl
  exact ⟨r, hr, menus_defined_iff Reference.writes Reference.reads ⟨rfl, rfl⟩ hg rfl hl (by decide)
    hreact (fun _ => rfl) hr⟩

/-- No group at all, and a group without an article: either way the program reads behind the end. -/
theorem menus_undefined :
    let poco := fun ls => Poco.reference (Server.emptyGroups ls) Reference.readAll (id : Bytes → Bytes)
    let start : NewsReader ℕ Bytes := .ofSocket greetedSession.m_socket [text "1", text "q", text "q"]
    (∃ r, Reached (poco []) start .selectGroup r ∧ ¬ r.MenusDefined (poco []) .selectGroup) ∧
    (∃ t, (main (poco [])).Evals start (.error .undefined) t) ∧
    (∃ r, Reached (poco [text "boost.user  Users"]) start .selectArticle r ∧
      ¬ r.MenusDefined (poco [text "boost.user  Users"]) .selectArticle) ∧
    ∃ t, (main (poco [text "boost.user  Users"])).Evals start (.error .undefined) t := by
  intro poco start
  have hempty : ((construct (poco [])).run 99 start).map (fun x => (x.1, x.2.m_groupDescs)) =
      some (.ok (), []) := by
    decide +kernel
  have hgroup : ((openGroup (poco [text "boost.user  Users"])).run 99 start).map
      (fun x => (x.1, x.2.m_articles.isEmpty)) = some (.ok true, true) := by
    decide +kernel
  have hmain : ∀ ls ∈ [[], [text "boost.user  Users"]], ((main (poco ls)).run 99 start).map
      (fun x => (x.1, ())) = some (.error .undefined, ()) := by
    decide +kernel
  have hundefined : ∀ ls ∈ [[], [text "boost.user  Users"]],
      ∃ t, (main (poco ls)).Evals start (.error .undefined) t := by
    intro ls hls
    obtain ⟨t, ht, _⟩ := exists_evals_of_run 99 (fun _ : NewsReader ℕ Bytes => ()) (hmain ls hls)
    exact ⟨t, ht⟩
  refine ⟨?_, hundefined _ (by simp), ?_, hundefined _ (by simp)⟩
  · obtain ⟨r, hconstruct, hnil⟩ := exists_evals_of_run 99 m_groupDescs hempty
    refine ⟨r, .constructed hconstruct, ?_⟩
    rw [menusDefined_selectGroup]
    exact fun hne => hne hnil
  · obtain ⟨r, hopen, hnil⟩ := exists_evals_of_run 99
      (fun r : NewsReader ℕ Bytes => r.m_articles.isEmpty) hgroup
    refine ⟨r, reached_of_openGroup hopen, ?_⟩
    rw [menusDefined_selectArticle, hnil]
    simp

end NewsReader

end NntpPoco
