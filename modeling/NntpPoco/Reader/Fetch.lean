import NntpPoco.Lib.Interval
import NntpPoco.Reader.Invariant

/-!
# `Reader.Fetch` — which articles `getArticles` loads

The loop of `getArticles` goes through the numbers of the group with an unsigned counter and stops
behind `highArticle` or at the tenth article. `fetch_walk` follows it up to there. The test
`number <= m_activeGroup.highArticle` cannot fail when `highArticle` is the last number of all, so with
fewer than ten articles left the counter goes on from 0: `loadsFirstTen_iff` says that this is the only
group where the articles loaded are not the first ten.
-/

namespace NntpPoco

open Lines Prog Interval NNTPClientSession

variable {π μ α : Type} {poco : Poco π μ α} {server : Server π} {S : UInt32 → Prop} {P : π → Prop}

/-! ## A server with articles -/

/-- While its state is one of `P`, where STAT and ARTICLE leave it, the server has the articles `S`: it
    accepts STAT for these numbers and no others, and ARTICLE for them with an article that
    `NewsArticle::read` accepts. -/
structure Serves (poco : Poco π μ α) (server : Server π) (S : UInt32 → Prop) (P : π → Prop) :
    Prop where
  stat : ∀ p n, P p → ∃ l p', StatusLine l ∧ (isPositiveCompletion (statusOf l) = true ↔ S n) ∧
    server.react p (Operation.stat n).line = (p', (Response.line l).encode, false) ∧ P p'
  article : ∀ p n, P p → S n → ∃ l ls p', StatusLine l ∧ isPositiveCompletion (statusOf l) = true ∧
    (∀ x ∈ ls, BreakFree x) ∧
    (∀ content, poco.mailInputStream.Feeds false poco.mailInputStream.init (encodeBlock ls) content [] →
      ∃ a, (poco.read.run [] content).result = .ok a) ∧
    server.react p (Operation.articleNumber n).line = (p', (Response.block l ls).encode, false) ∧ P p'

/-- A server that answers GROUP with `group` and has no articles. -/
def Server.withoutArticles (group : Bytes) : Server ℕ where
  react p line :=
    let r : Response :=
      if line.head? = (text "G").head? then .line group else .line (text "430 no such article")
    (p + 1, r.encode, false)

namespace NNTPClientSession

/-- The session is connected to a server in one of the states `P`, and has nothing left to read. -/
structure Aligned (P : π → Prop) (s : NNTPClientSession π) : Prop where
  connected : s.m_socket.Connected
  unread : s.m_socket.unread = []
  peer : P s.m_socket.peer

variable {s : NNTPClientSession π}

/-- A response taken to its end leaves the session aligned. -/
theorem Aligned.answered {line bytes rest response : Bytes} {status : Int} {p' : π}
    (hs : Aligned P s) (hreact : server.react s.m_socket.peer line = (p', bytes, false))
    (hp' : P p') : Aligned P ((s.answered server line rest status response).withUnread []) := by
  constructor
  · constructor
    · exact hs.connected.1
    · exact congrArg (·.2.2) hreact
  · rfl
  · show P (server.react s.m_socket.peer line).1
    rw [hreact]
    exact hp'

/-- `stat` returns whether the server has the article. -/
theorem stat_served (hwrites : poco.Writes server) (hreads : poco.Reads)
    (hserves : Serves poco server S P) (hs : Aligned P s) (n : UInt32) :
    ∃ b t status response, (stat poco n).Evals s (.ok b) t ∧ (b = true ↔ S n) ∧ Aligned P t ∧
      t.history = s.history ++ [.sent (Operation.stat n).line, .status status response] := by
  obtain ⟨l, p', hl, hstatus, hreact, hp'⟩ := hserves.stat s.m_socket.peer n hs.peer
  have hbytes : (server.react s.m_socket.peer (Operation.stat n).line).2.1 = l ++ (crlf ++ []) := by
    rw [hreact]
    rfl
  obtain ⟨response, _, hexchange⟩ := exchange_evals hreads
    ((Operation.stat n).send_eq hwrites hs.connected) hs.unread hl hbytes
  have hstat := hexchange.bind (statTail_evals (statusOf l) response)
  exact ⟨_, _, statusOf l, response, hstat, hstatus, hs.answered hreact hp', rfl⟩

/-- `article(n, a)` returns, for an article the server has. -/
theorem articleNumber_served (hwrites : poco.Writes server) (hreads : poco.Reads)
    (hblocks : poco.ReadsBlocks) (hserves : Serves poco server S P) (hs : Aligned P s) {n : UInt32}
    (hn : S n) :
    ∃ a t status response, (articleNumber poco n).Evals s (.ok a) t ∧ Aligned P t ∧
      t.history = s.history ++
        [.sent (Operation.articleNumber n).line, .status status response] := by
  obtain ⟨l, ls, p', hl, hstatus, hls, hread, hreact, hp'⟩ :=
    hserves.article s.m_socket.peer n hs.peer hn
  have hbytes : (server.react s.m_socket.peer (Operation.articleNumber n).line).2.1 =
      l ++ (crlf ++ encodeBlock ls) := by
    rw [hreact]
    rfl
  obtain ⟨response, _, hexchange⟩ := exchange_evals hreads
    ((Operation.articleNumber n).send_eq hwrites hs.connected) hs.unread hl hbytes
  have hopen : (s.answered server (Operation.articleNumber n).line (encodeBlock ls) (statusOf l)
      response).m_socket.peerClosed = false := congrArg (·.2.2) hreact
  obtain ⟨content, hfeeds⟩ := hblocks false ls [] hls
  rw [List.append_nil] at hfeeds
  obtain ⟨a, ha⟩ := hread content hfeeds
  have hbody := articleBody_returns response hreads (fun h => absurd (hopen.symm.trans h) (by simp))
    hstatus (hopen.symm ▸ hfeeds) ha
  exact ⟨a, _, statusOf l, response, hexchange.bind hbody, hs.answered hreact hp', rfl⟩

end NNTPClientSession

/-! ## The STAT commands of a history -/

def isStat : Event → Bool
  | .sent line => (text "STAT").isPrefixOf line
  | _ => false

/-- The STAT commands sent, in order. -/
def statsOf (history : List Event) : List Event := history.filter isStat

def statEvent (n : UInt32) : Event := .sent (Operation.stat n).line

theorem statsOf_stat (history : List Event) (n : UInt32) (status : Int) (response : Bytes) :
    statsOf (history ++ [.sent (Operation.stat n).line, .status status response]) =
      statsOf history ++ [statEvent n] :=
  List.filter_append ..

theorem statsOf_articleNumber (history : List Event) (n : UInt32) (status : Int) (response : Bytes) :
    statsOf (history ++ [.sent (Operation.articleNumber n).line, .status status response]) =
      statsOf history :=
  (List.filter_append ..).trans (List.append_nil _)

namespace NewsReader

/-! ## One round -/

/-- The loop has gone through the numbers `ns`: each was asked for once, in this order, and those that
    are articles are in `m_articles` now. -/
structure Visited (S : UInt32 → Prop) (ns : List UInt32) (r r' : NewsReader π α) : Prop where
  m_activeGroup : r'.m_activeGroup = r.m_activeGroup
  articles : ∀ m, m ∈ r'.m_articles ↔ m ∈ r.m_articles ∨ m ∈ ns ∧ S m
  stats : statsOf r'.m_session.history = statsOf r.m_session.history ++ ns.map statEvent

theorem Visited.nil (r : NewsReader π α) : Visited S [] r r := by
  constructor
  · rfl
  · simp
  · simp

theorem Visited.append {ns ns' : List UInt32} {r r' r'' : NewsReader π α} (h : Visited S ns r r')
    (h' : Visited S ns' r' r'') : Visited S (ns ++ ns') r r'' := by
  constructor
  · rw [h'.m_activeGroup, h.m_activeGroup]
  · intro m
    rw [h'.articles, h.articles, List.mem_append, or_and_right, or_assoc]
  · rw [h'.stats, h.stats, List.map_append, List.append_assoc]

/-- The server and the Poco functions `getArticles` is run with. -/
structure Fetches (poco : Poco π μ α) (server : Server π) (S : UInt32 → Prop) (P : π → Prop) :
    Prop where
  writes : poco.Writes server
  reads : poco.Reads
  readsBlocks : poco.ReadsBlocks
  serves : Serves poco server S P

section Round

variable (hf : Fetches poco server S P) {r : NewsReader π α} {n c : UInt32}
include hf

/-- A round for a number that is no article asks for it. -/
theorem fetchRound_miss (hs : Aligned P r.m_session) (hn : n ≤ r.m_activeGroup.highArticle)
    (hc : c < 10) (hmiss : ¬ S n) :
    ∃ r', (fetchRound poco (n, c)).Evals r (.ok (.inl (n + 1, c))) r' ∧ Visited S [n] r r' ∧
      Aligned P r'.m_session := by
  obtain ⟨b, s', status, response, hstat, hb, hs', hhistory⟩ :=
    stat_served hf.writes hf.reads hf.serves hs n
  have hfalse : b = false := Bool.eq_false_iff.mpr fun htrue => hmiss (hb.mp htrue)
  subst hfalse
  refine ⟨{ r with m_session := s' }, ?_, ?_, hs'⟩
  · unfold fetchRound
    rw [evals_get_bind, if_pos ⟨hn, hc⟩]
    exact Evals.bind hstat.zoom (evals_return _ _)
  · constructor
    · rfl
    · intro m
      constructor
      · exact Or.inl
      · rintro (hm | ⟨hm, hart⟩)
        · exact hm
        · rw [List.mem_singleton.mp hm] at hart
          exact absurd hart hmiss
    · show statsOf s'.history = _
      rw [hhistory]
      exact statsOf_stat _ n status response

/-- A round for an article asks for it, and loads it. -/
theorem fetchRound_hit (hs : Aligned P r.m_session) (hn : n ≤ r.m_activeGroup.highArticle)
    (hc : c < 10) (hhit : S n) :
    ∃ r', (fetchRound poco (n, c)).Evals r (.ok (.inl (n + 1, c + 1))) r' ∧ Visited S [n] r r' ∧
      Aligned P r'.m_session := by
  obtain ⟨b, s₁, status, response, hstat, hb, hs₁, hhistory⟩ :=
    stat_served hf.writes hf.reads hf.serves hs n
  obtain rfl : b = true := hb.mpr hhit
  obtain ⟨a, s₂, status', response', harticle, hs₂, hhistory'⟩ :=
    articleNumber_served hf.writes hf.reads hf.readsBlocks hf.serves hs₁ hhit
  refine ⟨{ r with
    m_session := s₂
    m_articles := (r.m_articles.insert n (some poco.newArticle)).insert n (some a) }, ?_, ?_, hs₂⟩
  · unfold fetchRound
    rw [evals_get_bind, if_pos ⟨hn, hc⟩]
    apply Evals.bind hstat.zoom
    rw [if_pos rfl, evals_modify_bind]
    apply Evals.bind harticle.zoom
    rw [evals_modify_bind]
    exact evals_return _ _
  · constructor
    · rfl
    · intro m
      show m ∈ (r.m_articles.insert n (some poco.newArticle)).insert n (some a) ↔ _
      rw [Std.TreeMap.mem_insert, Std.TreeMap.mem_insert, Std.LawfulEqCmp.compare_eq_iff_eq,
        List.mem_singleton]
      constructor
      · rintro (rfl | rfl | hm)
        · exact Or.inr ⟨rfl, hhit⟩
        · exact Or.inr ⟨rfl, hhit⟩
        · exact Or.inl hm
      · rintro (hm | ⟨rfl, _⟩)
        · exact Or.inr (Or.inr hm)
        · exact Or.inl rfl
    · show statsOf s₂.history = _
      rw [hhistory', statsOf_articleNumber, hhistory]
      exact statsOf_stat _ n status response

/-- **A round** visits its number, and counts it if it is an article. -/
theorem fetchRound_visits [DecidablePred S] (hs : Aligned P r.m_session)
    (hn : n ≤ r.m_activeGroup.highArticle) (hc : c < 10) :
    ∃ r', (fetchRound poco (n, c)).Evals r (.ok (.inl (n + 1, if S n then c + 1 else c))) r' ∧
      Visited S [n] r r' ∧ Aligned P r'.m_session := by
  by_cases hart : S n
  · rw [if_pos hart]
    exact fetchRound_hit hf hs hn hc hart
  · rw [if_neg hart]
    exact fetchRound_miss hf hs hn hc hart

end Round

/-- The loop leaves behind `highArticle`, or with ten articles. -/
theorem fetchRound_leaves {r : NewsReader π α} {n c : UInt32}
    (h : ¬ (n ≤ r.m_activeGroup.highArticle ∧ c < 10)) :
    (fetchRound poco (n, c)).Evals r (.ok (.inr ())) r := by
  unfold fetchRound
  rw [evals_get_bind, if_neg h]
  exact evals_return _ _

/-! ## The walk through the interval -/

/-- The articles among some numbers. -/
def articlesIn (S : UInt32 → Prop) [DecidablePred S] (ns : List UInt32) : List UInt32 :=
  ns.filter fun n => S n

theorem articlesIn_hit [DecidablePred S] {n : UInt32} (h : S n) (ns : List UInt32) :
    articlesIn S (n :: ns) = n :: articlesIn S ns := by
  simp [articlesIn, h]

theorem articlesIn_miss [DecidablePred S] {n : UInt32} (h : ¬ S n) (ns : List UInt32) :
    articlesIn S (n :: ns) = articlesIn S ns := by
  simp [articlesIn, h]

/-- Where the loop has come to from `m`, with `k` articles counted before: the numbers `ns` are visited,
    the articles among them are the first of all from `m` on, up to the tenth, and it is there or at the
    end of the interval. -/
structure Walked (S : UInt32 → Prop) [DecidablePred S] (m k : ℕ) (high : UInt32) (ns : List UInt32)
    (r r' : NewsReader π α) : Prop where
  initial : ns <+: interval m high
  found : articlesIn S ns = (articlesIn S (interval m high)).take (10 - k)
  stopped : k + (articlesIn S ns).length = 10 ∨ ns = interval m high
  visited : Visited S ns r r'

section Walk

variable [DecidablePred S] {m k : ℕ} {high : UInt32} {r : NewsReader π α}

theorem Walked.empty (h : interval m high = []) : Walked S m k high [] r r := by
  constructor
  · exact List.nil_prefix
  · rw [h]
    exact List.take_nil.symm
  · exact Or.inr h.symm
  · exact Visited.nil r

theorem Walked.full : Walked S m 10 high [] r r := by
  constructor
  · exact List.nil_prefix
  · exact List.take_zero.symm
  · exact Or.inl rfl
  · exact Visited.nil r

/-- One more number in front. -/
theorem Walked.cons {ns : List UInt32} {r' r'' : NewsReader π α} (hm : m ≤ high.toNat) (hk : k < 10)
    (hfirst : Visited S [UInt32.ofNat m] r r')
    (h : Walked S (m + 1) (if S (UInt32.ofNat m) then k + 1 else k) high ns r' r'') :
    Walked S m k high (UInt32.ofNat m :: ns) r r'' := by
  have hinterval := interval_cons hm
  have hvisited : Visited S (UInt32.ofNat m :: ns) r r'' := hfirst.append h.visited
  have hinitial : UInt32.ofNat m :: ns <+: interval m high := by
    rw [hinterval]
    exact (List.prefix_cons_inj _).mpr h.initial
  have hend : ns = interval (m + 1) high → UInt32.ofNat m :: ns = interval m high := by
    intro hns
    rw [hinterval, hns]
  by_cases hart : S (UInt32.ofNat m)
  · rw [if_pos hart] at h
    have hquota : 10 - k = 10 - (k + 1) + 1 := by omega
    refine ⟨hinitial, ?_, ?_, hvisited⟩
    · rw [hinterval, articlesIn_hit hart, articlesIn_hit hart, hquota, List.take_succ_cons, h.found]
    · rw [articlesIn_hit hart, List.length_cons]
      exact h.stopped.imp (fun hten => by omega) hend
  · rw [if_neg hart] at h
    refine ⟨hinitial, ?_, ?_, hvisited⟩
    · rw [hinterval, articlesIn_miss hart, articlesIn_miss hart, h.found]
    · rw [articlesIn_miss hart]
      exact h.stopped.imp id hend

theorem ofNat_lt_ten (hk : k < 10) : UInt32.ofNat k < 10 := by
  rw [UInt32.lt_iff_toNat_lt, toNat_ofNat_of_lt (by omega)]
  exact hk

/-- **The walk.** From the number `m` and with `k` articles counted, the loop comes to the tenth article
    or to the end of the interval, and goes on from there. -/
theorem fetch_walk (hf : Fetches poco server S P) (m : ℕ) (hk : k ≤ 10) (hs : Aligned P r.m_session)
    (hhigh : r.m_activeGroup.highArticle = high) :
    ∃ ns r', Walked S m k high ns r r' ∧ Aligned P r'.m_session ∧ ∀ x t,
      (loop (fetchRound poco) (UInt32.ofNat m, UInt32.ofNat k)).Evals r x t ↔
      (loop (fetchRound poco) (UInt32.ofNat (m + ns.length),
        UInt32.ofNat (k + (articlesIn S ns).length))).Evals r' x t := by
  -- on what is left of the interval; the counter itself may wrap around
  induction hd : high.toNat + 1 - m generalizing m k r with
  | zero => exact ⟨[], r, .empty (interval_eq_nil (by omega)), hs, fun _ _ => Iff.rfl⟩
  | succ d ih =>
      rcases Nat.eq_or_lt_of_le hk with rfl | hk
      · exact ⟨[], r, .full, hs, fun _ _ => Iff.rfl⟩
      have hm : m ≤ high.toNat := by omega
      have hle : UInt32.ofNat m ≤ r.m_activeGroup.highArticle := by
        rw [hhigh, ofNat_le_iff (by have := high.toNat_lt; omega)]
        exact hm
      obtain ⟨r₁, hround, hvisited, hs₁⟩ := fetchRound_visits hf hs hle (ofNat_lt_ten hk)
      have hhigh₁ : r₁.m_activeGroup.highArticle = high := by
        rw [hvisited.m_activeGroup, hhigh]
      obtain ⟨ns, r', hwalked, hs', hloop⟩ := ih (m + 1)
        (k := if S (UInt32.ofNat m) then k + 1 else k) (by split <;> omega) hs₁ hhigh₁ (by omega)
      refine ⟨UInt32.ofNat m :: ns, r', hwalked.cons hm hk hvisited, hs', ?_⟩
      intro x t
      have hplace : m + (ns.length + 1) = m + 1 + ns.length := by omega
      rw [hround.loop_iff, ofNat_succ, List.length_cons, hplace]
      by_cases hart : S (UInt32.ofNat m)
      · rw [if_pos hart] at hloop ⊢
        have hcount : k + ((articlesIn S ns).length + 1) = k + 1 + (articlesIn S ns).length := by
          omega
        rw [articlesIn_hit hart, List.length_cons, hcount, ofNat_succ]
        exact hloop x t
      · rw [if_neg hart] at hloop ⊢
        rw [articlesIn_miss hart]
        exact hloop x t

end Walk

/-! ## Servers with every article and with none -/

/-- The reader once it has selected the group `g` in the session `s`. -/
def ofGroup (s : NNTPClientSession π) (g : ActiveNewsGroup) : NewsReader π α :=
  { ofSocket s.m_socket [] with m_session := s, m_currentGroup := g.newsGroup, m_activeGroup := g }

theorem fetches_accepting {ls : List Bytes} (hls : ∀ l ∈ ls, BreakFree l) :
    Fetches (Poco.reference (Server.accepting ls) Reference.readAll id) (Server.accepting ls)
      (fun _ => True) fun _ => True where
  writes := Reference.writes
  reads := Reference.reads
  readsBlocks := Reference.readsBlocks
  serves := {
    stat := fun p _ _ =>
      ⟨text "223 exists", p + 1, ⟨by decide, rfl⟩, iff_of_true rfl trivial, rfl, trivial⟩
    article := fun p _ _ _ =>
      ⟨text "220 follows", ls, p + 1, ⟨by decide, rfl⟩, rfl, hls,
        fun content _ => Reference.readAll_result [] content, rfl, trivial⟩ }

theorem fetches_withoutArticles (group : Bytes) :
    Fetches (Poco.reference (Server.withoutArticles group) Reference.readAll id)
      (Server.withoutArticles group) (fun _ => False) fun _ => True where
  writes := Reference.writes
  reads := Reference.reads
  readsBlocks := Reference.readsBlocks
  serves := {
    stat := fun p _ _ => ⟨text "430 no such article", p + 1, ⟨by decide, rfl⟩,
      iff_of_false (by decide) (fun h => h), rfl, trivial⟩
    article := fun _ _ _ h => absurd h (fun h => h) }

/-! ## `getArticles` -/

theorem getArticles_evals_iff {r t : NewsReader π α} {x : Except Exception Unit} :
    (getArticles poco).Evals r x t ↔
      (loop (fetchRound poco) (r.m_activeGroup.lowArticle, 0)).Evals { r with m_articles := ∅ } x t := by
  rw [getArticles_eq, evals_modify_bind, evals_get_bind]

/-- Whichever way a round ends, the session's history only grows. -/
theorem fetchRound_history_grows (x : UInt32 × UInt32) (base : List Event) :
    Keeps (fun r : NewsReader π α => base <+: r.m_session.history) (fetchRound poco x) := by
  have hstat : Keeps (fun r : NewsReader π α => base <+: r.m_session.history)
      (inSession (stat poco x.1)) := Keeps.zoom fun r b s' hr heval =>
    run_history_grows (.stat x.1) base r.m_session _ s' hr (heval.map Result.verdict)
  have harticle : Keeps (fun r : NewsReader π α => base <+: r.m_session.history)
      (inSession (articleNumber poco x.1)) := Keeps.zoom fun r a s' hr heval =>
    run_history_grows (.articleNumber x.1) base r.m_session _ s' hr (heval.map Result.article)
  unfold fetchRound
  refine keeps_get.bind fun r => Keeps.ite ?_ (keeps_pure _)
  refine hstat.bind fun present => Keeps.ite ?_ (keeps_pure _)
  have hinsert : ∀ v : Option α, Keeps (fun r : NewsReader π α => base <+: r.m_session.history)
      (Prog.modify fun r => { r with m_articles := r.m_articles.insert x.1 v } : Method π α Unit) :=
    fun v => keeps_modify fun r hr => hr
  refine (hinsert _).bind ?_
  intro _
  refine harticle.bind ?_
  intro a
  exact (hinsert _).bind fun _ => keeps_pure _

/-- The numbers of a group. -/
def groupInterval (g : ActiveNewsGroup) : List UInt32 := interval g.lowArticle.toNat g.highArticle

/-- What `getArticles` is for: it returns, the keys are the first ten articles of the group, and STAT is
    sent for numbers of the group only, for each at most once, in increasing order. -/
structure LoadsFirstTen (poco : Poco π μ α) (S : UInt32 → Prop) [DecidablePred S]
    (r t : NewsReader π α) : Prop where
  returns : (getArticles poco).Evals r (.ok ()) t
  keys : ∀ n, n ∈ t.m_articles ↔ n ∈ (articlesIn S (groupInterval r.m_activeGroup)).take 10
  stats : ∃ ns : List UInt32,
    statsOf t.m_session.history = statsOf r.m_session.history ++ ns.map statEvent ∧
    ns.Pairwise (· < ·) ∧
    ∀ n ∈ ns, r.m_activeGroup.lowArticle ≤ n ∧ n ≤ r.m_activeGroup.highArticle

theorem mem_groupInterval {g : ActiveNewsGroup} {n : UInt32} :
    n ∈ groupInterval g ↔ g.lowArticle ≤ n ∧ n ≤ g.highArticle := by
  rw [groupInterval, mem_interval, UInt32.le_iff_toNat_le, UInt32.le_iff_toNat_le]

section First

variable [DecidablePred S] {r : NewsReader π α}

/-- The walk of `getArticles`, from the first number and with nothing counted. -/
theorem getArticles_walk (hf : Fetches poco server S P) (hs : Aligned P r.m_session) :
    ∃ ns r', Walked S r.m_activeGroup.lowArticle.toNat 0 r.m_activeGroup.highArticle ns
        { r with m_articles := ∅ } r' ∧
      Aligned P r'.m_session ∧ ∀ x t, (getArticles poco).Evals r x t ↔
        (loop (fetchRound poco) (UInt32.ofNat (r.m_activeGroup.lowArticle.toNat + ns.length),
          UInt32.ofNat (articlesIn S ns).length)).Evals r' x t := by
  obtain ⟨ns, r', hwalked, hs', hloop⟩ := fetch_walk (k := 0) (r := { r with m_articles := ∅ }) hf
    r.m_activeGroup.lowArticle.toNat (by omega) hs rfl
  refine ⟨ns, r', hwalked, hs', ?_⟩
  intro x t
  rw [getArticles_evals_iff, ← Nat.zero_add (articlesIn S ns).length, ← hloop x t, UInt32.ofNat_toNat]
  rfl

/-- Where the walk is the whole call, it loads the first ten. -/
theorem loadsFirstTen_of_walked {ns : List UInt32} {t : NewsReader π α}
    (hwalked : Walked S r.m_activeGroup.lowArticle.toNat 0 r.m_activeGroup.highArticle ns
      { r with m_articles := ∅ } t)
    (hreturns : (getArticles poco).Evals r (.ok ()) t) : LoadsFirstTen poco S r t := by
  refine ⟨hreturns, fun n => ?_, ns, hwalked.visited.stats, ?_, fun n hn => ?_⟩
  · have hempty : ¬ n ∈ (∅ : Std.TreeMap UInt32 (Option α)) := by simp
    rw [hwalked.visited.articles, or_iff_right hempty, groupInterval]
    rw [show 10 = 10 - 0 from rfl, ← hwalked.found, articlesIn, List.mem_filter, decide_eq_true_iff]
  · exact (pairwise_interval _ _).sublist hwalked.initial.sublist
  · exact mem_groupInterval.mp (hwalked.initial.subset hn)

/-- Where the walk stops, so does the loop, unless `highArticle` is the last number of all and the
    tenth article has not been found. -/
theorem Walked.stops {low high : UInt32} {ns : List UInt32} {r' : NewsReader π α}
    (h : Walked S low.toNat 0 high ns r r')
    (hcond : high ≠ 0xFFFFFFFF ∨ 10 ≤ (articlesIn S (interval low.toNat high)).length) :
    ¬ (UInt32.ofNat (low.toNat + ns.length) ≤ high ∧ UInt32.ofNat (articlesIn S ns).length < 10) := by
  rintro ⟨hle, hlt⟩
  have hfound := congrArg List.length h.found
  rw [List.length_take] at hfound
  have hten : (articlesIn S ns).length ≠ 10 := by
    intro hten
    rw [hten] at hlt
    exact absurd hlt (by decide)
  rcases h.stopped with hstopped | hns
  · exact hten (by omega)
  -- the interval is used up without a tenth article, so the counter is behind `high`
  · rcases hcond with hhigh | hlen
    · have hlow := low.toNat_lt
      have hhigh' : high.toNat + 1 < 2 ^ 32 := by
        have hne : high.toNat ≠ (0xFFFFFFFF : UInt32).toNat := fun h => hhigh (UInt32.toNat_inj.mp h)
        have hmax : (0xFFFFFFFF : UInt32).toNat = 2 ^ 32 - 1 := rfl
        have := high.toNat_lt
        omega
      rw [hns, length_interval, ofNat_le_iff (by omega)] at hle
      omega
    · exact hten (by omega)

/-- Otherwise the counter has wrapped around, and the loop goes on. -/
theorem Walked.wraps {low high : UInt32} {ns : List UInt32} {r' : NewsReader π α}
    (h : Walked S low.toNat 0 high ns r r') (hhigh : high = 0xFFFFFFFF)
    (hfew : (articlesIn S (interval low.toNat high)).length < 10) :
    low.toNat + ns.length = 2 ^ 32 ∧ (articlesIn S ns).length < 10 := by
  have hfound := congrArg List.length h.found
  rw [List.length_take] at hfound
  have hmax : (0xFFFFFFFF : UInt32).toNat = 2 ^ 32 - 1 := rfl
  have hlow := low.toNat_lt
  rcases h.stopped with hstopped | hns
  · omega
  · refine ⟨?_, by omega⟩
    rw [hns, length_interval, hhigh, hmax]
    omega

/-- A loop back at 0 goes on to send STAT, however it ends. -/
theorem stats_of_wrapped (hf : Fetches poco server S P) {c : UInt32} {t : NewsReader π α}
    {x : Except Exception Unit} (hs : Aligned P r.m_session) (hhigh : 0 ≤ r.m_activeGroup.highArticle)
    (hc : c < 10) (hloop : (loop (fetchRound poco) (0, c)).Evals r x t) :
    (statsOf r.m_session.history).length < (statsOf t.m_session.history).length := by
  obtain ⟨r'', hround, hvisited, _⟩ := fetchRound_visits hf hs hhigh hc
  rw [hround.loop_iff] at hloop
  have hgrows : r''.m_session.history <+: t.m_session.history :=
    Keeps.loop (fun x => fetchRound_history_grows x _) _ r'' x t (List.prefix_refl _) hloop
  have hle : (statsOf r''.m_session.history).length ≤ (statsOf t.m_session.history).length :=
    (hgrows.filter isStat).length_le
  rw [hvisited.stats, List.length_append] at hle
  exact hle

/-- **Which articles are loaded.** `getArticles` loads the first ten articles of the group and stops if
    and only if the highest number is not the last number of all, or the group has ten articles. -/
theorem loadsFirstTen_iff (hf : Fetches poco server S P) (hs : Aligned P r.m_session) :
    (∃ t, LoadsFirstTen poco S r t) ↔
      r.m_activeGroup.highArticle ≠ 0xFFFFFFFF ∨
        10 ≤ (articlesIn S (groupInterval r.m_activeGroup)).length := by
  obtain ⟨ns, r', hwalked, hs', hloop⟩ := getArticles_walk hf hs
  have hgroup : r'.m_activeGroup = r.m_activeGroup := hwalked.visited.m_activeGroup
  constructor
  · rintro ⟨t, hreturns, _, ns', hstats, hpairwise, hmem⟩
    by_contra hcond
    obtain ⟨hhigh, hfew⟩ := not_or.mp hcond
    obtain ⟨hwrap, hlt⟩ := hwalked.wraps (not_not.mp hhigh) (Nat.lt_of_not_le hfew)
    rw [hloop, hwrap, ofNat_wrap] at hreturns
    -- one STAT for each number, and one more for 0
    have hmore := stats_of_wrapped hf hs' (UInt32.zero_le) (ofNat_lt_ten hlt) hreturns
    have hvisited : statsOf r'.m_session.history = statsOf r.m_session.history ++ ns.map statEvent :=
      hwalked.visited.stats
    have hle := length_le_of_pairwise hpairwise fun n hn => mem_groupInterval.mpr (hmem n hn)
    rw [hstats, hvisited] at hmore
    simp only [List.length_append, List.length_map] at hmore
    have hhigh' := r.m_activeGroup.highArticle.toNat_lt
    omega
  · intro hcond
    -- the walk is all there is: the loop leaves where it stops
    refine ⟨r', loadsFirstTen_of_walked hwalked ((hloop _ _).mpr (Evals.loop_exit ?_))⟩
    apply fetchRound_leaves
    rw [hgroup]
    exact hwalked.stops hcond

end First

theorem loadsFirstTen_iff_accepting :
    let poco := Poco.reference (Server.accepting []) Reference.readAll id
    let r : NewsReader ℕ Bytes := ofGroup openedSession ⟨text "g", 9, 5, 0xFFFFFFFF⟩
    (∃ t, LoadsFirstTen poco (fun _ => True) r t) ↔
      r.m_activeGroup.highArticle ≠ 0xFFFFFFFF ∨
        10 ≤ (articlesIn (fun _ => True) (groupInterval r.m_activeGroup)).length :=
  loadsFirstTen_iff (fetches_accepting fun _ hl => absurd hl List.not_mem_nil) ⟨⟨rfl, rfl⟩, rfl, trivial⟩

/-- Where there is no article at all, a group that ends with the last number keeps the loop going for
    ever. -/
theorem getArticles_diverges (hf : Fetches poco server (fun _ => False) P) {r : NewsReader π α}
    (hs : Aligned P r.m_session) (hhigh : r.m_activeGroup.highArticle = 0xFFFFFFFF) :
    (getArticles poco).Diverges r := by
  have hloop : (loop (fetchRound poco) (r.m_activeGroup.lowArticle, 0)).Diverges
      { r with m_articles := ∅ } := by
    refine diverges_loop (fun (x : UInt32 × UInt32) (r : NewsReader π α) =>
      x.2 = 0 ∧ r.m_activeGroup.highArticle = 0xFFFFFFFF ∧ Aligned P r.m_session) ?_ ⟨rfl, hhigh, hs⟩
    rintro ⟨n, c⟩ r ⟨hc, hhigh, hs⟩
    obtain rfl : c = 0 := hc
    -- whatever the number, it is at most the last of all
    have hn : n ≤ r.m_activeGroup.highArticle := by
      rw [hhigh, UInt32.le_iff_toNat_le]
      exact Nat.le_of_lt_succ n.toNat_lt
    obtain ⟨r', hround, hvisited, hs'⟩ := fetchRound_miss hf hs hn
      (by decide : (0 : UInt32) < 10) (fun h => h)
    refine ⟨(n + 1, 0), r', hround, rfl, ?_, hs'⟩
    rw [hvisited.m_activeGroup, hhigh]
  rw [diverges_iff] at hloop ⊢
  rintro ⟨x, t, heval⟩
  exact hloop ⟨x, t, getArticles_evals_iff.mp heval⟩

/-- A group with a single number, the last of all, and no article: the loop never ends. -/
theorem getArticles_wraps_around :
    let server := Server.withoutArticles (text "211 1 4294967295 4294967295 g")
    let poco := Poco.reference server Reference.readAll id
    ∃ g s, (selectNewsGroup poco (text "g")).Evals openedSession (.ok g) s ∧
      Serves poco server (fun _ => False) (fun _ => True) ∧
      (getArticles poco).Diverges (ofGroup s g) ∧
      ¬ ∃ t, LoadsFirstTen poco (fun _ => False) (ofGroup s g) t := by
  intro server poco
  have hf := fetches_withoutArticles (text "211 1 4294967295 4294967295 g")
  obtain ⟨s, hselect, hs⟩ : ∃ s, (selectNewsGroup poco (text "g")).Evals openedSession
      (.ok ⟨text "g", 1, 0xFFFFFFFF, 0xFFFFFFFF⟩) s ∧ Aligned (fun _ => True) s :=
    ⟨_, .of_run 1 rfl, ⟨rfl, rfl⟩, rfl, trivial⟩
  have hdiverges := getArticles_diverges hf (r := ofGroup s ⟨text "g", 1, 0xFFFFFFFF, 0xFFFFFFFF⟩)
    hs rfl
  refine ⟨_, _, hselect, hf.serves, hdiverges, ?_⟩
  rintro ⟨t, hreturns, _, _⟩
  exact diverges_iff.mp hdiverges ⟨_, _, hreturns⟩

end NewsReader

end NntpPoco
