import NntpPoco.Lib.Contract
import NntpPoco.Reader.FirstTen
import NntpPoco.Reader.Menus

/-!
# `Reader.Browse` — the reader shows what is on the server

On a server that publishes a list of newsgroups, the members of the reader are a view of that list.
`Mirrors` is what holds at every menu: the groups are those of the server, by name. `Browses` is what
holds behind the first one: the articles at hand are articles of the group that is open, each under its
own number, and they are the first ten. `reached_views` is the invariant over the runs.
-/

namespace NntpPoco

open Lines Prog NNTPClientSession

variable {π μ α β : Type} {poco : Poco π μ α} {server : Server π} {store : List Newsgroup}
  {selected : π → Option Newsgroup}

/-- The parser makes the article `a` of these lines. -/
def IsRead (poco : Poco π μ α) (ls : List Bytes) (a : α) : Prop :=
  ∃ content, Poco.TextOf ls content ∧ (poco.read.run [] content).result = .ok a

theorem article_map_injective {x y : Except Exception α} (h : x.map Result.article = y.map Result.article) :
    x = y := by
  cases x with
  | error e =>
      cases y with
      | error e' => rw [Except.error.inj h]
      | ok a => exact absurd h (by simp [Except.map])
  | ok a =>
      cases y with
      | error e => exact absurd h (by simp [Except.map])
      | ok b => rw [Result.article.inj (Except.ok.inj h)]

/-- The parser throws `e` on one of the articles that are loaded, and on none before it. -/
def Rejects (poco : Poco π μ α) (g : Newsgroup) (e : Exception) : Prop :=
  ∃ before n after, g.firstTen = before ++ n :: after ∧
    (∀ m ∈ before, ∃ ls a, g.article m = some ls ∧ IsRead poco ls a) ∧
    ∃ ls content, g.article n = some ls ∧ Poco.TextOf ls content ∧
      (poco.read.run [] content).result = .error e

namespace NewsReader

/-! ## The view -/

/-- The reader is aligned with the server, and has the groups of the store in the order of their
    names. -/
structure Mirrors (store : List Newsgroup) (r : NewsReader π α) : Prop where
  connected : r.m_session.m_socket.Connected
  unread : r.m_session.m_socket.unread = []
  groups : r.m_groupDescs.Perm (store.map Newsgroup.desc)
  sorted : r.m_groupDescs.Pairwise fun lhs rhs => ¬ rhs.1 < lhs.1

/-- The group `g` is open on both sides, and every article at hand is the one that `g` has under its
    number. -/
structure Shelves (poco : Poco π μ α) (selected : π → Option Newsgroup) (g : Newsgroup)
    (r : NewsReader π α) : Prop where
  m_currentGroup : r.m_currentGroup = g.name
  m_activeGroup : r.m_activeGroup = g.active
  peer : selected r.m_session.m_socket.peer = some g
  stored : ∀ n v, r.m_articles[n]? = some v → ∃ ls a, g.article n = some ls ∧ v = some a ∧
    IsRead poco ls a

/-- The same, with the first ten articles at hand. -/
structure Browses (poco : Poco π μ α) (selected : π → Option Newsgroup) (g : Newsgroup)
    (r : NewsReader π α) : Prop extends Shelves poco selected g r where
  first : ∀ n, n ∈ r.m_articles ↔ n ∈ g.firstTen

theorem Mirrors.of_frame {r r' : NewsReader π α} (h : Mirrors store r)
    (hsession : r'.m_session = r.m_session) (hdescs : r'.m_groupDescs = r.m_groupDescs) :
    Mirrors store r' := by
  constructor
  · rw [hsession]
    exact h.connected
  · rw [hsession]
    exact h.unread
  · rw [hdescs]
    exact h.groups
  · rw [hdescs]
    exact h.sorted

theorem Browses.of_sameArticles {g : Newsgroup} {r r' : NewsReader π α}
    (h : Browses poco selected g r) (hsame : SameArticles r r') : Browses poco selected g r' := by
  refine ⟨⟨?_, ?_, ?_, ?_⟩, ?_⟩
  · rw [hsame.m_currentGroup]
    exact h.m_currentGroup
  · rw [hsame.m_activeGroup]
    exact h.m_activeGroup
  · rw [hsame.m_session]
    exact h.peer
  · rw [hsame.m_articles]
    exact h.stored
  · rw [hsame.m_articles]
    exact h.first

/-- **A command of an aligned reader** ends, and if it returns, the reader is aligned again. -/
theorem Mirrors.asks {p : NNTPClientSession.Method π β} {f : β → Result α} {op : Operation}
    (hop : op.run poco = f <$> p) (hworks : Works poco server) {r : NewsReader π α}
    (h : Mirrors store r) (hclean : op.Clean) :
    ∃ x s, (inSession p).Evals r x { r with m_session := s } ∧
      (∀ b, x = .ok b → Mirrors store { r with m_session := s }) ∧
      Speaks poco server (r.m_session.m_socket.peer, r.m_session.activeGroup) (op, x.map f)
        (s.m_socket.peer, s.activeGroup) := by
  obtain ⟨x, s, hs, hspeaks, hconn, htaken⟩ := member_speaks hop hworks h.connected h.unread hclean
  exact ⟨x, s, hs.zoom, fun b hb => ⟨hconn, htaken b hb, h.groups, h.sorted⟩, hspeaks⟩

/-! ## The constructor -/

theorem pairwise_names (descs : List GroupDesc) :
    (descs.insertionSort fun lhs rhs => ¬ rhs.1 < lhs.1).Pairwise fun lhs rhs => ¬ rhs.1 < lhs.1 := by
  have htotal : Std.Total fun lhs rhs : GroupDesc => ¬ rhs.1 < lhs.1 :=
    ⟨fun a b => List.le_total a.1 b.1⟩
  have htrans : IsTrans GroupDesc fun lhs rhs => ¬ rhs.1 < lhs.1 :=
    ⟨fun _ _ _ => List.le_trans⟩
  exact List.pairwise_insertionSort _ descs

/-- **The groups of the constructor** are those of the server. -/
theorem construct_mirrors (hworks : Works poco server)
    (hpublishes : Publishes server (text "gmane.comp.*.boost.*") store selected)
    {socket : DialogSocket π} (hconn : socket.Connected) {greeting : Bytes} (hg : StatusLine greeting)
    (hgreeting : socket.unread = greeting ++ crlf) {cin : List Bytes} {r : NewsReader π α}
    (h : (construct poco).Evals (ofSocket socket cin) (.ok ()) r) : Mirrors store r := by
  unfold construct at h
  obtain ⟨_, r₁, hopen, h⟩ := evals_bind_ok.mp h
  obtain ⟨s₁, hs₁, rfl⟩ := evals_zoom.mp hopen
  have hsocket : s₁.m_socket = { socket with unread := [] } :=
    openSession_socket hworks.reads hg rfl hgreeting hs₁
  obtain ⟨groupDescs, r₂, hlist, hsort⟩ := evals_bind_ok.mp h
  obtain ⟨s₂, hs₂, rfl⟩ := evals_zoom.mp hlist
  have hconn₁ : s₁.m_socket.Connected := by
    rw [hsocket]
    exact hconn
  have hclean : (Operation.listNewsGroups (text "gmane.comp.*.boost.*")).Clean := by decide
  obtain ⟨x, s₂', hs₂', hspeaks, hconn₂, htaken⟩ := member_speaks
    (show (Operation.listNewsGroups (text "gmane.comp.*.boost.*")).run poco =
      Result.groups <$> listNewsGroups poco (text "gmane.comp.*.boost.*") from rfl)
    hworks hconn₁ (by rw [hsocket]) hclean
  obtain ⟨rfl, rfl⟩ := hs₂.unique hs₂'
  obtain rfl : groupDescs = store.map Newsgroup.desc :=
    Result.groups.inj (Except.ok.inj (hpublishes.listed hspeaks))
  obtain ⟨_, rfl⟩ := evals_modify.mp hsort
  exact ⟨hconn₂, htaken _ rfl, List.perm_insertionSort _ _, pairwise_names _⟩

/-! ## `getArticles` -/

/-- The loop has come to the number and the count of `x`: the articles it has found are at hand. -/
structure Collects (poco : Poco π μ α) (store : List Newsgroup) (selected : π → Option Newsgroup)
    (g : Newsgroup) (x : UInt32 × UInt32) (r : NewsReader π α) : Prop
    extends Mirrors store r, Shelves poco selected g r where
  ahead : ∃ j, g.Asked x j ∧ ∀ n, n ∈ r.m_articles ↔ n ∈ g.found j

section Round

variable {g : Newsgroup} {x : UInt32 × UInt32} {r t : NewsReader π α}

/-- A round for a number that is no article. -/
theorem Collects.miss (h : Collects poco store selected g x r) (hle : x.1 ≤ g.highArticle)
    (hlt : x.2 < 10) (hmiss : ¬ g.Has x.1) {s : NNTPClientSession π}
    (hmirrors : Mirrors store { r with m_session := s }) (hpeer : selected s.m_socket.peer = some g) :
    Collects poco store selected g (x.1 + 1, x.2) { r with m_session := s } := by
  obtain ⟨j, hasked, hkeys⟩ := h.ahead
  obtain ⟨hnext, hfound⟩ := hasked.miss hle hlt hmiss
  refine ⟨hmirrors, ⟨h.m_currentGroup, h.m_activeGroup, hpeer, h.stored⟩, j + 1, hnext, ?_⟩
  rw [hfound]
  exact hkeys

/-- A round for an article that has been read. -/
theorem Collects.hit (h : Collects poco store selected g x r) (hle : x.1 ≤ g.highArticle)
    (hlt : x.2 < 10) {ls : List Bytes} (hhit : g.article x.1 = some ls) {a : α}
    (hread : IsRead poco ls a) {s : NNTPClientSession π}
    (hmirrors : Mirrors store { r with m_session := s })
    (hpeer : selected s.m_socket.peer = some g) (v : Option α) :
    Collects poco store selected g (x.1 + 1, x.2 + 1) { r with
      m_session := s, m_articles := (r.m_articles.insert x.1 v).insert x.1 (some a) } := by
  obtain ⟨j, hasked, hkeys⟩ := h.ahead
  have hhas : g.Has x.1 := by
    rw [Newsgroup.Has, hhit]
    rfl
  obtain ⟨hnext, hfound⟩ := hasked.hit hle hlt hhas
  refine ⟨hmirrors.of_frame rfl rfl, ⟨h.m_currentGroup, h.m_activeGroup, hpeer, ?_⟩, j + 1, hnext, ?_⟩
  · intro n w hw
    have hw : ((r.m_articles.insert x.1 v).insert x.1 (some a))[n]? = some w := hw
    rw [Std.TreeMap.getElem?_insert, Std.TreeMap.getElem?_insert] at hw
    by_cases hn : compare x.1 n = .eq
    · obtain rfl := Std.LawfulEqCmp.eq_of_compare hn
      rw [if_pos hn] at hw
      exact ⟨ls, a, hhit, (Option.some.inj hw).symm, hread⟩
    · rw [if_neg hn, if_neg hn] at hw
      exact h.stored n w hw
  · intro n
    show n ∈ (r.m_articles.insert x.1 v).insert x.1 (some a) ↔ _
    rw [hfound, List.mem_append, List.mem_singleton, ← hkeys n, Std.TreeMap.mem_insert,
      Std.TreeMap.mem_insert, Std.LawfulEqCmp.compare_eq_iff_eq, eq_comm (a := n)]
    tauto

/-- Where the parser throws, it is on one of the first ten, and it has taken those before it. -/
theorem Collects.rejects (h : Collects poco store selected g x r) (hle : x.1 ≤ g.highArticle)
    (hlt : x.2 < 10) {ls : List Bytes} (hhit : g.article x.1 = some ls) {content : Bytes}
    (hcontent : Poco.TextOf ls content) {e : Exception}
    (he : (poco.read.run [] content).result = .error e) : Rejects poco g e := by
  obtain ⟨j, hasked, hkeys⟩ := h.ahead
  have hhas : g.Has x.1 := by
    rw [Newsgroup.Has, hhit]
    rfl
  obtain ⟨before, after, hsplit, hbefore⟩ := hasked.splits hle hlt hhas
  refine ⟨before, x.1, after, hsplit, fun m hm => ?_, ls, content, hhit, hcontent, he⟩
  have hmem : m ∈ r.m_articles := (hkeys m).mpr (hbefore m hm)
  obtain ⟨v, hv⟩ := Option.isSome_iff_exists.mp (Std.TreeMap.isSome_getElem?_iff_mem.mpr hmem)
  obtain ⟨ls', a, hls', _, hread⟩ := h.stored m v hv
  exact ⟨ls', a, hls', hread⟩

/-- The loop leaves behind the last number, or with ten articles. -/
theorem Collects.leave (h : Collects poco store selected g x r)
    (hcond : ¬ (x.1 ≤ g.highArticle ∧ x.2 < 10)) : Browses poco selected g r := by
  obtain ⟨j, hasked, hkeys⟩ := h.ahead
  exact ⟨h.toShelves, fun n => (hkeys n).trans (hasked.stops hcond n)⟩

/-- **One round of `getArticles`**, against the server: only the parser may throw, and where the group has
    an article, less is left to do. -/
theorem fetchRound_collects (hworks : Works poco server) {wildMat : Bytes}
    (hpublishes : Publishes server wildMat store selected) :
    Total (Collects poco store selected g x) (fetchRound poco x)
      (fun y r => Sum.elim (fun x' => Collects poco store selected g x' r ∧
          ∀ n, g.Has n → Newsgroup.remaining n x' < Newsgroup.remaining n x)
        (fun _ => Mirrors store r ∧ Browses poco selected g r) y)
      fun e _ => Rejects poco g e := by
  intro r h
  unfold fetchRound
  simp only [evals_get_bind, h.m_activeGroup]
  by_cases hcond : x.1 ≤ g.active.highArticle ∧ x.2 < 10
  · rw [if_pos hcond]
    obtain ⟨hle, hlt⟩ := hcond
    obtain ⟨present, s₁, hstat, hkept₁, hspeaks₁⟩ := h.toMirrors.asks
      (show (Operation.stat x.1).run poco = Result.verdict <$> stat poco x.1 from rfl) hworks trivial
    obtain ⟨hverdict, hpeer₁⟩ := hpublishes.verdict h.peer hspeaks₁
    cases present with
    | error e => exact absurd hverdict (by simp [Except.map])
    | ok present =>
        obtain rfl : present = decide (g.Has x.1) := Result.verdict.inj (Except.ok.inj hverdict)
        have hmirrors₁ := hkept₁ _ rfl
        by_cases hhas : g.Has x.1
        · rw [decide_eq_true hhas] at hstat
          obtain ⟨ls, hls⟩ := Option.isSome_iff_exists.mp hhas
          have hmirrors : Mirrors store ({ r with
              m_session := s₁, m_articles := r.m_articles.insert x.1 (some poco.newArticle) } :
                NewsReader π α) := hmirrors₁.of_frame rfl rfl
          obtain ⟨article, s₂, harticle, hkept₂, hspeaks₂⟩ := hmirrors.asks
            (show (Operation.articleNumber x.1).run poco = Result.article <$> articleNumber poco x.1
              from rfl)
            hworks trivial
          obtain ⟨hpeer₂, content, hcontent, hresult⟩ := hpublishes.fetched hpeer₁ hls hspeaks₂
          have hresult := article_map_injective hresult
          cases article with
          | error e =>
              exact ⟨.error e, _, hstat.bind (evals_modify_bind.mpr harticle.bind_error),
                h.rejects hle hlt hls hcontent hresult.symm⟩
          | ok article =>
              refine ⟨.ok (.inl (x.1 + 1, x.2 + 1)), _, hstat.bind (evals_modify_bind.mpr
                (harticle.bind (evals_modify_bind.mpr (evals_return _ _)))), ?_, ?_⟩
              · exact h.hit hle hlt hls ⟨content, hcontent, hresult.symm⟩
                  ((hkept₂ _ rfl).of_frame rfl rfl) hpeer₂ _
              · exact fun n _ => Newsgroup.remaining_hit hlt
        · rw [decide_eq_false hhas] at hstat
          refine ⟨.ok (.inl (x.1 + 1, x.2)), _, hstat.bind (evals_return _ _), ?_, fun n hn => ?_⟩
          · exact h.miss hle hlt hhas hmirrors₁ hpeer₁
          · exact Newsgroup.remaining_miss fun heq => hhas (heq ▸ hn)
  · rw [if_neg hcond]
    exact ⟨_, _, evals_return _ _, h.toMirrors, h.leave hcond⟩

/-- At its start. -/
theorem Collects.start (hmirrors : Mirrors store r) (hcurrent : r.m_currentGroup = g.name)
    (hactive : r.m_activeGroup = g.active) (hpeer : selected r.m_session.m_socket.peer = some g) :
    Collects poco store selected g (r.m_activeGroup.lowArticle, 0) { r with m_articles := ∅ } := by
  refine ⟨hmirrors.of_frame rfl rfl, ⟨hcurrent, hactive, hpeer, ?_⟩, 0, ?_, ?_⟩
  · intro n v hv
    have hv : (∅ : Std.TreeMap UInt32 (Option α))[n]? = some v := hv
    rw [Std.TreeMap.getElem?_emptyc] at hv
    exact absurd hv (by simp)
  · rw [hactive]
    exact Newsgroup.Asked.start
  · intro n
    show n ∈ (∅ : Std.TreeMap UInt32 (Option α)) ↔ n ∈ []
    simp

/-- **`getArticles`**, against the server. -/
theorem getArticles_browses (hworks : Works poco server) {wildMat : Bytes}
    (hpublishes : Publishes server wildMat store selected) (hmirrors : Mirrors store r)
    (hcurrent : r.m_currentGroup = g.name) (hactive : r.m_activeGroup = g.active)
    (hpeer : selected r.m_session.m_socket.peer = some g) {y : Except Exception Unit}
    (h : (getArticles poco).Evals r y t) :
    Exit (fun _ t => Mirrors store t ∧ Browses poco selected g t) (fun e _ => Rejects poco g e) y t := by
  rw [getArticles_evals_iff] at h
  have hloop : Contract (Collects poco store selected g (r.m_activeGroup.lowArticle, 0))
      (loop (fetchRound poco) (r.m_activeGroup.lowArticle, 0))
      (fun _ r => Mirrors store r ∧ Browses poco selected g r) fun e _ => Rejects poco g e := by
    refine Contract.loop (Collects poco store selected g) (fun x => ?_) _
    refine (fetchRound_collects hworks hpublishes).contract.imp (fun _ h => h) ?_ fun _ _ h => h
    rintro (x' | _) r hr
    · exact hr.1
    · exact hr
  exact hloop _ y t (.start hmirrors hcurrent hactive hpeer) h

/-- Where the group has an article, it ends. -/
theorem getArticles_ends (hworks : Works poco server) {wildMat : Bytes}
    (hpublishes : Publishes server wildMat store selected) (hmirrors : Mirrors store r)
    (hcurrent : r.m_currentGroup = g.name) (hactive : r.m_activeGroup = g.active)
    (hpeer : selected r.m_session.m_socket.peer = some g) {n : UInt32} (hn : g.Has n) :
    (getArticles poco).Halts r := by
  have hloop : Total (Collects poco store selected g (r.m_activeGroup.lowArticle, 0))
      (loop (fetchRound poco) (r.m_activeGroup.lowArticle, 0)) (fun _ _ => True) fun _ _ => True := by
    refine Total.loop (Collects poco store selected g) (fun x _ => Newsgroup.remaining n x)
      (fun x m => ?_) _
    rintro r ⟨hr, rfl⟩
    obtain ⟨y, t, heval, hexit⟩ := fetchRound_collects hworks hpublishes r hr
    refine ⟨y, t, heval, hexit.imp ?_ fun _ _ _ => trivial⟩
    rintro (x' | _) t ht
    · exact ⟨ht.1, ht.2 n hn⟩
    · trivial
  obtain ⟨y, t, heval, _⟩ := hloop _ (.start hmirrors hcurrent hactive hpeer)
  exact ⟨y, t, getArticles_evals_iff.mpr heval⟩

/-- The group that is current is selected, on both sides. -/
theorem loadGroup_opens (hworks : Works poco server) {wildMat : Bytes}
    (hpublishes : Publishes server wildMat store selected) (htokenizes : poco.Tokenizes)
    (hparses : poco.ParsesUnsigned) (hg : g ∈ store) (hmirrors : Mirrors store r)
    (hcurrent : r.m_currentGroup = g.name) :
    ∃ s, Mirrors store ({ r with m_session := s, m_activeGroup := g.active } : NewsReader π α) ∧
      selected s.m_socket.peer = some g ∧ ∀ {y t}, (loadGroup poco).Evals r y t ↔
        (getArticles poco).Evals { r with m_session := s, m_activeGroup := g.active } y t := by
  obtain ⟨x, s, hselect, hkept, hspeaks⟩ := hmirrors.asks
    (show (Operation.selectNewsGroup g.name).run poco = Result.active <$> selectNewsGroup poco g.name
      from rfl)
    hworks g.name_breakFree
  obtain ⟨hactive, hpeer⟩ := hpublishes.grouped htokenizes hparses hg hspeaks
  cases x with
  | error e => exact absurd hactive (by simp [Except.map])
  | ok active =>
      obtain rfl : active = g.active := Result.active.inj (Except.ok.inj hactive)
      refine ⟨s, (hkept _ rfl).of_frame rfl rfl, hpeer, fun {y t} => ?_⟩
      rw [← hcurrent] at hselect
      unfold loadGroup
      rw [evals_get_bind, hselect.bind_iff]
      exact evals_modify_bind

/-- **The group that is current** is loaded, unless the parser throws. -/
theorem loadGroup_browses (hworks : Works poco server) {wildMat : Bytes}
    (hpublishes : Publishes server wildMat store selected) (htokenizes : poco.Tokenizes)
    (hparses : poco.ParsesUnsigned) (hg : g ∈ store) (hmirrors : Mirrors store r)
    (hcurrent : r.m_currentGroup = g.name) {y : Except Exception Unit}
    (h : (loadGroup poco).Evals r y t) :
    Exit (fun _ t => Mirrors store t ∧ Browses poco selected g t) (fun e _ => Rejects poco g e) y t := by
  obtain ⟨s, hmirrors', hpeer, hload⟩ :=
    loadGroup_opens hworks hpublishes htokenizes hparses hg hmirrors hcurrent
  exact getArticles_browses hworks hpublishes hmirrors' hcurrent rfl hpeer (hload.mp h)

/-- Where it has an article, and the parser takes the first ten, it is. -/
theorem loadGroup_returns (hworks : Works poco server) {wildMat : Bytes}
    (hpublishes : Publishes server wildMat store selected) (htokenizes : poco.Tokenizes)
    (hparses : poco.ParsesUnsigned) (hg : g ∈ store) (hmirrors : Mirrors store r)
    (hcurrent : r.m_currentGroup = g.name) {n : UInt32} (hn : g.Has n)
    (haccepts : ∀ e, ¬ Rejects poco g e) :
    ∃ t, (loadGroup poco).Evals r (.ok ()) t ∧ Browses poco selected g t := by
  obtain ⟨s, hmirrors', hpeer, hload⟩ :=
    loadGroup_opens hworks hpublishes htokenizes hparses hg hmirrors hcurrent
  obtain ⟨y, t, heval⟩ := getArticles_ends hworks hpublishes hmirrors' hcurrent rfl hpeer hn
  have hexit := getArticles_browses hworks hpublishes hmirrors' hcurrent rfl hpeer heval
  cases y with
  | error e => exact absurd hexit (haccepts e)
  | ok u => exact ⟨t, hload.mpr heval, hexit.2⟩

end Round

/-! ## The menus -/

section Menus

variable {r t : NewsReader π α}

/-- **A group selected** is one of the server's. -/
theorem selectGroup_browses (hworks : Works poco server)
    (hpublishes : Publishes server (text "gmane.comp.*.boost.*") store selected)
    (htokenizes : poco.Tokenizes) (hparses : poco.ParsesUnsigned) (hr : Mirrors store r)
    (h : (selectGroup poco).Evals r (.ok true) t) :
    Mirrors store t ∧ ∃ g ∈ store, Browses poco selected g t := by
  obtain ⟨group, desc, r₁, _, _, hchoose, hdesc, _⟩ := selectGroup_returns h
  have hr₁ : Mirrors store r₁ :=
    chooseGroup_keeps (fun _ _ _ hr => hr.of_frame rfl rfl) r _ r₁ hr hchoose
  obtain ⟨g, hg, rfl⟩ : ∃ g ∈ store, g.desc = desc :=
    List.mem_map.mp (hr₁.groups.mem_iff.mp (List.mem_of_getElem? hdesc))
  obtain ⟨_, r₂, hload, hreturn⟩ := evals_bind_ok.mp ((selectGroup_selects hchoose hdesc).mp h)
  obtain ⟨_, rfl⟩ := evals_pure.mp hreturn
  have hcurrent : Mirrors store ({ r₁ with m_currentGroup := g.name } : NewsReader π α) :=
    hr₁.of_frame rfl rfl
  obtain ⟨ht, hbrowses⟩ :=
    loadGroup_browses hworks hpublishes htokenizes hparses hg hcurrent rfl hload
  exact ⟨ht, g, hg, hbrowses⟩

theorem selectArticle_mirrors {selectedArticle : Bool} (hr : Mirrors store r)
    (h : (selectArticle poco).Evals r (.ok selectedArticle) t) : Mirrors store t :=
  selectArticle_keeps (fun _ _ _ _ hr => hr.of_frame rfl rfl) r _ t hr h

theorem displayArticle_mirrors (hr : Mirrors store r)
    (h : (displayArticle poco).Evals r (.ok ()) t) : Mirrors store t :=
  displayArticle_keeps (fun _ _ _ _ hr => hr.of_frame rfl rfl) r _ t hr h

end Menus

/-! ## Runs -/

/-- What the reader shows at a point: the groups of the server; behind the first menu, a group of it that
    is open, with its articles; and where an article is shown, it is the one that the server has under
    the number that was chosen. -/
structure Views (poco : Poco π μ α) (store : List Newsgroup) (selected : π → Option Newsgroup)
    (point : Point) (r : NewsReader π α) : Prop where
  mirrors : Mirrors store r
  browses : point ≠ .selectGroup → ∃ g ∈ store, Browses poco selected g r ∧
    (point = .displayArticle → ∃ ls a, g.article r.m_selectedArticle = some ls ∧
      r.m_articles[r.m_selectedArticle]? = some (some a) ∧ IsRead poco ls a)

section Reached

variable (hworks : Works poco server)
  (hpublishes : Publishes server (text "gmane.comp.*.boost.*") store selected)
  (htokenizes : poco.Tokenizes) (hparses : poco.ParsesUnsigned) {socket : DialogSocket π}
  (hconn : socket.Connected) {greeting : Bytes} (hg : StatusLine greeting)
  (hgreeting : socket.unread = greeting ++ crlf) {cin : List Bytes} {point : Point}
  {r : NewsReader π α} (hr : Reached poco (ofSocket socket cin) point r)
include hworks hpublishes htokenizes hparses hconn hg hgreeting hr

theorem reached_mirrors : Mirrors store r := by
  induction hr with
  | constructed h => exact construct_mirrors hworks hpublishes hconn hg hgreeting h
  | groupSelected _ h ih => exact (selectGroup_browses hworks hpublishes htokenizes hparses ih h).1
  | articlesLeft _ h ih => exact selectArticle_mirrors ih h
  | articleSelected _ h ih => exact selectArticle_mirrors ih h
  | displayed _ h ih => exact displayArticle_mirrors ih h

/-- **The reader shows what is on the server**, at every point of every run. -/
theorem reached_views : Views poco store selected point r := by
  refine ⟨reached_mirrors hworks hpublishes htokenizes hparses hconn hg hgreeting hr, ?_⟩
  -- on the way to the point; only `selectGroup` opens a group
  induction hr with
  | constructed h => exact fun h => absurd rfl h
  | groupSelected hr₁ h ih =>
      have hmirrors := reached_mirrors hworks hpublishes htokenizes hparses hconn hg hgreeting hr₁
      obtain ⟨_, g, hg, hbrowses⟩ :=
        selectGroup_browses hworks hpublishes htokenizes hparses hmirrors h
      exact fun _ => ⟨g, hg, hbrowses, fun h => absurd h (by simp)⟩
  | articlesLeft _ h ih => exact fun h => absurd rfl h
  | @articleSelected r₁ r _ h ih =>
      obtain ⟨hsame, hmem⟩ := same_selectArticle r₁ true r (SameArticles.refl r₁) h
      obtain ⟨g, hg, hbrowses, _⟩ := ih (by simp)
      have hbrowses' := hbrowses.of_sameArticles hsame
      refine fun _ => ⟨g, hg, hbrowses', fun _ => ?_⟩
      obtain ⟨v, hv⟩ := Option.isSome_iff_exists.mp (Std.TreeMap.isSome_getElem?_iff_mem.mpr (hmem rfl))
      obtain ⟨ls, a, hls, rfl, hread⟩ := hbrowses'.stored _ v hv
      exact ⟨ls, a, hls, hv, hread⟩
  | @displayed r₁ r _ h ih =>
      have hsame := same_displayArticle r₁ () r (SameArticles.refl r₁) h
      obtain ⟨g, hg, hbrowses, _⟩ := ih (by simp)
      exact fun _ => ⟨g, hg, hbrowses.of_sameArticles hsame, fun h => absurd h (by simp)⟩

end Reached

/-- A group with every second number from 3 to 7 an article. -/
def boostUser : Newsgroup where
  entry := ⟨text "boost.user", text "\t", text "Users", by decide +kernel, by decide, by decide +kernel,
    by decide +kernel⟩
  numArticles := 2
  lowArticle := 3
  highArticle := 7
  article n := if n % 2 = 0 then some [text "From: me", [], text ".body"] else none
  name_ne_nil := by decide
  description_ne_nil := by decide
  line_breakFree := by decide
  line_noDot := by decide
  article_breakFree n ls h l hl := by
    by_cases hn : n % 2 = 0
    · rw [if_pos hn] at h
      obtain rfl := Option.some.inj h
      have hlines : ∀ l ∈ [text "From: me", [], text ".body"], BreakFree l := by decide
      exact hlines l hl
    · rw [if_neg hn] at h
      exact absurd h (by simp)

/-- Its second article. -/
theorem reached_views_publishing :
    let store := [boostUser]
    let poco := Poco.reference (Server.publishing store) Reference.readAll (id : Bytes → Bytes)
    let start : NewsReader (Option Newsgroup) Bytes :=
      .ofSocket ⟨text "200 ready\r\n", false, [], false, none⟩ [text "1", text "6"]
    ∃ r, Reached poco start .displayArticle r ∧ r.m_articles.keys = [4, 6] ∧
      r.m_selectedArticle = 6 ∧ Views poco store id .displayArticle r := by
  intro store poco start
  have hrun : ((openArticle poco).run 99 start).map
      (fun x => (x.1, x.2.m_articles.keys, x.2.m_selectedArticle)) = some (.ok true, [4, 6], 6) := by
    decide +kernel
  obtain ⟨r, hopen, hmembers⟩ := exists_evals_of_run 99
    (fun r : NewsReader (Option Newsgroup) Bytes => (r.m_articles.keys, r.m_selectedArticle)) hrun
  obtain ⟨hkeys, hnumber⟩ := Prod.mk.inj hmembers
  have hr := reached_of_openArticle hopen
  have hpublishes : Publishes (Server.publishing store) (text "gmane.comp.*.boost.*") store id :=
    Server.publishing_publishes (by decide) (by decide)
  have hg : StatusLine (text "200 ready") := ⟨by decide, rfl⟩
  exact ⟨r, hr, hkeys, hnumber, reached_views (.reference (Server.publishing_conforms store))
    hpublishes Reference.tokenizes Reference.parsesUnsigned ⟨rfl, rfl⟩ hg rfl hr⟩

end NewsReader

end NntpPoco
