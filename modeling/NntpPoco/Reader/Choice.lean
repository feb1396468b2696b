import NntpPoco.Reader.Browse
import NntpPoco.Reader.Paging

/-!
# `Reader.Choice` — every article can be chosen

`Reader.Browse` says that what the reader shows is on the server; this module says that what is on the
server can be shown. At any menu of any run, each group has a line, and whoever types the number in it
gets the group with its first ten articles (`selectGroup_opens`); each of these has a line in the next
menu, and whoever types its number gets the article (`selectArticle_opens`). `every_article_shown` puts
the two together. The columns of both menus are as wide as their widest entry and one more, so that the
length of the blanks, which the code computes in an unsigned type, is never negative.
-/

namespace NntpPoco

open Lines Prog NNTPClientSession

variable {π μ α β : Type} {poco : Poco π μ α} {server : Server π} {store : List Newsgroup}
  {selected : π → Option Newsgroup}

/-- The parser takes the articles of the group that are loaded. -/
def AcceptsGroup (poco : Poco π μ α) (g : Newsgroup) : Prop :=
  ∀ n ∈ g.firstTen, ∀ ls, g.article n = some ls → ∀ content, Poco.TextOf ls content →
    ∃ a, (poco.read.run [] content).result = .ok a

theorem AcceptsGroup.not_rejects {g : Newsgroup} (h : AcceptsGroup poco g) (e : Exception) :
    ¬ Rejects poco g e := by
  rintro ⟨before, n, after, hsplit, _, ls, content, hls, hcontent, he⟩
  have hn : n ∈ g.firstTen := by
    rw [hsplit]
    exact List.mem_append_right _ List.mem_cons_self
  obtain ⟨a, ha⟩ := h n hn ls hls content hcontent
  exact absurd (he.symm.trans ha) (by simp)

namespace NewsReader

/-! ## The lines of the menus -/

/-- The line of a group, with `w` for the width of the names. -/
def groupLine (w number : ℕ) (desc : GroupDesc) : Output :=
  .menu (Bytes.setw 3 (Bytes.ofNat number) ++ text " " ++ desc.1 ++
    List.replicate (w - desc.1.length) 32 ++ desc.2)

/-- The line of an article, with `w` for the width of the numbers. -/
def articleLine (poco : Poco π μ α) (w : ℕ) (number : UInt32) (article : α) : Output :=
  .menu (Bytes.setw w (Bytes.ofUInt number) ++ text " " ++ poco.getSubject article)

theorem groupMenu_getElem? {descs : List GroupDesc} {k : ℕ} {desc : GroupDesc}
    (h : descs[k]? = some desc) (w : ℕ) :
    (groupMenu w descs)[k]? = some (groupLine w (k + 1) desc) := by
  have hlt : k < descs.length := (List.getElem?_eq_some_iff.mp h).1
  rw [groupMenu, List.getElem?_append_left (by simpa using hlt), List.getElem?_map,
    List.getElem?_zipIdx, h, Nat.add_comm]
  rfl

/-- The names of the menu are shorter than the column they stand in. -/
theorem groupPage_aligned {r : NewsReader π α} (hne : r.m_groupDescs ≠ []) :
    ∃ w, (∀ desc ∈ r.m_groupDescs, desc.1.length < w) ∧
      r.groupPage = groupMenu w r.m_groupDescs := by
  have hmax : maxElement (fun desc : GroupDesc => desc.1.length) r.m_groupDescs ≠ none :=
    mt maxElement_eq_none_iff.mp hne
  obtain ⟨pos, hpos⟩ := Option.ne_none_iff_exists'.mp hmax
  refine ⟨pos.1.length + 1, fun desc hdesc => ?_, ?_⟩
  · exact Nat.lt_succ_of_le (le_of_maxElement hpos desc hdesc)
  · rw [groupPage, groupsPage, hpos]

theorem mem_articleMenu {entries : List (UInt32 × Option α)} {w : ℕ} {menu : List Output}
    (h : articleMenu poco w entries = .ok menu) {n : UInt32} {a : α} (hn : (n, some a) ∈ entries) :
    articleLine poco w n a ∈ menu := by
  induction entries generalizing menu with
  | nil => exact absurd hn List.not_mem_nil
  | cons entry entries ih =>
      obtain ⟨m, v⟩ := entry
      cases v with
      | none => exact absurd h (by simp [articleMenu])
      | some b =>
          rw [articleMenu] at h
          cases hrest : articleMenu poco w entries with
          | error e =>
              rw [hrest] at h
              exact absurd h (by simp [bind, Except.bind])
          | ok lines =>
              rw [hrest] at h
              obtain rfl := Except.ok.inj h
              rcases List.mem_cons.mp hn with heq | hn
              · obtain ⟨rfl, hv⟩ := Prod.mk.inj heq
                obtain rfl := Option.some.inj hv
                exact List.mem_cons_self
              · exact List.mem_cons_of_mem _ (ih hrest hn)

/-- The numbers of the menu are shorter than the column they stand in. -/
theorem articlePage_aligned {r : NewsReader π α} {menu : List Output}
    (h : r.articlePage poco = .ok menu) :
    ∃ w, (∀ n ∈ r.m_articles, (Bytes.ofUInt n).length < w) ∧
      articleMenu poco w r.m_articles.toList = .ok menu := by
  unfold articlePage shelfPage at h
  cases hpos : maxElement (fun x : UInt32 × Option α => (Bytes.ofUInt x.1).length)
      r.m_articles.toList with
  | none =>
      rw [hpos] at h
      exact absurd h (by simp)
  | some pos =>
      rw [hpos] at h
      refine ⟨(Bytes.ofUInt pos.1).length + 1, fun n hn => ?_, h⟩
      obtain ⟨v, hv⟩ := Option.isSome_iff_exists.mp (Std.TreeMap.isSome_getElem?_iff_mem.mpr hn)
      exact Nat.lt_succ_of_le
        (le_of_maxElement hpos (n, v) (Std.TreeMap.mem_toList_iff_getElem?_eq_some.mpr hv))

/-! ## The menus -/

section Menus

variable {g : Newsgroup} {r : NewsReader π α} {rest : List Bytes}

/-- **A group is opened** by the number of its line. -/
theorem selectGroup_opens (hworks : Works poco server) {wildMat : Bytes}
    (hpublishes : Publishes server wildMat store selected) (htokenizes : poco.Tokenizes)
    (hparses : poco.ParsesUnsigned) (hdecimal : poco.ParsesDecimal) (hg : g ∈ store)
    (haccepts : AcceptsGroup poco g) {n : UInt32} (hn : n ∈ g.firstTen) (hr : Mirrors store r) {k : ℕ}
    (hk : r.m_groupDescs[k]? = some g.desc) (hlt : k + 1 < 2 ^ 31)
    (hcin : r.cin = Bytes.ofNat (k + 1) :: rest) :
    ∃ t, (selectGroup poco).Evals r (.ok true) t ∧ Browses poco selected g t ∧ t.cin = rest ∧
      t.cout = r.cout ++ r.groupPage := by
  have hlength : k < r.m_groupDescs.length := (List.getElem?_eq_some_iff.mp hk).1
  have hne : r.m_groupDescs ≠ [] := List.ne_nil_of_length_pos (Nat.zero_lt_of_lt hlength)
  have hdecided : GroupDecided poco r ([] ++ [Bytes.ofNat (k + 1)]) (Bytes.ofNat (k + 1)) rest :=
    groupDecided_of_parses hcin hne (fun _ hl => absurd hl List.not_mem_nil)
      fun _ hl => absurd hl List.not_mem_nil
  have hvalid : r.isGroup ((k + 1 : ℕ) : Int) = true := decide_eq_true (by omega)
  have hplace : r.m_groupDescs[(((k + 1 : ℕ) : Int) - 1).toNat]? = some g.desc := by
    rw [← hk]
    congr 1
    omega
  let asked : NewsReader π α :=
    { r.asked r.groupPage ([] ++ [Bytes.ofNat (k + 1)]) rest with m_currentGroup := g.name }
  have hasked : Mirrors store asked := hr.of_frame rfl rfl
  obtain ⟨t, hload, hbrowses⟩ :=
    loadGroup_returns hworks hpublishes htokenizes hparses hg hasked rfl
      (Newsgroup.has_of_mem_firstTen hn) haccepts.not_rejects
  obtain ⟨hselect, _, hrest⟩ :=
    hdecided.returns (ofNat_ne_q _) _ g.desc (parse_ofNat hdecimal hlt) hvalid hplace t hload
  refine ⟨t, hselect, hbrowses, hrest, ?_⟩
  -- nothing is printed behind the menu
  have hkeeps : Keeps (fun r : NewsReader π α => r.cout = asked.cout) (loadGroup poco) :=
    loadGroup_keeps fun _ _ _ _ hr => hr
  rw [hkeeps asked _ t rfl hload]
  simp [asked, NewsReader.asked]

/-- **An article is opened** by its number. -/
theorem selectArticle_opens (hparses : poco.ParsesUnsigned) (hr : Browses poco selected g r)
    {n : UInt32} (hn : n ∈ r.m_articles) (hcin : r.cin = Bytes.ofUInt n :: rest) :
    ∃ menu, r.articlePage poco = .ok menu ∧ (selectArticle poco).Evals r (.ok true)
      { r with m_selectedArticle := n, cin := rest, cout := r.cout ++ menu } := by
  have hne : r.m_articles.isEmpty = false := by
    rw [Std.TreeMap.isEmpty_eq_false_iff_exists_mem]
    exact ⟨n, hn⟩
  have hnull : r.NoNull := by
    rintro m v hv rfl
    obtain ⟨_, _, _, hnone, _⟩ := hr.stored m none hv
    exact absurd hnone (by simp)
  have hprinted : ∃ menu, r.articlePage poco = .ok menu := (articlePage_ok_iff hne).mpr hnull
  obtain ⟨menu, hpage⟩ := hprinted
  have hdecided : ArticleDecided poco r menu ([] ++ [Bytes.ofUInt n]) (Bytes.ofUInt n) rest :=
    articleDecided_of_parses hcin hpage (fun _ hl => absurd hl List.not_mem_nil)
      fun _ hl => absurd hl List.not_mem_nil
  have hselect := hdecided.selects (ofNat_ne_q _) n (parseUnsigned_ofUInt hparses n)
    (decide_eq_true hn)
  refine ⟨menu, hpage, ?_⟩
  have hasked : ({ r.asked menu ([] ++ [Bytes.ofUInt n]) rest with m_selectedArticle := n } :
      NewsReader π α) = { r with m_selectedArticle := n, cin := rest, cout := r.cout ++ menu } := by
    simp [asked]
  rw [← hasked]
  exact hselect

end Menus

/-! ## Both menus -/

/-- From the reader `r`, whose next lines are two numbers and `rest`, the article `n` of `g` is shown. -/
structure Shown (poco : Poco π μ α) (g : Newsgroup) (n : UInt32) (rest : List Bytes)
    (r r₁ r₂ : NewsReader π α) (a : α) : Prop where
  group : (selectGroup poco).Evals r (.ok true) r₁
  groupMenu : r₁.cout = r.cout ++ r.groupPage
  article : (selectArticle poco).Evals r₁ (.ok true) r₂
  articleMenu : ∃ w menu, r₂.cout = r₁.cout ++ menu ∧
    articleMenu poco w r₁.m_articles.toList = .ok menu ∧
    (∀ m ∈ r₁.m_articles, (Bytes.ofUInt m).length < w) ∧ articleLine poco w n a ∈ menu
  read : ∃ ls, g.article n = some ls ∧ IsRead poco ls a
  display : ∀ date, poco.formatDate a "%w %B %e, %Y" = .ok date → (displayArticle poco).Evals r₂ (.ok ())
    (r₂.shown (articleHeader poco a date ++ (pager 0 (pieces (poco.getContent a)) rest).1,
      (pager 0 (pieces (poco.getContent a)) rest).2))

/-- **Every article can be read** of a group whose first ten articles the parser takes. At the first menu of
    any run, the group has a line, and whoever types the number in it and then the number of one of these
    articles is shown that article: its line in the second menu, and then, if its date can be formatted, its
    header and its content. In both menus every entry is shorter than its column. The numbers of the first
    menu have to fit into an `int`. -/
theorem every_article_shown (hworks : Works poco server)
    (hpublishes : Publishes server (text "gmane.comp.*.boost.*") store selected)
    (htokenizes : poco.Tokenizes) (hparses : poco.ParsesUnsigned) (hdecimal : poco.ParsesDecimal)
    (hstore : store.length < 2 ^ 31) {socket : DialogSocket π} (hconn : socket.Connected)
    {greeting : Bytes} (hg : StatusLine greeting) (hgreeting : socket.unread = greeting ++ crlf)
    {cin : List Bytes} {r : NewsReader π α} (hr : Reached poco (ofSocket socket cin) .selectGroup r)
    {g : Newsgroup} (hmem : g ∈ store) (haccepts : AcceptsGroup poco g) {n : UInt32}
    (hn : n ∈ g.firstTen) :
    ∃ k w, r.groupPage = groupMenu w r.m_groupDescs ∧
      (∀ desc ∈ r.m_groupDescs, desc.1.length < w) ∧
      r.groupPage[k]? = some (groupLine w (k + 1) g.desc) ∧
      ∀ rest, r.cin = Bytes.ofNat (k + 1) :: Bytes.ofUInt n :: rest →
        ∃ r₁ r₂ a, Shown poco g n rest r r₁ r₂ a := by
  have hmirrors : Mirrors store r :=
    (reached_mirrors hworks hpublishes htokenizes hparses hconn hg hgreeting hr)
  have hdesc : g.desc ∈ r.m_groupDescs :=
    hmirrors.groups.mem_iff.mpr (List.mem_map_of_mem hmem)
  obtain ⟨k, hk⟩ := List.mem_iff_getElem?.mp hdesc
  have hlength : k < store.length := by
    have hlt := (List.getElem?_eq_some_iff.mp hk).1
    rwa [hmirrors.groups.length_eq, List.length_map] at hlt
  obtain ⟨w, hwidth, hpage⟩ := groupPage_aligned (List.ne_nil_of_mem hdesc)
  refine ⟨k, w, hpage, hwidth, ?_, fun rest hcin => ?_⟩
  · rw [hpage]
    exact groupMenu_getElem? hk w
  obtain ⟨r₁, hgroup, hbrowses, hcin₁, hcout₁⟩ := selectGroup_opens hworks hpublishes htokenizes
    hparses hdecimal hmem haccepts hn hmirrors hk (by omega) hcin
  have hkey : n ∈ r₁.m_articles := (hbrowses.first n).mpr hn
  obtain ⟨menu, harticles, hselect⟩ := selectArticle_opens hparses hbrowses hkey hcin₁
  obtain ⟨v, hv⟩ := Option.isSome_iff_exists.mp (Std.TreeMap.isSome_getElem?_iff_mem.mpr hkey)
  obtain ⟨ls, a, hls, rfl, hread⟩ := hbrowses.stored n v hv
  obtain ⟨w', hwidth', hmenu⟩ := articlePage_aligned harticles
  have hline := mem_articleMenu hmenu (Std.TreeMap.mem_toList_iff_getElem?_eq_some.mpr hv)
  exact ⟨r₁, _, a, hgroup, hcout₁, hselect, ⟨w', menu, rfl, hmenu, hwidth', hline⟩, ⟨ls, hls, hread⟩,
    fun date hdate => displayArticle_evals hv hdate⟩

/-- The second article of the only group. -/
theorem every_article_shown_publishing :
    let store := [boostUser]
    let poco := Poco.reference (Server.publishing store) Reference.readAll (id : Bytes → Bytes)
    let start : NewsReader (Option Newsgroup) Bytes :=
      .ofSocket ⟨text "200 ready\r\n", false, [], false, none⟩ [text "1", text "6"]
    ∃ r, Reached poco start .selectGroup r ∧ r.cin = [text "1", text "6"] ∧
      ∃ k w, r.groupPage = groupMenu w r.m_groupDescs ∧
      (∀ desc ∈ r.m_groupDescs, desc.1.length < w) ∧
      r.groupPage[k]? = some (groupLine w (k + 1) boostUser.desc) ∧
      ∀ rest, r.cin = Bytes.ofNat (k + 1) :: Bytes.ofUInt 6 :: rest →
        ∃ r₁ r₂ a, Shown poco boostUser 6 rest r r₁ r₂ a := by
  intro store poco start
  have hrun : ((construct poco).run 99 start).map (fun x => (x.1, x.2.cin)) =
      some (.ok (), [text "1", text "6"]) := by
    decide +kernel
  obtain ⟨r, hconstruct, hcin⟩ :=
    exists_evals_of_run 99 (fun r : NewsReader (Option Newsgroup) Bytes => r.cin) hrun
  have hpublishes : Publishes (Server.publishing store) (text "gmane.comp.*.boost.*") store id :=
    Server.publishing_publishes (by decide) (by decide)
  have haccepts : AcceptsGroup poco boostUser :=
    fun _ _ _ _ content _ => Reference.readAll_result [] content
  have hg : StatusLine (text "200 ready") := ⟨by decide, rfl⟩
  have hn : 6 ∈ boostUser.firstTen := by decide
  have hr : Reached poco start .selectGroup r := .constructed hconstruct
  exact ⟨r, hr, hcin, every_article_shown (.reference (Server.publishing_conforms store)) hpublishes
    Reference.tokenizes Reference.parsesUnsigned Reference.parsesDecimal (by decide) ⟨rfl, rfl⟩ hg rfl
    hr List.mem_cons_self haccepts hn⟩

end NewsReader

end NntpPoco
