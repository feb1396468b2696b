import NntpPoco.Lib.Lts
import NntpPoco.Reader.Browse
import NntpPoco.Reader.Paging

/-!
# `Reader.Interpreter` — the program as its user sees it

To its user the program is an interpreter of the lines that are typed, and what it works on are the
newsgroups of the server. `Turns` is that interpreter: it shows one page after another, each about a
`Topic`, and takes the lines that are typed to them; `Ends` is how it stops. There is no session in it, no
socket, and no loop. `main_interprets` says that this is what `main` does: what has been printed when it
has ended, and its exit code, are those of the interpreter.

The menu loops are followed round by round (`menu_rounds`); each function of `main.cpp` then takes the
interpreter from one topic to the next (`selectGroup_turns`, `selectArticle_turns`,
`displayArticle_turns`).
-/

namespace NntpPoco

open Lines Prog NNTPClientSession

variable {π μ α β : Type} {poco : Poco π μ α} {server : Server π} {store : List Newsgroup}
  {selected : π → Option Newsgroup}

namespace NewsReader

/-! ## Pages -/

/-- The groups of the first menu: those of the server, in the order of their names. -/
def menuGroups (store : List Newsgroup) : List GroupDesc :=
  (store.map Newsgroup.desc).insertionSort fun lhs rhs => ¬ rhs.1 < lhs.1

/-- The shelf of a group: its first ten articles, as the parser reads them. -/
structure IsShelf (poco : Poco π μ α) (g : Newsgroup) (shelf : Shelf α) : Prop where
  stored : ∀ n v, shelf[n]? = some v → ∃ ls a, g.article n = some ls ∧ v = some a ∧ IsRead poco ls a
  first : ∀ n, n ∈ shelf ↔ n ∈ g.firstTen

/-! ## The interpreter -/

/-- What the next page is about. -/
inductive Topic (α : Type)
  | groups
  | articles (g : Newsgroup) (shelf : Shelf α)
  | article (g : Newsgroup) (shelf : Shelf α) (a : α)

/-- The topic, and the lines that are still to be read. -/
abbrev Desk (α : Type) := Topic α × List Bytes

/-- What the line typed to the menu of the groups means; once the input has ended, it is empty. -/
abbrev groupVerdict (poco : Poco π μ α) (store : List Newsgroup) (cin : List Bytes) :
    Except Exception (Unit ⊕ Option Int) :=
  judge poco.parse (isPlace (menuGroups store)) (cin.headD [])

abbrev articleVerdict (poco : Poco π μ α) (shelf : Shelf α) (cin : List Bytes) :
    Except Exception (Unit ⊕ Option UInt32) :=
  judge poco.parseUnsigned (isOnShelf shelf) (cin.headD [])

/-- **The interpreter.** A menu comes again until a line decides. Behind the menu of the groups come the
    articles of the group that was named, behind these the article that was named, and behind it the same
    articles again. -/
inductive Turns (poco : Poco π μ α) (store : List Newsgroup) : Desk α → List Output → Desk α → Prop
  | askGroup {cin} (hne : store ≠ []) (hline : groupVerdict poco store cin = .ok (.inl ())) :
      Turns poco store (.groups, cin) (groupsPage (menuGroups store)) (.groups, cin.tail)
  | openGroup {cin group g shelf} (hline : groupVerdict poco store cin = .ok (.inr (some group)))
      (hdesc : (menuGroups store)[(group - 1).toNat]? = some g.desc) (hg : g ∈ store)
      (hshelf : IsShelf poco g shelf) :
      Turns poco store (.groups, cin) (groupsPage (menuGroups store)) (.articles g shelf, cin.tail)
  | askArticle {g shelf page cin} (hpage : shelfPage poco shelf = .ok page)
      (hline : articleVerdict poco shelf cin = .ok (.inl ())) :
      Turns poco store (.articles g shelf, cin) page (.articles g shelf, cin.tail)
  | leaveGroup {g shelf page cin} (hpage : shelfPage poco shelf = .ok page)
      (hline : articleVerdict poco shelf cin = .ok (.inr none)) :
      Turns poco store (.articles g shelf, cin) page (.groups, cin.tail)
  | openArticle {g shelf page cin a} {n : UInt32} (hpage : shelfPage poco shelf = .ok page)
      (hline : articleVerdict poco shelf cin = .ok (.inr (some n))) (ha : shelf[n]? = some (some a)) :
      Turns poco store (.articles g shelf, cin) page (.article g shelf a, cin.tail)
  | showArticle {g shelf a cin date} (hdate : poco.formatDate a "%w %B %e, %Y" = .ok date) :
      Turns poco store (.article g shelf a, cin)
        (articleHeader poco a date ++ (pager 0 (pieces (poco.getContent a)) cin).1)
        (.articles g shelf, (pager 0 (pieces (poco.getContent a)) cin).2)

/-- **How it stops**: with what on the console, and by which exception. -/
inductive Ends (poco : Poco π μ α) (store : List Newsgroup) :
    Desk α → List Output → Except Exception Unit → Prop
  | noGroups {cin} (hstore : store = []) : Ends poco store (.groups, cin) [] (.error .undefined)
  | leave {cin} (hne : store ≠ []) (hline : groupVerdict poco store cin = .ok (.inr none)) :
      Ends poco store (.groups, cin) (groupsPage (menuGroups store)) (.ok ())
  | noGroupNumber {cin e} (hne : store ≠ []) (hline : groupVerdict poco store cin = .error e) :
      Ends poco store (.groups, cin) (groupsPage (menuGroups store)) (.error e)
  /-- the parser does not take one of the first ten articles -/
  | notLoaded {cin group g e} (hline : groupVerdict poco store cin = .ok (.inr (some group)))
      (hdesc : (menuGroups store)[(group - 1).toNat]? = some g.desc) (hg : g ∈ store)
      (he : Rejects poco g e) :
      Ends poco store (.groups, cin) (groupsPage (menuGroups store)) (.error e)
  | noArticles {g shelf cin} (hempty : shelf.isEmpty = true) :
      Ends poco store (.articles g shelf, cin) [] (.error .undefined)
  | noArticleNumber {g shelf page cin e} (hpage : shelfPage poco shelf = .ok page)
      (hline : articleVerdict poco shelf cin = .error e) :
      Ends poco store (.articles g shelf, cin) page (.error e)
  | noDate {g shelf a cin e} (hdate : poco.formatDate a "%w %B %e, %Y" = .error e) :
      Ends poco store (.article g shelf a, cin) (unfinishedHeader poco a) (.error e)

/-- From the lines `cin` the interpreter has come to the topic, with the console as the reader has it. -/
def StandsOn (poco : Poco π μ α) (store : List Newsgroup) (cin : List Bytes) (topic : Topic α)
    (r : NewsReader π α) : Prop :=
  ∃ pages, Lts.Runs (Turns poco store) (.groups, cin) pages (topic, r.cin) ∧ r.cout = pages.flatten

/-- It has stopped. -/
def Stops (poco : Poco π μ α) (store : List Newsgroup) (cin : List Bytes) (y : Except Exception Unit)
    (out : List Output) : Prop :=
  ∃ pages desk last, Lts.Runs (Turns poco store) (.groups, cin) pages desk ∧ Ends poco store desk last y ∧
    out = pages.flatten ++ last

section Runs

variable {cin : List Bytes} {topic topic' : Topic α} {r r' : NewsReader π α} {page : List Output}

/-- One more page. -/
theorem StandsOn.turn (h : StandsOn poco store cin topic r)
    (hstep : Turns poco store (topic, r.cin) page (topic', r'.cin)) (hcout : r'.cout = r.cout ++ page) :
    StandsOn poco store cin topic' r' := by
  obtain ⟨pages, hruns, hout⟩ := h
  refine ⟨pages ++ [page], hruns.snoc hstep, ?_⟩
  rw [hcout, hout, List.flatten_append, List.flatten_singleton]

/-- The last page. -/
theorem StandsOn.stop (h : StandsOn poco store cin topic r) {y : Except Exception Unit}
    (hend : Ends poco store (topic, r.cin) page y) : Stops poco store cin y (r.cout ++ page) := by
  obtain ⟨pages, hruns, hout⟩ := h
  refine ⟨pages, _, page, hruns, hend, ?_⟩
  rw [hout]

theorem StandsOn.stop_silent (h : StandsOn poco store cin topic r) {y : Except Exception Unit}
    (hend : Ends poco store (topic, r.cin) [] y) : Stops poco store cin y r.cout := by
  rw [← List.append_nil r.cout]
  exact h.stop hend

end Runs

/-! ## Rounds of a menu -/

/-- **A menu loop** goes from round to round as the lines say; the last of them is where it leaves. -/
theorem menu_rounds {round : Unit → Method π α (Unit ⊕ β)} {menu : List Output}
    {verdict : Bytes → Except Exception (Unit ⊕ β)} {I : NewsReader π α → Prop}
    (hround : ∀ r, I r → (round ()).Evals r (verdict (r.cin.headD []))
      { r with cin := r.cin.tail, cout := r.cout ++ menu })
    (hagain : ∀ r, I r → verdict (r.cin.headD []) = .ok (.inl ()) →
      I { r with cin := r.cin.tail, cout := r.cout ++ menu })
    {r t : NewsReader π α} {x : Except Exception β} (hr : I r) (h : (loop round ()).Evals r x t) :
    ∃ r₁, I r₁ ∧ verdict (r₁.cin.headD []) = x.map .inr ∧
      t = { r₁ with cin := r₁.cin.tail, cout := r₁.cout ++ menu } := by
  refine h.loop_rule (fun _ => I) (fun x t => ∃ r₁, I r₁ ∧ verdict (r₁.cin.headD []) = x.map .inr ∧
    t = { r₁ with cin := r₁.cin.tail, cout := r₁.cout ++ menu }) ?_ hr
  intro _ r₁ y t hr₁ hy
  obtain ⟨hverdict, rfl⟩ := hy.unique (hround r₁ hr₁)
  rcases y with e | again | a
  · exact ⟨r₁, hr₁, hverdict.symm, rfl⟩
  · exact hagain r₁ hr₁ hverdict.symm
  · exact ⟨r₁, hr₁, hverdict.symm, rfl⟩

/-! ## The reader and the interpreter -/

/-- At the menu of the groups. -/
structure AtGroups (poco : Poco π μ α) (store : List Newsgroup) (cin : List Bytes)
    (r : NewsReader π α) : Prop where
  mirrors : Mirrors store r
  descs : r.m_groupDescs = menuGroups store
  stands : StandsOn poco store cin .groups r

/-- The group `g` is open, with its articles on the shelf. -/
structure Opened (poco : Poco π μ α) (store : List Newsgroup) (selected : π → Option Newsgroup)
    (g : Newsgroup) (shelf : Shelf α) (r : NewsReader π α) : Prop where
  mirrors : Mirrors store r
  descs : r.m_groupDescs = menuGroups store
  browses : Browses poco selected g r
  m_articles : r.m_articles = shelf

/-- At the menu of its articles. -/
structure AtArticles (poco : Poco π μ α) (store : List Newsgroup) (selected : π → Option Newsgroup)
    (cin : List Bytes) (g : Newsgroup) (shelf : Shelf α) (r : NewsReader π α) : Prop
    extends Opened poco store selected g shelf r where
  stands : StandsOn poco store cin (.articles g shelf) r

/-- At one of them. -/
structure AtArticle (poco : Poco π μ α) (store : List Newsgroup) (selected : π → Option Newsgroup)
    (cin : List Bytes) (g : Newsgroup) (shelf : Shelf α) (a : α) (r : NewsReader π α) : Prop
    extends Opened poco store selected g shelf r where
  article : r.m_articles[r.m_selectedArticle]? = some (some a)
  stands : StandsOn poco store cin (.article g shelf a) r

section Menus

variable {cin : List Bytes} {g : Newsgroup} {shelf : Shelf α} {r t : NewsReader π α}

theorem Opened.isShelf (h : Opened poco store selected g shelf r) : IsShelf poco g shelf := by
  rw [← h.m_articles]
  exact ⟨h.browses.stored, h.browses.first⟩

/-- An open group is not in the console. -/
theorem Opened.of_console (h : Opened poco store selected g shelf r) (cin : List Bytes)
    (cout : List Output) (n : UInt32) :
    Opened poco store selected g shelf
      { r with cin := cin, cout := cout, m_selectedArticle := n } :=
  ⟨h.mirrors.of_frame rfl rfl, h.descs, h.browses.of_sameArticles ⟨rfl, rfl, rfl, rfl⟩, h.m_articles⟩

/-- **The loop of `selectGroup`**: the interpreter at the round that decides. -/
theorem chooseGroup_rounds (hne : store ≠ []) (hr : AtGroups poco store cin r)
    {x : Except Exception (Option Int)} (h : (chooseGroup poco).Evals r x t) :
    ∃ r₁, AtGroups poco store cin r₁ ∧ groupVerdict poco store r₁.cin = x.map .inr ∧
      t = { r₁ with cin := r₁.cin.tail, cout := r₁.cout ++ groupsPage (menuGroups store) } := by
  have hgroups : menuGroups store ≠ [] := by
    rw [menuGroups, ← List.length_pos_iff, List.length_insertionSort, List.length_map]
    exact List.length_pos_iff.mpr hne
  rw [chooseGroup_eq] at h
  refine menu_rounds (I := AtGroups poco store cin) (fun r hr => ?_) (fun r hr hverdict => ?_) hr h
  · rw [← hr.descs] at hgroups ⊢
    exact groupPrompt_round hgroups
  · exact ⟨hr.mirrors.of_frame rfl rfl, hr.descs, hr.stands.turn (.askGroup hne hverdict) rfl⟩

theorem selectGroup_empty (hnone : r.m_groupDescs = []) :
    (selectGroup poco).Evals r (.error .undefined) r := by
  apply Evals.bind_error
  rw [chooseGroup_eq]
  apply Evals.loop_error
  unfold groupPrompt
  rw [evals_get_bind, hnone]
  exact evals_throw.mpr ⟨rfl, rfl⟩

/-- A number on the menu is the place of a group of the server. -/
theorem menuGroups_place {group : Int} (h : isPlace (menuGroups store) group = true) :
    ∃ g ∈ store, (menuGroups store)[(group - 1).toNat]? = some g.desc := by
  obtain ⟨hlow, hhigh⟩ := of_decide_eq_true h
  have hlt : (group - 1).toNat < (menuGroups store).length := by omega
  obtain ⟨g, hg, hdesc⟩ : ∃ g ∈ store, g.desc = (menuGroups store)[(group - 1).toNat] :=
    List.mem_map.mp ((List.mem_insertionSort _).mp (List.getElem_mem hlt))
  refine ⟨g, hg, ?_⟩
  rw [hdesc]
  exact List.getElem?_eq_getElem hlt

section Laws

variable (hworks : Works poco server)
  (hpublishes : Publishes server (text "gmane.comp.*.boost.*") store selected)
  (htokenizes : poco.Tokenizes) (hparses : poco.ParsesUnsigned)
include hworks hpublishes htokenizes hparses

/-- Behind the menu of `selectGroup`, where the group `g` has been named. -/
theorem loadGroup_turns (hr : AtGroups poco store cin r) {group : Int}
    (hverdict : groupVerdict poco store r.cin = .ok (.inr (some group)))
    (hplace : (menuGroups store)[(group - 1).toNat]? = some g.desc) (hg : g ∈ store)
    {asked : NewsReader π α} (hasked : asked = { r with
      cin := r.cin.tail, cout := r.cout ++ groupsPage (menuGroups store), m_currentGroup := g.name })
    {x : Except Exception Unit} (h : (loadGroup poco).Evals asked x t) :
    Exit (fun _ t => ∃ shelf, AtArticles poco store selected cin g shelf t)
      (fun e t => Stops poco store cin (.error e) t.cout) x t := by
  have hmirrors : Mirrors store asked := by
    rw [hasked]
    exact hr.mirrors.of_frame rfl rfl
  -- GROUP and what follows it print nothing and read nothing
  have hkeeps : Keeps (fun r' : NewsReader π α => r'.cin = r.cin.tail ∧
      r'.cout = r.cout ++ groupsPage (menuGroups store) ∧ r'.m_groupDescs = r.m_groupDescs)
      (loadGroup poco) := loadGroup_keeps fun _ _ _ _ hr => hr
  obtain ⟨hcin, hcout, hdescs⟩ := hkeeps asked x t (by simp [hasked]) h
  have hloads := loadGroup_browses hworks hpublishes htokenizes hparses hg hmirrors
    (by rw [hasked]) h
  cases x with
  | error e =>
      show Stops poco store cin (.error e) t.cout
      rw [hcout]
      exact hr.stands.stop (.notLoaded hverdict hplace hg hloads)
  | ok u =>
      obtain ⟨hmirrors, hbrowses⟩ := hloads
      have hopened : Opened poco store selected g t.m_articles t :=
        ⟨hmirrors, hdescs.trans hr.descs, hbrowses, rfl⟩
      refine ⟨t.m_articles, hopened, hr.stands.turn ?_ hcout⟩
      rw [hcin]
      exact .openGroup hverdict hplace hg hopened.isShelf

/-- **`selectGroup`** opens the group that was named, or stops. -/
theorem selectGroup_turns :
    Contract (AtGroups poco store cin) (selectGroup poco)
      (fun chosen t => match chosen with
        | true => ∃ g shelf, AtArticles poco store selected cin g shelf t
        | false => Stops poco store cin (.ok ()) t.cout)
      fun e t => Stops poco store cin (.error e) t.cout := by
  intro r x t hr heval
  by_cases hne : store = []
  · -- there is no first menu
    have hnone : r.m_groupDescs = [] := by
      rw [hr.descs, hne]
      exact List.insertionSort_nil _
    obtain ⟨rfl, rfl⟩ := heval.unique (selectGroup_empty hnone)
    exact hr.stands.stop_silent (.noGroups hne)
  · have hall := heval
    unfold selectGroup at heval
    rcases evals_bind.mp heval with ⟨e, hchoose, rfl⟩ | ⟨choice, r', hchoose, hrest⟩
    · obtain ⟨r₁, hr₁, hverdict, rfl⟩ := chooseGroup_rounds hne hr hchoose
      exact hr₁.stands.stop (.noGroupNumber hne hverdict)
    obtain ⟨r₁, hr₁, hverdict, rfl⟩ := chooseGroup_rounds hne hr hchoose
    cases choice with
    | none =>
        obtain ⟨rfl, rfl⟩ := evals_pure.mp hrest
        exact hr₁.stands.stop (.leave hne hverdict)
    | some group =>
        have hvalid : isPlace (menuGroups store) group = true := judge_selects hverdict
        obtain ⟨g, hg, hplace⟩ := menuGroups_place hvalid
        have hdesc : r₁.m_groupDescs[(group - 1).toNat]? = some g.desc := by
          rw [hr₁.descs]
          exact hplace
        have hload := (selectGroup_selects hchoose hdesc).mp hall
        rcases evals_bind.mp hload with ⟨e, herr, rfl⟩ | ⟨_, r₂, hloaded, hreturn⟩
        · exact loadGroup_turns hworks hpublishes htokenizes hparses hr₁ hverdict hplace hg rfl herr
        · obtain ⟨rfl, rfl⟩ := evals_pure.mp hreturn
          exact ⟨g, loadGroup_turns hworks hpublishes htokenizes hparses hr₁ hverdict hplace hg rfl
            hloaded⟩

end Laws

theorem selectArticle_empty (hempty : r.m_articles.isEmpty = true) :
    (selectArticle poco).Evals r (.error .undefined) r := by
  have hnil : r.m_articles.toList = [] := by
    rw [← List.isEmpty_iff, Std.TreeMap.isEmpty_toList]
    exact hempty
  apply Evals.bind_error
  rw [chooseArticle_eq]
  apply Evals.loop_error
  unfold articlePrompt
  rw [evals_get_bind, hnil]
  exact evals_throw.mpr ⟨rfl, rfl⟩

/-- There is a menu where there are articles. -/
theorem Opened.page (h : Opened poco store selected g shelf r) (hne : shelf.isEmpty = false) :
    ∃ page, shelfPage poco shelf = .ok page := by
  have hnull : r.NoNull := by
    rintro n v hv rfl
    obtain ⟨_, _, _, hnone, _⟩ := h.browses.stored n none hv
    exact absurd hnone (by simp)
  rw [← h.m_articles] at hne ⊢
  exact (articlePage_ok_iff hne).mpr hnull

/-- **The loop of `selectArticle`.** -/
theorem chooseArticle_rounds {page : List Output} (hpage : shelfPage poco shelf = .ok page)
    (hr : AtArticles poco store selected cin g shelf r) {x : Except Exception (Option UInt32)}
    (h : (chooseArticle poco).Evals r x t) :
    ∃ r₁, AtArticles poco store selected cin g shelf r₁ ∧
      articleVerdict poco shelf r₁.cin = x.map .inr ∧
      t = { r₁ with cin := r₁.cin.tail, cout := r₁.cout ++ page } := by
  rw [chooseArticle_eq] at h
  refine menu_rounds (I := AtArticles poco store selected cin g shelf) (fun r hr => ?_)
    (fun r hr hverdict => ?_) hr h
  · rw [← hr.m_articles] at hpage ⊢
    exact articlePrompt_round hpage
  · exact ⟨hr.toOpened.of_console _ _ r.m_selectedArticle,
      hr.stands.turn (.askArticle hpage hverdict) rfl⟩

/-- **`selectArticle`** goes to the article that was named, or back to the groups, or stops. -/
theorem selectArticle_turns :
    Contract (AtArticles poco store selected cin g shelf) (selectArticle poco)
      (fun chosen t => match chosen with
        | true => ∃ a, AtArticle poco store selected cin g shelf a t
        | false => AtGroups poco store cin t)
      fun e t => Stops poco store cin (.error e) t.cout := by
  intro r x t hr heval
  cases hempty : shelf.isEmpty with
  | true =>
      rw [← hr.m_articles] at hempty
      obtain ⟨rfl, rfl⟩ := heval.unique (selectArticle_empty hempty)
      rw [hr.m_articles] at hempty
      exact hr.stands.stop_silent (.noArticles hempty)
  | false =>
      obtain ⟨page, hpage⟩ := hr.toOpened.page hempty
      unfold selectArticle at heval
      rcases evals_bind.mp heval with ⟨e, hchoose, rfl⟩ | ⟨choice, r', hchoose, hrest⟩
      · obtain ⟨r₁, hr₁, hverdict, rfl⟩ := chooseArticle_rounds hpage hr hchoose
        exact hr₁.stands.stop (.noArticleNumber hpage hverdict)
      obtain ⟨r₁, hr₁, hverdict, rfl⟩ := chooseArticle_rounds hpage hr hchoose
      cases choice with
      | none =>
          obtain ⟨rfl, rfl⟩ := evals_pure.mp hrest
          exact ⟨hr₁.mirrors.of_frame rfl rfl, hr₁.descs,
            hr₁.stands.turn (.leaveGroup hpage hverdict) rfl⟩
      | some n =>
          rw [evals_modify_bind] at hrest
          obtain ⟨rfl, rfl⟩ := evals_pure.mp hrest
          have hvalid : isOnShelf shelf n = true := judge_selects hverdict
          have hmem : n ∈ shelf := of_decide_eq_true hvalid
          obtain ⟨v, hv⟩ := Option.isSome_iff_exists.mp (Std.TreeMap.isSome_getElem?_iff_mem.mpr hmem)
          obtain ⟨_, a, _, rfl, _⟩ := hr₁.isShelf.stored n v hv
          refine ⟨a, hr₁.toOpened.of_console _ _ n, ?_,
            hr₁.stands.turn (.openArticle hpage hverdict hv) rfl⟩
          rw [← hr₁.m_articles] at hv
          exact hv

/-- **`displayArticle`** shows it, and goes back to its menu. -/
theorem displayArticle_turns {a : α} :
    Contract (AtArticle poco store selected cin g shelf a) (displayArticle poco)
      (fun _ => AtArticles poco store selected cin g shelf)
      fun e t => Stops poco store cin (.error e) t.cout := by
  intro r x t hr heval
  cases hdate : poco.formatDate a "%w %B %e, %Y" with
  | error e =>
      obtain ⟨rfl, rfl⟩ := heval.unique (displayArticle_throws hr.article hdate)
      exact hr.stands.stop (.noDate hdate)
  | ok date =>
      obtain ⟨rfl, rfl⟩ := heval.unique (displayArticle_evals hr.article hdate)
      exact ⟨hr.toOpened.of_console _ _ r.m_selectedArticle,
        hr.stands.turn (.showArticle hdate) rfl⟩

end Menus

/-! ## `main` -/

section Main

variable (hworks : Works poco server)
  (hpublishes : Publishes server (text "gmane.comp.*.boost.*") store selected)
include hworks hpublishes

/-- **The constructor** of a reader that is greeted comes to the menu of the groups. -/
theorem construct_turns {socket : DialogSocket π} (hconn : socket.Connected) {greeting : Bytes}
    (hg : StatusLine greeting) (hready : isPositiveCompletion (statusOf greeting) = true)
    (hgreeting : socket.unread = greeting ++ crlf) (cin : List Bytes) :
    Contract (· = ofSocket socket cin) (construct poco) (fun _ => AtGroups poco store cin)
      fun _ _ => False := by
  rintro _ x t rfl heval
  obtain ⟨s, hopen, hstands⟩ := openSession_stands hworks.reads hconn hg hready hgreeting
  have hclean : (Operation.listNewsGroups (text "gmane.comp.*.boost.*")).Clean := by decide
  obtain ⟨y, s', hlist, hspeaks, hconn', htaken⟩ := member_speaks
    (show (Operation.listNewsGroups (text "gmane.comp.*.boost.*")).run poco =
      Result.groups <$> listNewsGroups poco (text "gmane.comp.*.boost.*") from rfl)
    hworks hstands.connected hstands.unread hclean
  have hlisted := hpublishes.listed hspeaks
  cases y with
  | error e => exact absurd hlisted (by simp [Except.map])
  | ok groupDescs =>
      obtain rfl : groupDescs = store.map Newsgroup.desc := Result.groups.inj (Except.ok.inj hlisted)
      have hreturns : (construct poco).Evals (ofSocket socket cin : NewsReader π α) (.ok ())
          { (ofSocket socket cin : NewsReader π α) with
            m_session := s', m_groupDescs := menuGroups store } := by
        replace hopen : (openSession poco).Evals (ofSocket socket cin : NewsReader π α).m_session
            (.ok ()) s := hopen
        have hopened : (inSession (openSession poco)).Evals (ofSocket socket cin : NewsReader π α)
            (.ok ()) { (ofSocket socket cin : NewsReader π α) with m_session := s } := hopen.zoom
        have hgroups : (inSession (listNewsGroups poco (text "gmane.comp.*.boost.*"))).Evals
            ({ (ofSocket socket cin : NewsReader π α) with m_session := s } : NewsReader π α)
            (.ok (store.map Newsgroup.desc))
            { (ofSocket socket cin : NewsReader π α) with m_session := s' } := hlist.zoom
        exact hopened.bind (hgroups.bind (evals_modify.mpr ⟨rfl, rfl⟩))
      obtain ⟨rfl, rfl⟩ := heval.unique hreturns
      exact ⟨⟨hconn', htaken _ rfl, List.perm_insertionSort _ _, pairwise_names _⟩, rfl, [], .nil, rfl⟩

end Main

section Loops

variable {cin : List Bytes}

theorem readArticles_turns :
    Contract (fun r => ∃ g shelf, AtArticles poco store selected cin g shelf r) (readArticles poco)
      (fun _ => AtGroups poco store cin) fun e t => Stops poco store cin (.error e) t.cout := by
  rw [readArticles_eq]
  refine Contract.loop (fun _ r => ∃ g shelf, AtArticles poco store selected cin g shelf r)
    (fun _ => ?_) ()
  rintro r x t ⟨g, shelf, hr⟩ heval
  unfold articleRound at heval
  refine selectArticle_turns.bind (fun chosen => ?_) r x t hr heval
  cases chosen with
  | false => exact contract_pure fun _ h => h
  | true =>
      rintro r x t ⟨a, hr⟩ heval
      refine displayArticle_turns.bind (fun _ => ?_) r x t hr heval
      exact contract_pure fun _ h => ⟨g, shelf, h⟩

theorem readGroups_turns (hworks : Works poco server)
    (hpublishes : Publishes server (text "gmane.comp.*.boost.*") store selected)
    (htokenizes : poco.Tokenizes) (hparses : poco.ParsesUnsigned) :
    Contract (AtGroups poco store cin) (readGroups poco)
      (fun _ t => Stops poco store cin (.ok ()) t.cout)
      fun e t => Stops poco store cin (.error e) t.cout := by
  rw [readGroups_eq]
  refine Contract.loop (fun _ => AtGroups poco store cin) (fun _ => ?_) ()
  unfold groupRound
  refine (selectGroup_turns hworks hpublishes htokenizes hparses).bind fun chosen => ?_
  cases chosen with
  | false => exact contract_pure fun _ h => h
  | true => exact readArticles_turns.bind fun _ => contract_pure fun _ h => h

end Loops

/-- **The program is the interpreter.** On a server that greets the reader and publishes its newsgroups,
    what a `main` has printed when it has ended, and its exit code, are what the interpreter makes of the
    lines that were typed. -/
theorem main_interprets (hworks : Works poco server)
    (hpublishes : Publishes server (text "gmane.comp.*.boost.*") store selected)
    (htokenizes : poco.Tokenizes) (hparses : poco.ParsesUnsigned) {socket : DialogSocket π}
    (hconn : socket.Connected) {greeting : Bytes} (hg : StatusLine greeting)
    (hready : isPositiveCompletion (statusOf greeting) = true)
    (hgreeting : socket.unread = greeting ++ crlf) {cin : List Bytes} {x : Except Exception ℕ}
    {t : NewsReader π α} (h : (main poco).Evals (ofSocket socket cin) x t) :
    ∃ y, Stops poco store cin y t.cout ∧ x = exitCode y := by
  -- the destructor of the session prints nothing
  obtain ⟨y, r, s, hbody, hx, rfl, _⟩ := main_cases h
  have hturns : Contract (· = ofSocket socket cin) (construct poco >>= fun _ => readGroups poco)
      (fun _ t => Stops poco store cin (.ok ()) t.cout)
      fun e t => Stops poco store cin (.error e) t.cout := by
    have hconstruct : Contract (· = ofSocket socket cin) (construct poco)
        (fun _ => AtGroups poco store cin) fun e t => Stops poco store cin (.error e) t.cout :=
      (construct_turns hworks hpublishes hconn hg hready hgreeting cin).imp (fun _ h => h)
        (fun _ _ h => h) fun _ _ h => h.elim
    exact hconstruct.bind fun _ => readGroups_turns hworks hpublishes htokenizes hparses
  have hexit := hturns _ y r rfl hbody
  cases y with
  | error e => exact ⟨.error e, hexit, hx⟩
  | ok u => exact ⟨.ok (), hexit, hx⟩

/-- A visit to the only group: a number that is not there, its second article, and back. -/
theorem main_interprets_publishing :
    let store := [boostUser]
    let poco := Poco.reference (Server.publishing store) Reference.readAll (id : Bytes → Bytes)
    let cin := [text "1", text "5", text "6", text "q", text "q"]
    let start : NewsReader (Option Newsgroup) Bytes :=
      .ofSocket ⟨text "200 ready\r\n", false, [], false, none⟩ cin
    ∃ t, (main poco).Evals start (.ok 0) t ∧
      ∃ y, Stops poco store cin y t.cout ∧ (.ok 0 : Except Exception ℕ) = exitCode y := by
  intro store poco cin start
  have hrun : ((main poco).run 99 start).map (fun x => (x.1, ())) = some (.ok 0, ()) := by
    decide +kernel
  obtain ⟨t, hmain, _⟩ := exists_evals_of_run 99 (fun _ : NewsReader (Option Newsgroup) Bytes => ()) hrun
  have hpublishes : Publishes (Server.publishing store) (text "gmane.comp.*.boost.*") store id :=
    Server.publishing_publishes (by decide) (by decide)
  have hg : StatusLine (text "200 ready") := ⟨by decide, rfl⟩
  exact ⟨t, hmain, main_interprets (.reference (Server.publishing_conforms store)) hpublishes
    Reference.tokenizes Reference.parsesUnsigned ⟨rfl, rfl⟩ hg (by decide) rfl hmain⟩

end NewsReader

end NntpPoco
